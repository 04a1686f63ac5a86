import LookupTap.Proofs.Channel.Drain
import Mathlib.Data.List.Basic

/-! Batches: what the buffer of one processor hands over, read by read.

A read takes a share of the items from the front of the buffer: all there are, or as many as it
takes to fill every slot (`Share`). The slots are used again by the next read, but what is in them
then makes no difference: what is handed over is the samples of the share (`Perf.read_share`). A
session (`Session`) is what may come of that between the buffer and the tracker: items arrive,
reads take shares, each with a line if something was lost, and the samples in hand are handled one
by one. So the samples that reads have taken are those that have been handled, or are in hand, each
once and in order (`Session.records`). -/
namespace LookupTap

namespace Kernel.Item

/-- The records that an item says were lost. -/
def loss : Item → Nat
  | lost count => count
  | _ => 0

end Kernel.Item

/-- Whatever is handed to the tracker, its lines are not of this part of the program. -/
def Tracker.Avoids {τ : Type} (tracker : Tracker τ) (topic : Topic) : Prop :=
  ∀ t r, ∀ line ∈ (tracker.accept t r).lines, line.topic ≠ topic

namespace Channel

open Kernel (Item)
open Pump

/-! ### One read -/

/-- The records in items, in order. -/
def samples (items : List Item) : List Bytes := items.filterMap Item.record?

/-- How many records were lost, by items. -/
def losses : List Item → Nat
  | [] => 0
  | item :: rest => item.loss + losses rest

/-- The line about what was lost, unless that is nothing. -/
def lossLine? (cpu : Nat) (items : List Item) : Option Line :=
  if losses items = 0 then none else some (Perf.lossLine cpu (losses items))

/-- The lines about what was lost in shares, in so many words. -/
theorem lossLines (cpu : Nat) (shares : List (List Item)) :
    shares.filterMap (lossLine? cpu) =
      (shares.filter fun share => losses share ≠ 0).map fun share =>
        ⟨.warn, .channel, "Lost " ++ toString (losses share) ++ " lookup event(s) on cpu " ++
          toString cpu⟩ := by
  induction shares with
  | nil => rfl
  | cons share rest ih =>
    unfold lossLine? at ih ⊢
    by_cases hnone : losses share = 0
    · simp only [List.filterMap_cons, hnone, if_true, ih, List.filter_cons, ne_eq,
        not_true_eq_false, decide_false, Bool.false_eq_true, if_false]
    · simp only [List.filterMap_cons, hnone, if_false, ih, List.filter_cons, ne_eq,
        not_false_eq_true, decide_true, if_true, List.map_cons]
      rfl

@[simp] theorem samples_append (first second : List Item) :
    samples (first ++ second) = samples first ++ samples second := List.filterMap_append

/-- A share of items for `room` slots, and what is left: the share has no more records than there
are slots, and ends with the items or when every slot is filled. -/
structure Share (room : Nat) (items share left : List Item) : Prop where
  whole : share ++ left = items
  fits : (samples share).length ≤ room
  full : left = [] ∨ (samples share).length = room

/-- What is no record takes no slot. -/
theorem Share.pass {room : Nat} {items share left : List Item} (h : Share room items share left)
    {item : Item} (hnone : item.record? = none) :
    Share room (item :: items) (item :: share) left := by
  have hsame : samples (item :: share) = samples share := List.filterMap_cons_none hnone
  exact ⟨congrArg (item :: ·) h.whole, hsame ▸ h.fits, hsame ▸ h.full⟩

theorem Share.record {room : Nat} {items share left : List Item} (h : Share room items share left)
    (record : Bytes) : Share (room + 1) (.data record :: items) (.data record :: share) left :=
  ⟨congrArg (Item.data record :: ·) h.whole, Nat.succ_le_succ h.fits,
    h.full.imp_right (congrArg Nat.succ)⟩

theorem Perf.take_share (room : Nat) (items : List Item) :
    ∃ share, Share room items share (take room items).left ∧
      (take room items).records = samples share ∧ (take room items).lost = losses share := by
  fun_induction take room items with
  | case1 room => exact ⟨[], ⟨rfl, Nat.zero_le room, .inl rfl⟩, rfl, rfl⟩
  | case2 items => exact ⟨[], ⟨rfl, Nat.le_refl 0, .inr rfl⟩, rfl, rfl⟩
  | case3 room record rest t ih =>
    obtain ⟨share, hshare, hsamples, hlosses⟩ := ih
    exact ⟨.data record :: share, hshare.record record, congrArg (record :: ·) hsamples,
      hlosses.trans (Nat.zero_add (losses share)).symm⟩
  | case4 room count rest t ih =>
    obtain ⟨share, hshare, hsamples, hlosses⟩ := ih
    exact ⟨.lost count :: share, hshare.pass rfl, hsamples, congrArg (count + ·) hlosses⟩
  | case5 room item rest hdata hlost ih =>
    obtain ⟨share, hshare, hsamples, hlosses⟩ := ih
    have hnone : item.record? = none := by
      cases item with
      | data record => exact absurd rfl (hdata record)
      | _ => rfl
    have hloss : item.loss = 0 := by
      cases item with
      | lost count => exact absurd rfl (hlost count)
      | _ => rfl
    have hsame : samples (item :: share) = samples share := List.filterMap_cons_none hnone
    refine ⟨item :: share, hshare.pass hnone, hsamples.trans hsame.symm, ?_⟩
    rw [losses, hloss, Nat.zero_add, hlosses]

/-- What is in the slots that were filled is what was put there. -/
theorem Perf.take_fill (records slots : List Bytes) :
    (fill records slots).take records.length = records :=
  List.take_left

theorem Perf.length_fill {records slots : List Bytes} (h : records.length ≤ slots.length) :
    (fill records slots).length = slots.length := by
  rw [fill, List.length_append, List.length_drop]
  omega

/-- A read takes a share, and hands over its samples after the line about its losses. What the
slots held before plays no part. -/
theorem Perf.read_share (map : String) {p : Perf} (h : p.broken = none) : ∃ share next,
    Share p.slots.length p.items share next.items ∧ next.cpu = p.cpu ∧
      next.slots.length = p.slots.length ∧
      (p.read map = .handed (samples share) (lossLine? p.cpu share).toList next ∨
        p.read map = .waiting next ∧ samples share = [] ∧ lossLine? p.cpu share = none) := by
  obtain ⟨share, hshare, hrecords, hlost⟩ := take_share p.slots.length p.items
  refine ⟨share, { p with
    items := (take p.slots.length p.items).left
    slots := fill (samples share) p.slots }, hshare, rfl, length_fill hshare.fits, ?_⟩
  simp only [read, h, hrecords, hlost, take_fill]
  by_cases hnothing : (samples share).isEmpty = true ∧ losses share = 0
  · refine .inr ⟨if_pos hnothing, List.isEmpty_iff.1 hnothing.1, if_pos hnothing.2⟩
  · refine .inl ((if_neg hnothing).trans ?_)
    unfold lossLine?
    split <;> rfl

theorem Perf.arrive_items (p : Perf) (item : Item) :
    (p.arrive item).items = p.items ++ item.standing := by
  cases item with
  | failure reason => exact (List.append_nil p.items).symm
  | _ => rfl

theorem Perf.arrive_cpu (p : Perf) (item : Item) : (p.arrive item).cpu = p.cpu := by
  cases item <;> rfl

theorem Perf.arrive_slots (p : Perf) (item : Item) : (p.arrive item).slots = p.slots := by
  cases item <;> rfl

/-! ### Sessions -/

variable {τ : Type} {tracker : Tracker τ} {i cpu room : Nat}

/-- What may come of a buffer with `room` slots in front of a tracker: what has arrived, the shares
that reads have taken, what is left, what is in hand, and the events. -/
inductive Session (tracker : Tracker τ) (i cpu room : Nat) :
    List Item → List (List Item) → List Item → List Bytes → List Event → Prop where
  | start (items : List Item) : Session tracker i cpu room items [] items [] []
  | arrived {arrived shares left hand events} (item : Item) :
      Session tracker i cpu room arrived shares left hand events →
      Session tracker i cpu room (arrived ++ [item]) shares (left ++ [item]) hand events
  | read {arrived shares items share left events} :
      Session tracker i cpu room arrived shares items [] events → Share room items share left →
      Session tracker i cpu room arrived (shares ++ [share]) left (samples share)
        (events ++ (lossLine? cpu share).toList.map (.wrote (.consumer i)))
  | handled {arrived shares left record hand events} (t : τ) :
      Session tracker i cpu room arrived shares left (record :: hand) events →
      Session tracker i cpu room arrived shares left hand
        (events ++ handledEvents i record (handle tracker t record))

/-- The line that consumer `i` writes for its channel. -/
def channelLine? (i : Nat) : Event → Option Line
  | .wrote (.consumer k) line => if k = i ∧ line.topic = .channel then some line else none
  | _ => none

/-- The lines that consumer `i` writes for its channel. -/
def channelLines (i : Nat) (events : List Event) : List Line := events.filterMap (channelLine? i)

@[simp] theorem channelLines_append (first second : List Event) :
    channelLines i (first ++ second) = channelLines i first ++ channelLines i second :=
  List.filterMap_append

theorem channelLines_loss (share : List Item) :
    channelLines i ((lossLine? cpu share).toList.map (.wrote (.consumer i))) =
      (lossLine? cpu share).toList := by
  unfold lossLine?
  split
  · rfl
  · simp [channelLines, channelLine?, Perf.lossLine]

/-- The lines about a record are not the channel's. -/
theorem channelLines_handled (hquiet : tracker.Avoids .channel) (t : τ) (record : Bytes) :
    channelLines i (handledEvents i record (handle tracker t record)) = [] := by
  have hlines : ∀ line ∈ (handle tracker t record).lines, line.topic ≠ .channel := by
    intro line hline
    unfold handle at hline
    cases hdecode : Record.decode record with
    | error e =>
      rw [hdecode, List.mem_singleton] at hline
      cases hline
      exact nofun
    | ok r =>
      rw [hdecode] at hline
      rcases List.mem_cons.1 hline with rfl | hline
      · exact nofun
      · exact hquiet t _ line hline
  refine List.filterMap_eq_nil_iff.2 fun e he => ?_
  simp only [handledEvents, List.cons_append, List.mem_cons, List.mem_append, List.mem_map] at he
  rcases he with rfl | ⟨line, hline, rfl⟩ | he
  · rfl
  · exact if_neg fun hboth => hlines line hline hboth.2
  · cases hr : (handle tracker t record).resolution with
    | none => simp [hr] at he
    | some r =>
      rw [hr, Option.map_some, Option.toList_some, List.mem_singleton] at he
      rw [he]
      rfl

namespace Session

variable {arrived left : List Item} {shares : List (List Item)} {hand : List Bytes}
  {events : List Event}

/-- Whatever comes to the buffer, what stands there of it has arrived. -/
theorem came (h : Session tracker i cpu room arrived shares left hand events) (item : Item) :
    Session tracker i cpu room (arrived ++ item.standing) shares (left ++ item.standing) hand
      events := by
  cases item with
  | failure reason =>
    rw [Item.standing, List.append_nil, List.append_nil]
    exact h
  | _ => exact h.arrived _

/-- The shares and what is left are what has arrived, in order. -/
theorem consumed (h : Session tracker i cpu room arrived shares left hand events) :
    shares.flatten ++ left = arrived := by
  induction h with
  | start items => rfl
  | arrived item _ ih => rw [← List.append_assoc, ih]
  | read _ hshare ih => rw [List.flatten_concat, List.append_assoc, hshare.whole, ih]
  | handled t _ ih => exact ih

theorem fits (h : Session tracker i cpu room arrived shares left hand events) :
    ∀ share ∈ shares, (samples share).length ≤ room := by
  induction h with
  | start items => nofun
  | arrived item _ ih => exact ih
  | read _ hshare ih =>
    intro share hin
    rcases List.mem_append.1 hin with hin | hin
    · exact ih share hin
    · exact List.mem_singleton.1 hin ▸ hshare.fits
  | handled t _ ih => exact ih

/-- What was handled and what is in hand are the samples of the shares, in order. -/
theorem records (h : Session tracker i cpu room arrived shares left hand events) :
    Trace.records i events ++ hand = samples shares.flatten := by
  induction h with
  | start items => rfl
  | arrived item _ ih => exact ih
  | read _ _ ih =>
    rw [Trace.records_append, records_lines, List.flatten_concat, samples_append, ← ih,
      List.append_assoc]
  | @handled _ _ _ record _ events t _ ih =>
    have hone : Trace.records i (handledEvents i record (handle tracker t record)) = [record] :=
      records_taken i record [] _
    rw [Trace.records_append, hone, List.append_assoc]
    exact ih

theorem not_ended (h : Session tracker i cpu room arrived shares left hand events) (how : Ending) :
    .ended i how ∉ events := by
  induction h with
  | start items => exact List.not_mem_nil
  | arrived item _ ih => exact ih
  | read _ _ ih =>
    intro hin
    rcases List.mem_append.1 hin with hin | hin
    · exact ih hin
    · obtain ⟨line, -, hline⟩ := List.mem_map.1 hin
      cases hline
  | handled t _ ih =>
    intro hin
    rcases List.mem_append.1 hin with hin | hin
    · exact ih hin
    · exact ended_not_mem_taken i _ [] _ i how hin

/-- There is a line for each share with a loss. -/
theorem lines (hquiet : tracker.Avoids .channel)
    (h : Session tracker i cpu room arrived shares left hand events) :
    channelLines i events = shares.filterMap (lossLine? cpu) := by
  induction h with
  | start items => rfl
  | arrived item _ ih => exact ih
  | @read _ _ _ share _ _ _ _ ih =>
    have hlast : [share].filterMap (lossLine? cpu) = (lossLine? cpu share).toList := by
      simp only [List.filterMap_eq_flatMap_toList, List.flatMap_singleton]
    rw [channelLines_append, channelLines_loss, ih, List.filterMap_append, hlast]
  | handled t _ ih => rw [channelLines_append, channelLines_handled hquiet, List.append_nil, ih]

end Session

end Channel

end LookupTap
