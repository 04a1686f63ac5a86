import LookupTap.Channel
import LookupTap.Proofs.Pump.Progress
import LookupTap.Proofs.Pump.Told

/-! Draining: what the stop delivers of a buffer.

A consumer that has been told to stop reads no more, so what it still hands over is what its
source gives up to a drain. For a ring buffer that is every record up to the first one that is
still being written; the buffer of a processor gives up nothing (`Channel.holding`). `complete`
is what a stop without loss would deliver, all the complete records in the buffer, and
`stop_delivers` says when it does: just when the drain leaves none of them behind. -/
namespace LookupTap

namespace Kernel.Item

/-- The complete record that an item is. -/
def record? : Item → Option Bytes
  | data record => some record
  | _ => none

/-- What stands in a buffer of an item that has come: nothing of a failure. -/
def standing : Item → List Item
  | failure _ => []
  | item => [item]

end Kernel.Item

namespace Channel

open Kernel (Item)
open Pump

/-! ### What a drain takes from a ring buffer -/

namespace Ring

/-- All that a drain takes, and what is left then. -/
def drain (r : Ring) : List Bytes × Ring :=
  ((readable r.items).1, { r with items := (readable r.items).2 })

/-- A reader is blocked by a record that is still being written. -/
def blocked (r : Ring) : Bool := !(readable r.items).2.isEmpty

theorem arrive_items (r : Ring) (item : Item) :
    (r.arrive item).items = r.items ++ item.standing := by
  cases item with
  | failure reason => exact (List.append_nil r.items).symm
  | _ => rfl

theorem readable_of_next? {items left : List Item} {record : Bytes}
    (h : next? items = some (record, left)) :
    readable items = (record :: (readable left).1, (readable left).2) := by
  induction items with
  | nil => cases h
  | cons item rest ih =>
    cases item with
    | data bytes =>
      cases h
      rfl
    | busy => cases h
    | _ => exact ih h

theorem readable_of_next?_none {items : List Item} (h : next? items = none) :
    (readable items).1 = [] := by
  induction items with
  | nil => rfl
  | cons item rest ih =>
    cases item with
    | data bytes => cases h
    | busy => rfl
    | _ => exact ih h

theorem length_of_next? {items left : List Item} {record : Bytes}
    (h : next? items = some (record, left)) : left.length < items.length := by
  induction items with
  | nil => cases h
  | cons item rest ih =>
    cases item with
    | data bytes =>
      cases h
      exact Nat.lt_succ_self _
    | busy => cases h
    | _ => exact Nat.lt_succ_of_lt (ih h)

/-- What arrives behind a record that is still being written cannot be read. -/
theorem readable_append (items more : List Item) :
    readable (items ++ more) =
      if (readable items).2 = [] then
        ((readable items).1 ++ (readable more).1, (readable more).2)
      else ((readable items).1, (readable items).2 ++ more) := by
  induction items with
  | nil => rfl
  | cons item rest ih =>
    cases item with
    | data bytes =>
      simp only [List.cons_append, readable, ih]
      by_cases hr : (readable rest).2 = []
      · simp only [hr, if_true]
      · simp only [hr, if_false]
    | busy => rfl
    | _ => exact ih

/-- What can be read and what is behind it are all the complete records. -/
theorem records_readable (items : List Item) :
    items.filterMap Item.record? =
      (readable items).1 ++ (readable items).2.filterMap Item.record? := by
  induction items with
  | nil => rfl
  | cons item rest ih =>
    cases item with
    | data bytes => exact congrArg (bytes :: ·) ih
    | busy => rfl
    | _ => exact ih

/-- Nothing stays behind unless a record is still being written. -/
theorem readable_of_not_busy {items : List Item} (h : .busy ∉ items) :
    (readable items).2 = [] := by
  induction items with
  | nil => rfl
  | cons item rest ih =>
    have hrest := ih fun hm => h (List.mem_cons_of_mem _ hm)
    cases item with
    | busy => exact absurd List.mem_cons_self h
    | _ => exact hrest

end Ring

/-! ### What a drain takes from a channel -/

/-- A ring buffer hands over what can be read; the buffer of a processor nothing. -/
def drain (c : Channel) : List Bytes × Channel :=
  match c.kind with
  | .ring r => (r.drain.1, { c with kind := .ring r.drain.2 })
  | .perf _ => ([], c)

/-- All the complete records in a buffer. -/
def complete (c : Channel) : List Bytes :=
  match c.kind with
  | .ring r => r.items.filterMap Item.record?
  | .perf p => p.items.filterMap Item.record?

/-- The complete records that a drain leaves there: in a ring buffer those behind a record that
is still being written, in the buffer of a processor all of them. -/
def left (c : Channel) : List Bytes :=
  match c.kind with
  | .ring r => (Ring.readable r.items).2.filterMap Item.record?
  | .perf p => p.items.filterMap Item.record?

theorem complete_eq (c : Channel) : c.complete = c.drain.1 ++ c.left := by
  obtain ⟨map, kind⟩ := c
  cases kind with
  | ring r => exact Ring.records_readable r.items
  | perf p => rfl

/-- A ring buffer in which no record is still being written is delivered whole. -/
theorem left_of_not_busy (c : Channel) (r : Ring) (hc : c.kind = .ring r) (h : .busy ∉ r.items) :
    c.left = [] := by
  simp only [left, hc, Ring.readable_of_not_busy h, List.filterMap_nil]

/-- A drain sees nothing of what arrives at a blocked buffer. -/
def blocked (c : Channel) : Bool :=
  match c.kind with
  | .ring r => r.blocked
  | .perf _ => true

theorem blocked_of_left {c : Channel} (h : c.left ≠ []) : c.blocked = true := by
  obtain ⟨map, kind⟩ := c
  cases kind with
  | ring r =>
    cases hr : (Ring.readable r.items).2 with
    | nil => exact absurd (by simp only [left, hr, List.filterMap_nil]) h
    | cons item rest => simp only [blocked, Ring.blocked, hr, List.isEmpty_cons, Bool.not_false]
  | perf p => rfl

/-- The record that an arrival adds to what a drain takes. -/
def brings (c : Channel) (a : Kernel.Arrival) : List Bytes :=
  if c.receives a = true ∧ c.blocked = false then a.item.record?.toList else []

theorem readable_standing (item : Item) :
    (Ring.readable item.standing).1 = item.record?.toList := by
  cases item <;> rfl

theorem drain_arrive (c : Channel) (a : Kernel.Arrival) :
    (c.arrive a).drain.1 = c.drain.1 ++ c.brings a := by
  obtain ⟨map, kind⟩ := c
  unfold arrive brings
  by_cases hreceives : Channel.receives ⟨map, kind⟩ a = true
  · cases kind with
    | ring r =>
      simp only [hreceives, if_true, put, drain, Ring.drain, Ring.arrive_items,
        Ring.readable_append, blocked, Ring.blocked, true_and]
      cases (Ring.readable r.items).2 with
      | nil => simp [readable_standing]
      | cons item rest => simp
    | perf p => simp [hreceives, put, drain, blocked]
  · simp only [hreceives, Bool.false_eq_true, if_false, false_and, List.append_nil]

theorem drain_next {c next : Channel} {record : Bytes} (h : c.next = some (record, next)) :
    c.drain.1 = record :: next.drain.1 ∧ next.blocked = c.blocked := by
  obtain ⟨map, kind⟩ := c
  cases kind with
  | ring r =>
    simp only [Channel.next, Ring.next, Option.map_map] at h
    obtain ⟨⟨bytes, items⟩, hitems, heq⟩ := Option.map_eq_some_iff.mp h
    cases heq
    have hreadable := Ring.readable_of_next? hitems
    exact ⟨congrArg Prod.fst hreadable, by simp only [blocked, Ring.blocked, hreadable]⟩
  | perf p => cases h

theorem drain_none {c : Channel} (h : c.next = none) : c.drain.1 = [] := by
  obtain ⟨map, kind⟩ := c
  cases kind with
  | ring r =>
    simp only [Channel.next, Ring.next, Option.map_map, Option.map_eq_none_iff] at h
    exact Ring.readable_of_next?_none h
  | perf p => rfl

/-- What a drain sees of a channel. -/
def holding : Holding source where
  held c := c.drain.1
  brings := brings
  held_arrive := drain_arrive
  held_next h := (drain_next h).1
  held_none h := drain_none h

theorem bounded : Bounded source := by
  intro c record next h
  obtain ⟨map, kind⟩ := c
  cases kind with
  | ring r =>
    simp only [source, Channel.next, Ring.next, Option.map_map] at h
    obtain ⟨⟨bytes, items⟩, hitems, heq⟩ := Option.map_eq_some_iff.mp h
    cases heq
    exact Nat.succ_lt_succ (Ring.length_of_next? hitems)
  | perf p => cases h

theorem blocked_arrive (c : Channel) (a : Kernel.Arrival) (h : c.blocked = true) :
    (c.arrive a).blocked = true := by
  obtain ⟨map, kind⟩ := c
  unfold arrive
  split
  · cases kind with
    | ring r =>
      simp only [put, blocked, Ring.blocked, Ring.arrive_items, Ring.readable_append] at h ⊢
      cases hr : (Ring.readable r.items).2 with
      | nil => simp [hr] at h
      | cons item rest => simp
    | perf p => rfl
  · exact h

theorem brings_blocked {c : Channel} (h : c.blocked = true) (a : Kernel.Arrival) :
    c.brings a = [] := by
  simp only [brings, h, Bool.true_eq_false, and_false, if_false]

/-! ### What a stop delivers -/

variable {τ : Type}

/-- What has arrived since makes no difference to a blocked buffer. -/
theorem arrivals_blocked {tracker : Tracker τ} {p : Pool Channel τ} (htold : p.phase.told = true)
    {i : Nat} {c : Channel} {batch : List Bytes} (hc : p.consumers[i]? = some (.running c batch))
    (hblocked : c.blocked = true) (moves : List (Move Kernel.Arrival)) :
    Pool.arrivals holding tracker i p moves = [] := by
  refine Pool.arrivals_nil holding htold blocked_arrive (fun h hb => (drain_next h).2.trans hb)
    brings_blocked ?_ moves
  intro s batch' hs
  rw [hc] at hs
  cases hs
  exact hblocked

/-- What is handed over includes all the complete records just when the drain leaves none. -/
theorem complete_iff_left {tracker : Tracker τ} {p : Pool Channel τ} (htold : p.phase.told = true)
    {i : Nat} {c : Channel} {batch : List Bytes} (hc : p.consumers[i]? = some (.running c batch))
    (moves : List (Move Kernel.Arrival)) :
    batch ++ c.complete <+: batch ++ c.drain.1 ++ Pool.arrivals holding tracker i p moves ↔
      c.left = [] := by
  rw [complete_eq, ← List.append_assoc]
  constructor
  · intro hcomplete
    refine Decidable.byContradiction fun hleft => hleft ?_
    -- nothing can arrive for the drain, so there is no room for what is left
    rw [arrivals_blocked htold hc (blocked_of_left hleft), List.append_nil] at hcomplete
    have hroom := hcomplete.length_le
    rw [List.length_append] at hroom
    exact List.eq_nil_of_length_eq_zero (by omega)
  · intro hleft
    rw [hleft, List.append_nil]
    exact List.prefix_append _ _

/-- **A stop delivers what a drain takes of a buffer, and nothing else.** Whatever the buffer
holds when its consumer has been told to stop, and whoever moves then: the consumer ends when it
gets its turns, and when it has ended it has handed over, before the artifact was released, the
batch in hand, what the drain takes and what arrived in time to be drained, each once and in
order: all of that if it stopped, and the start of it if the tracker crashed. So no complete
record is lost just when the drain leaves none behind, as it does in a ring buffer in which no
record is still being written. -/
theorem stop_delivers (tracker : Tracker τ) (p : Pool Channel τ) (htold : p.phase.told = true)
    (i : Nat) (c : Channel) (batch : List Bytes)
    (hc : p.consumers[i]? = some (.running c batch)) (moves : List (Move Kernel.Arrival)) :
    let since := p.fresh.run source tracker moves
    let arrived := Pool.arrivals holding tracker i p moves
    (∃ n how, .ended i how ∈ (since.run source tracker (List.replicate n (.work i))).trace) ∧
    (∀ r : Ring, c.kind = .ring r → .busy ∉ r.items → c.left = []) ∧
    ∀ how, .ended i how ∈ since.trace → ∃ before after,
      (p.run source tracker moves).trace = p.trace ++ (before ++ endingEvents i how ++ after) ∧
      .artifactReleased ∉ before ∧ (∀ e ∈ after, e.owner? ≠ some i) ∧
      Trace.records i before <+: batch ++ c.drain.1 ++ arrived ∧
      (how = .stopped → Trace.records i before = batch ++ c.drain.1 ++ arrived ∧
        (batch ++ c.complete <+: Trace.records i before ↔ c.left = [])) := by
  intro since arrived
  refine ⟨?_, left_of_not_busy c, fun how hended => ?_⟩
  · refine Pool.ends_in_turn tracker bounded ?_ ?_ fun more => ?_
    · exact Pool.run_keeps (fun _ _ _ hm h => hm.keeps_told h) p.fresh moves htold
    · rw [Pool.run_length]
      exact (List.getElem?_eq_some_iff.mp hc).1
    · rw [← Pool.run_append]
      exact Pool.fresh_retired hc _
  obtain ⟨before, after, htrace, hkept, hafter⟩ := (Pool.fresh_retired hc moves).ending hended
  have hrecords : Trace.records i (p.fresh.run source tracker moves).trace =
      Trace.records i before := by
    rw [htrace, Trace.records_append, Trace.records_append, records_ending,
      (Trace.foreign hafter).records, List.append_nil, List.append_nil]
  obtain ⟨hstart, hall⟩ := (Pool.told_account holding htold hc moves).ended hended
  rw [hrecords] at hstart hall
  refine ⟨before, after, ?_, hkept, hafter, hstart, fun hstopped => ?_⟩
  · rw [Pool.run_fresh, ← htrace]
    rfl
  · have hsum : Trace.records i before = batch ++ c.drain.1 ++ arrived :=
      hall fun message hcrash => by cases hstopped.symm.trans hcrash
    exact ⟨hsum, hsum ▸ complete_iff_left htold hc moves⟩

/-- A ring buffer with a record given up between two others. -/
theorem stop_delivers_ring :
    let c : Channel := ⟨"events", .ring { items := [.data [1], .discarded, .data [2]] }⟩
    let p := (Pool.start "events" [c] [] []).run source Tracker.recorder
      [.advance, .shutdown, .advance]
    ∃ before after, (p.run source Tracker.recorder (List.replicate 3 (.work 0))).trace =
        p.trace ++ (before ++ endingEvents 0 .stopped ++ after) ∧
      Trace.records 0 before = [[1], [2]] := by
  intro c p
  have h := stop_delivers Tracker.recorder p (by decide) 0 c [] rfl (List.replicate 3 (.work 0))
  obtain ⟨before, after, htrace, _, _, _, hall⟩ := h.2.2 .stopped (by decide)
  exact ⟨before, after, htrace, (hall rfl).1⟩

/-- The buffer of a processor has one complete record in it when the shutdown comes. The run
ends, and nobody has handled the record. -/
theorem stop_loses_record :
    let record : Bytes := List.replicate recordSize 0
    let c : Channel := ⟨"events", .perf { cpu := 0, items := [.data record] }⟩
    let p := (Pool.start "events" [c] [] []).run source Tracker.recorder
      [.advance, .shutdown, .advance, .work 0, .join 0, .advance]
    c.complete = [record] ∧ p.result?.isSome = true ∧ .ended 0 .stopped ∈ p.trace ∧
      Trace.records 0 p.trace = [] := by
  intro record c p
  exact ⟨rfl, rfl, by decide, rfl⟩

end Channel

end LookupTap
