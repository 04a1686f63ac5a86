import LookupTap.Proofs.Channel.Batches

/-! The reads of a run.

`reads` lists what each read of a consumer takes from the front of its buffer, in the order in
which a run makes them. Of a processor's buffer they are the shares of a session (`Batched.run`),
up to the first read that fails: so each sample that a read has taken is handled once, or is still
in hand, and a read that has taken a loss is one line (`samples_once`). -/
namespace LookupTap.Channel

open Kernel (Item)
open Pump

variable {τ : Type} {tracker : Tracker τ} {i : Nat}

/-! ### The consumer of a buffer -/

/-- The events of consumer `i`. -/
def own (i : Nat) (events : List Event) : List Event := events.filter (·.owner? = some i)

theorem mem_own {e : Event} {events : List Event} :
    e ∈ own i events ↔ e ∈ events ∧ e.owner? = some i := by
  rw [own, List.mem_filter, decide_eq_true_iff]

theorem own_append (first second : List Event) :
    own i (first ++ second) = own i first ++ own i second := List.filter_append ..

theorem own_of_owned {events : List Event} (h : ∀ e ∈ events, e.owner? = some i) :
    own i events = events :=
  List.filter_eq_self.2 fun e he => decide_eq_true (h e he)

theorem own_of_others {events : List Event} (h : ∀ e ∈ events, e.owner? ≠ some i) :
    own i events = [] :=
  List.filter_eq_nil_iff.2 fun e he => by simpa using h e he

/-- A view that looks at nothing else sees as much in the events of consumer `i`. -/
theorem filterMap_own {β : Type} {view : Event → Option β}
    (h : ∀ e, e.owner? ≠ some i → view e = none) (events : List Event) :
    (own i events).filterMap view = events.filterMap view := by
  rw [own, List.filterMap_filter]
  congr 1
  funext e
  by_cases he : e.owner? = some i
  · simp [he]
  · simp [he, h e he]

theorem records_own (events : List Event) :
    Trace.records i (own i events) = Trace.records i events := by
  refine filterMap_own (fun e he => ?_) events
  cases e with
  | handled k record => exact if_neg fun hk => he (congrArg some hk)
  | _ => rfl

theorem channelLines_own (events : List Event) :
    channelLines i (own i events) = channelLines i events := by
  refine filterMap_own (fun e he => ?_) events
  cases e with
  | wrote author line =>
    cases author with
    | controller => rfl
    | consumer k => exact if_neg fun hk => he (congrArg some hk.1)
  | _ => rfl

/-- What a move brings to a buffer, if that is consumer `i`'s. -/
def brought (i : Nat) (c : Channel) : Move Kernel.Arrival → List Item
  | .arrive k a => if k = i ∧ c.receives a = true then a.item.standing else []
  | _ => []

theorem brought_eq_nil {c : Channel} {m : Move Kernel.Arrival} (hne : ∀ a, m ≠ .arrive i a) :
    brought i c m = [] := by
  cases m with
  | arrive k a => exact if_neg fun hboth => hne a (by rw [hboth.1])
  | _ => rfl

/-! ### The reads of a run -/

/-- What stands in a buffer. -/
def items (c : Channel) : List Item :=
  match c.kind with
  | .ring r => r.items
  | .perf p => p.items

/-- What a read takes from the front of a buffer, unless it fails. -/
def taken? (c : Channel) : Option (List Item) :=
  match c.read with
  | .handed _ _ next => some (c.items.take (c.items.length - next.items.length))
  | .waiting next => some (c.items.take (c.items.length - next.items.length))
  | .failed _ => none

/-- A consumer with something in hand does not read, nor does one that has been told to stop. -/
def turnTaken? (told : Bool) (c : Channel) (hand : List Bytes) : Option (List Item) :=
  if told = false ∧ hand = [] then c.taken? else none

/-- What is taken by the read that a move makes, if it makes one for consumer `i`. -/
def read? (i : Nat) (p : Pool Channel τ) : Move Kernel.Arrival → Option (List Item)
  | .work k =>
    match p.consumers[k]? with
    | some (.running c hand) => if k = i then turnTaken? p.phase.told c hand else none
    | _ => none
  | _ => none

/-- What the reads of consumer `i` take in a run, read by read. -/
def reads (tracker : Tracker τ) (i : Nat) :
    Pool Channel τ → List (Move Kernel.Arrival) → List (List Item)
  | _, [] => []
  | p, m :: rest => (read? i p m).toList ++ reads tracker i (p.step source tracker m) rest

theorem read?_running {p : Pool Channel τ} {c : Channel} {hand : List Bytes}
    (hc : p.consumers[i]? = some (.running c hand)) :
    read? i p (.work i) = turnTaken? p.phase.told c hand := by
  simp only [read?, hc, if_true]

theorem read?_idle {p : Pool Channel τ}
    (h : ∀ c hand, p.consumers[i]? ≠ some (.running c hand)) : read? i p (.work i) = none := by
  simp only [read?]

theorem read?_eq_none {p : Pool Channel τ} {m : Move Kernel.Arrival} (hm : m ≠ .work i) :
    read? i p m = none := by
  cases m with
  | work k =>
    have hk : k ≠ i := fun hk => hm (congrArg Move.work hk)
    simp only [read?]
    split
    · exact if_neg hk
    · rfl
  | _ => rfl

/-- The buffer of a processor and the batch in hand are where a session has got to. -/
def Reading (tracker : Tracker τ) (i : Nat) (map : String) (p₀ : Perf) (arrived : List Item)
    (shares : List (List Item)) (events : List Event) (c : Channel) (hand : List Bytes) : Prop :=
  ∃ q, c = ⟨map, .perf q⟩ ∧ q.cpu = p₀.cpu ∧ q.slots.length = p₀.slots.length ∧
    Session tracker i p₀.cpu p₀.slots.length arrived shares q.items hand events

/-- The fault of a read that has failed, with the reason. -/
def readFault (map : String) (cpu : Nat) (reason : String) : Fault :=
  .channel map ("cpu " ++ toString cpu ++ ": " ++ reason)

namespace Reading

variable {map : String} {p₀ : Perf} {arrived : List Item} {shares : List (List Item)}
  {events : List Event} {c next : Channel} {hand rest : List Bytes} {lines : List Line}

theorem arrive (h : Reading tracker i map p₀ arrived shares events c hand) (a : Kernel.Arrival) :
    Reading tracker i map p₀ (arrived ++ brought i ⟨map, .perf p₀⟩ (.arrive i a)) shares events
      (c.arrive a) hand := by
  obtain ⟨q, rfl, hcpu, hroom, hsession⟩ := h
  have hsame : Channel.receives ⟨map, .perf p₀⟩ a = Channel.receives ⟨map, .perf q⟩ a := by
    simp only [receives, hcpu]
  simp only [Channel.arrive, brought, hsame, true_and]
  split
  · refine ⟨q.arrive a.item, rfl, ?_, ?_, ?_⟩
    · rw [Perf.arrive_cpu, hcpu]
    · rw [Perf.arrive_slots, hroom]
    · rw [Perf.arrive_items]
      exact hsession.came a.item
  · exact ⟨q, rfl, hcpu, hroom, (List.append_nil arrived).symm ▸ hsession⟩

/-- A read of the buffer is one of the session, and its share is what it has taken; or it fails. -/
theorem pull (h : Reading tracker i map p₀ arrived shares events c []) :
    (∃ batch lines next share, (source.read c = .handed batch lines next ∨
        source.read c = .waiting next ∧ batch = [] ∧ lines = []) ∧ c.taken? = some share ∧
      Reading tracker i map p₀ arrived (shares ++ [share])
        (events ++ lines.map (.wrote (.consumer i))) next batch) ∨
    ∃ reason, source.read c = .failed (readFault map p₀.cpu reason) ∧ c.taken? = none := by
  obtain ⟨q, rfl, hcpu, hroom, hsession⟩ := h
  cases hbroken : q.broken with
  | some reason =>
    have hread : Channel.read ⟨map, .perf q⟩ = .failed (readFault map p₀.cpu reason) := by
      simp only [Channel.read, Perf.read, hbroken, lift, ← hcpu]
      rfl
    exact .inr ⟨reason, hread, by simp only [taken?, hread]⟩
  | none =>
    obtain ⟨share, q', hshare, hcpu', hroom', hpull⟩ := q.read_share map hbroken
    have htake : q.items.take (q.items.length - q'.items.length) = share := by
      rw [← hshare.whole, List.length_append, Nat.add_sub_cancel, List.take_left]
    rw [hcpu] at hcpu' hpull
    rw [hroom] at hshare hroom'
    refine .inl ⟨_, _, ⟨map, .perf q'⟩, share, ?_, ?_, q', rfl, hcpu', hroom',
      hsession.read hshare⟩
    · show lift _ _ _ = _ ∨ lift _ _ _ = _ ∧ _
      rcases hpull with hpull | ⟨hpull, hnone, hquiet⟩
      · exact .inl (congrArg _ hpull)
      · exact .inr ⟨congrArg _ hpull, hnone, congrArg Option.toList hquiet⟩
    · rcases hpull with hpull | ⟨hpull, -, -⟩
      · simp only [taken?, Channel.read, hpull, lift, items, htake]
      · simp only [taken?, Channel.read, hpull, lift, items, htake]

/-- A record that is taken is the first in hand, or the first of a read. -/
theorem takes {told : Bool} {record : Bytes}
    (h : Reading tracker i map p₀ arrived shares events c hand)
    (ht : Takes source told c hand record lines next rest) :
    Reading tracker i map p₀ arrived (shares ++ (turnTaken? told c hand).toList)
      (events ++ lines.map (.wrote (.consumer i))) next (record :: rest) := by
  cases ht with
  | inHand =>
    have hnone : turnTaken? told c (record :: rest) = none := if_neg fun hboth => nomatch hboth.2
    rw [hnone]
    exact (List.append_nil shares).symm ▸ (List.append_nil events).symm ▸ h
  | drained _ hnext =>
    obtain ⟨q, rfl, -⟩ := h
    cases hnext
  | read htold hread =>
    have hturn : turnTaken? told c [] = c.taken? := if_pos ⟨htold, rfl⟩
    rcases h.pull with ⟨batch, lines', next', share, hpull | ⟨hpull, -, -⟩, htaken, hreading⟩ |
      ⟨reason, hfail, -⟩
    · cases hread.symm.trans hpull
      rw [hturn, htaken]
      exact hreading
    · cases hread.symm.trans hpull
    · cases hread.symm.trans hfail

theorem rests (h : Reading tracker i map p₀ arrived shares events c [])
    (hr : Rests source c lines next) :
    Reading tracker i map p₀ arrived (shares ++ c.taken?.toList)
      (events ++ lines.map (.wrote (.consumer i))) next [] := by
  rcases h.pull with ⟨batch, lines', next', share, hpull, htaken, hreading⟩ | ⟨reason, hfail, -⟩
  · rw [htaken]
    rcases hpull with hpull | ⟨hpull, rfl, rfl⟩ <;> rcases hr with ⟨hr, rfl⟩ | hr <;>
      cases hr.symm.trans hpull <;> exact hreading
  · rcases hr with ⟨hr, -⟩ | hr <;> cases hr.symm.trans hfail

theorem handled (t : τ) {record : Bytes}
    (h : Reading tracker i map p₀ arrived shares (events ++ lines.map (.wrote (.consumer i))) c
      (record :: rest)) :
    Reading tracker i map p₀ arrived shares
      (events ++ takenEvents i record lines (handle tracker t record)) c rest := by
  obtain ⟨q, hc, hcpu, hroom, hsession⟩ := h
  have hnext := hsession.handled t
  rw [List.append_assoc] at hnext
  exact ⟨q, hc, hcpu, hroom, hnext⟩

/-- A read that fails takes nothing and says why. -/
theorem fails (h : Reading tracker i map p₀ arrived shares events c []) {fault : Fault}
    (hread : source.read c = .failed fault) :
    c.taken? = none ∧ ∃ reason, fault = readFault map p₀.cpu reason := by
  rcases h.pull with ⟨batch, lines, next, share, hpull | ⟨hpull, -, -⟩, -, -⟩ |
    ⟨reason, hfail, htaken⟩
  · cases hread.symm.trans hpull
  · cases hread.symm.trans hpull
  · cases hread.symm.trans hfail
    exact ⟨htaken, reason, rfl⟩

end Reading

/-- Consumer `i` of a pool, whose buffer is a processor's: while it runs it is somewhere in a
session with everything that has arrived; when it has ended it has finished one, up to a crash, with
what had arrived by then. -/
inductive Batched (tracker : Tracker τ) (i : Nat) (map : String) (p₀ : Perf)
    (arrived : List Item) (shares : List (List Item)) (p : Pool Channel τ) : Prop where
  | running {c hand} : p.consumers[i]? = some (.running c hand) →
      Reading tracker i map p₀ arrived shares (own i p.trace) c hand → Batched ..
  | finished {seen how events c hand} : (∀ c hand, p.consumers[i]? ≠ some (.running c hand)) →
      seen <+: arrived → own i p.trace = events ++ endingEvents i how →
      Reading tracker i map p₀ seen shares events c hand →
      ((∀ message, how ≠ .crashed message) → hand = []) →
      (∀ fault, how = .failed fault → ∃ reason, fault = readFault map p₀.cpu reason) → Batched ..

namespace Batched

variable {map : String} {p₀ : Perf} {arrived : List Item} {shares : List (List Item)}
  {p p' : Pool Channel τ}

theorem turn (h : Batched tracker i map p₀ arrived shares p) {c : Channel} {hand : List Bytes}
    (hc : p.consumers[i]? = some (.running c hand)) {t : τ} {next : Consumer Channel}
    {events : List Event} (ht : Turn source tracker p.phase.told i p.tracker c hand t next events) :
    Batched tracker i map p₀ arrived (shares ++ (turnTaken? p.phase.told c hand).toList)
      ({ p with tracker := t }.update i next events) := by
  have hown : own i ({ p with tracker := t }.update i next events).trace =
      own i p.trace ++ events := by
    rw [Pool.update_trace, own_append, own_of_owned ht.owned]
  have hset := Pool.getElem?_changed (d := next) hc
  cases h with
  | finished hstill => exact absurd hc (hstill c hand)
  | running hc' hreading =>
    cases hc.symm.trans hc'
    cases ht with
    | handed htake _ => exact .running hset (hown ▸ (hreading.takes htake).handled p.tracker)
    | rested htold hrest =>
      rw [show turnTaken? p.phase.told c [] = c.taken? from if_pos ⟨htold, rfl⟩]
      exact .running hset (hown ▸ hreading.rests hrest)
    | @crashed _ _ _ _ _ message htake _ =>
      refine .finished (fun _ _ hrun => ?_) (List.prefix_refl arrived)
        (hown.trans (List.append_assoc ..).symm) ((hreading.takes htake).handled p.tracker)
        (fun hno => absurd rfl (hno message)) nofun
      cases hset.symm.trans hrun
    | failed htold hread =>
      obtain ⟨htaken, hfault⟩ := hreading.fails hread
      rw [show turnTaken? p.phase.told c [] = c.taken? from if_pos ⟨htold, rfl⟩, htaken,
        Option.toList_none, List.append_nil]
      refine .finished (fun _ _ hrun => ?_) (List.prefix_refl arrived) hown hreading
        (fun _ => rfl) fun fault hhow => ?_
      · cases hset.symm.trans hrun
      · cases hhow
        exact hfault
    | stopped htold _ =>
      rw [show turnTaken? p.phase.told c [] = none from
        if_neg fun hboth => Bool.false_ne_true (hboth.1.symm.trans htold), Option.toList_none,
        List.append_nil]
      refine .finished (fun _ _ hrun => ?_) (List.prefix_refl arrived) hown hreading
        (fun _ => rfl) nofun
      cases hset.symm.trans hrun

theorem arrive (h : Batched tracker i map p₀ arrived shares p) {a : Kernel.Arrival}
    (hm : Pool.Moved source tracker p (.arrive i a) p') (hown : own i p'.trace = own i p.trace) :
    Batched tracker i map p₀ (arrived ++ brought i ⟨map, .perf p₀⟩ (.arrive i a)) shares p' := by
  cases h with
  | running hc hreading =>
    cases hm with
    | idle hidle => exact absurd hc (hidle _ _ _ _ rfl)
    | arrived hc' =>
      cases hc.symm.trans hc'
      exact .running (Pool.getElem?_changed hc) (hown ▸ hreading.arrive a)
  | finished hstill hseen htail hreading hhand hfault =>
    cases hm with
    | idle _ =>
      exact .finished hstill (hseen.trans (List.prefix_append ..)) htail hreading hhand hfault
    | arrived hc => exact absurd hc (hstill _ _)

/-- What is not its own step, nor an arrival, is nothing to the consumer. -/
theorem keep (h : Batched tracker i map p₀ arrived shares p) {m : Move Kernel.Arrival}
    (hm : Pool.Moved source tracker p m p') (hwork : m ≠ .work i) (hne : ∀ a, m ≠ .arrive i a)
    (hown : own i p'.trace = own i p.trace) : Batched tracker i map p₀ arrived shares p' := by
  cases h with
  | running hc hreading => exact .running (hm.stays hwork hne hc) (hown ▸ hreading)
  | finished hstill hseen htail hreading hhand hfault =>
    exact .finished (fun c hand hc => hstill c hand (hm.running hwork hne hc)) hseen
      (hown.trans htail) hreading hhand hfault

/-- Every step keeps the session, with what it brings and what it takes. -/
theorem step (h : Batched tracker i map p₀ arrived shares p) (m : Move Kernel.Arrival) :
    Batched tracker i map p₀ (arrived ++ brought i ⟨map, .perf p₀⟩ m)
      (shares ++ (read? i p m).toList) (p.step source tracker m) := by
  by_cases hwork : m = .work i
  · subst hwork
    rw [show brought i ⟨map, .perf p₀⟩ (.work i) = [] from rfl, List.append_nil]
    by_cases hrun : ∃ c hand, p.consumers[i]? = some (.running c hand)
    · obtain ⟨c, hand, hc⟩ := hrun
      obtain ⟨t, next, events, hturn, hstep⟩ := Pool.step_work source tracker hc
      rw [read?_running hc, hstep]
      exact h.turn hc hturn
    · have hidle : p.step source tracker (.work i) = p := by
        simp only [Pool.step]
        split
        · next hc => exact absurd ⟨_, _, hc⟩ hrun
        · rfl
      rw [read?_idle fun c hand hc => hrun ⟨c, hand, hc⟩, Option.toList_none, List.append_nil,
        hidle]
      exact h
  · have hm : Pool.Moved source tracker p m (p.step source tracker m) := Pool.step_moved p m
    obtain ⟨events, htrace, hothers⟩ := hm.others hwork
    have hown : own i (p.step source tracker m).trace = own i p.trace := by
      rw [htrace, own_append, own_of_others hothers, List.append_nil]
    rw [read?_eq_none hwork, Option.toList_none, List.append_nil]
    by_cases harrive : ∃ a, m = .arrive i a
    · obtain ⟨a, rfl⟩ := harrive
      exact h.arrive hm hown
    · have hne : ∀ a, m ≠ .arrive i a := fun a ha => harrive ⟨a, ha⟩
      rw [brought_eq_nil hne, List.append_nil]
      exact h.keep hm hwork hne hown

theorem run (h : Batched tracker i map p₀ arrived shares p) (moves : List (Move Kernel.Arrival)) :
    Batched tracker i map p₀ (arrived ++ moves.flatMap (brought i ⟨map, .perf p₀⟩))
      (shares ++ reads tracker i p moves) (p.run source tracker moves) := by
  induction moves generalizing p arrived shares with
  | nil => exact (List.append_nil arrived).symm ▸ (List.append_nil shares).symm ▸ h
  | cons m rest ih =>
    rw [List.flatMap_cons, reads, ← List.append_assoc, ← List.append_assoc]
    exact ih (h.step m)

theorem start (tracker : Tracker τ) (channel : String) {sources : List Channel} (t : τ)
    (hi : sources[i]? = some ⟨map, .perf p₀⟩) :
    Batched tracker i map p₀ p₀.items [] (Pool.start channel sources t []) := by
  have hc : (Pool.start channel sources t []).consumers[i]? =
      some (.running ⟨map, .perf p₀⟩ []) := by
    simp only [Pool.start, List.getElem?_map, hi, Option.map_some]
  exact .running hc ⟨p₀, rfl, rfl, rfl, .start p₀.items⟩

end Batched

/-- **A processor's buffer hands over each sample once.** Whatever arrives, whenever, whatever is
left in the slots, and whoever moves: what has arrived is what the reads of the consumer have taken,
read by read, and what is left. A read takes no more samples than there are slots. The records that
the consumer has handled, and those in hand, are the samples that the reads have taken, each once,
in order and with its own bytes; nothing is in hand any more when the consumer has ended, unless
the tracker crashed. The consumer's lines for the channel are one for each read that has taken a
loss, with the number that was lost. A read that fails is the end, and names the processor. -/
theorem samples_once (tracker : Tracker τ) (channel : String) {sources : List Channel} (t : τ)
    {i : Nat} {map : String} {p₀ : Perf} (hi : sources[i]? = some ⟨map, .perf p₀⟩)
    (moves : List (Move Kernel.Arrival)) :
    let begun := Pool.start channel sources t []
    let p := begun.run source tracker moves
    let arrived := p₀.items ++ moves.flatMap (brought i ⟨map, .perf p₀⟩)
    let shares := reads tracker i begun moves
    ∃ seen left hand events,
      Session tracker i p₀.cpu p₀.slots.length seen shares left hand events ∧
      seen <+: arrived ∧ shares.flatten ++ left = seen ∧
      (∀ share ∈ shares, (samples share).length ≤ p₀.slots.length) ∧
      Trace.records i p.trace ++ hand = samples shares.flatten ∧
      (tracker.Avoids .channel →
        channelLines i p.trace = (shares.filter fun share => losses share ≠ 0).map fun share =>
          ⟨.warn, .channel, "Lost " ++ toString (losses share) ++ " lookup event(s) on cpu " ++
            toString p₀.cpu⟩) ∧
      (∀ c batch, p.consumers[i]? = some (.running c batch) →
        own i p.trace = events ∧ seen = arrived ∧ hand = batch ∧
          ∃ q : Perf, c = ⟨map, .perf q⟩ ∧ q.items = left) ∧
      ∀ how, .ended i how ∈ p.trace →
        own i p.trace = events ++ endingEvents i how ∧
          ((∀ message, how ≠ .crashed message) → hand = []) ∧
          ∀ fault, how = .failed fault → ∃ reason,
            fault = .channel map ("cpu " ++ toString p₀.cpu ++ ": " ++ reason) := by
  intro begun p arrived shares
  have hbatched : Batched tracker i map p₀ arrived shares p :=
    (Batched.start tracker channel t hi).run moves
  cases hbatched with
  | @running c hand hc hreading =>
    obtain ⟨q, hbuffer, -, -, hsession⟩ := hreading
    refine ⟨arrived, q.items, hand, own i p.trace, hsession, List.prefix_refl arrived,
      hsession.consumed, hsession.fits, records_own p.trace ▸ hsession.records,
      fun hquiet => ?_, ?_, ?_⟩
    · rw [← channelLines_own, hsession.lines hquiet, lossLines]
    · intro c' batch hc'
      cases hc.symm.trans hc'
      exact ⟨rfl, rfl, rfl, q, hbuffer, rfl⟩
    · intro how hended
      exact absurd (mem_own.2 ⟨hended, rfl⟩) (hsession.not_ended how)
  | @finished seen how events c hand hstill hseen hown hreading hhand hfault =>
    obtain ⟨q, -, -, -, hsession⟩ := hreading
    have hrecords : Trace.records i p.trace = Trace.records i events := by
      rw [← records_own, hown, Trace.records_append, records_ending, List.append_nil]
    have hlines : channelLines i p.trace = channelLines i events := by
      rw [← channelLines_own, hown, channelLines_append]
      exact List.append_nil _
    refine ⟨seen, q.items, hand, events, hsession, hseen, hsession.consumed, hsession.fits,
      hrecords ▸ hsession.records, fun hquiet => ?_, fun c' batch hc' => absurd hc' (hstill c' batch),
      ?_⟩
    · rw [hlines, hsession.lines hquiet, lossLines]
    · intro how' hended
      have hin : .ended i how' ∈ events ++ endingEvents i how := hown ▸ mem_own.2 ⟨hended, rfl⟩
      have hhow : how' = how :=
        ((ended_mem_ending i).1 ((List.mem_append.1 hin).resolve_left (hsession.not_ended how'))).2
      subst hhow
      exact ⟨hown, hhand, hfault⟩

/-- Two slots that are not clean, and two reads with a loss each: the first fills both slots, and
the second takes one shorter record that has arrived since. The third read fails. -/
theorem samples_once_reused :
    let p₀ : Perf :=
      { cpu := 3, items := [.data [1, 2, 3], .lost 1, .data [4, 5], .lost 2]
        slots := [[9, 9, 9, 9], [9]] }
    let moves : List (Move Kernel.Arrival) :=
      [.advance, .work 0, .arrive 0 { cpu := 3, item := .data [6] }, .work 0, .work 0,
        .arrive 0 { cpu := 3, item := .failure "Bad file descriptor (os error 9)" }, .work 0]
    let p := (Pool.start "events" [⟨"events", .perf p₀⟩] [] []).run source Tracker.recorder moves
    Trace.records 0 p.trace = [[1, 2, 3], [4, 5], [6]] ∧
      channelLines 0 p.trace =
        [⟨.warn, .channel, "Lost 1 lookup event(s) on cpu 3"⟩,
          ⟨.warn, .channel, "Lost 2 lookup event(s) on cpu 3"⟩] ∧
      .ended 0 (.failed (.channel "events" "cpu 3: Bad file descriptor (os error 9)")) ∈
        p.trace := by
  intro p₀ moves p
  have hi : [(⟨"events", .perf p₀⟩ : Channel)][0]? = some ⟨"events", .perf p₀⟩ := rfl
  have hreads : reads Tracker.recorder 0
      (Pool.start "events" [⟨"events", .perf p₀⟩] [] []) moves =
        [[.data [1, 2, 3], .lost 1, .data [4, 5]], [.lost 2, .data [6]]] := by
    decide
  have hended : .ended 0 (.failed (.channel "events" "cpu 3: Bad file descriptor (os error 9)")) ∈
      p.trace := by
    decide
  obtain ⟨seen, left, hand, events, -, -, -, -, hrecords, hlines, -, hfinished⟩ :=
    samples_once Tracker.recorder "events" [] hi moves
  obtain ⟨-, hhand, -⟩ := hfinished _ hended
  rw [hreads, hhand nofun, List.append_nil] at hrecords
  rw [hreads] at hlines
  exact ⟨hrecords, (hlines fun _ _ => nofun).trans (by decide), hended⟩

end LookupTap.Channel
