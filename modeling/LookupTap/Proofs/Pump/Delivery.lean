import LookupTap.Proofs.Pump.Moves

/-! Delivery: where the records of a source are.

A source that is a queue keeps what has arrived in order: a read takes from the front, and
so does a drain, which goes on until nothing is left (`Fifo`). Whatever the schedule, the
records that its consumer has handed over, those in hand and those still held are together
what has arrived, in order (`Accounted`); a consumer that ended without a crash has handed
over all of it (`run_accounted`). Each record handed over that is long enough is one call of
the tracker (`Called`). -/
namespace LookupTap.Pump

variable {σ τ α : Type}

/-! ### Sources that are queues -/

/-- What a drain sees of a source: what it holds, oldest first, and what an arrival brings. -/
structure Holding (source : Source σ α) where
  held : σ → List Bytes
  brings : σ → α → List Bytes
  held_arrive : ∀ s a, held (source.arrive s a) = held s ++ brings s a
  held_next : ∀ {s record next}, source.next s = some (record, next) →
    held s = record :: held next
  held_none : ∀ {s}, source.next s = none → held s = []

/-- A source whose reads, too, take from the front of what it holds, and fail only when it
holds nothing. -/
structure Fifo (source : Source σ α) extends Holding source where
  held_handed : ∀ {s batch lines next}, source.read s = .handed batch lines next →
    held s = batch ++ held next
  held_waiting : ∀ {s next}, source.read s = .waiting next → held next = held s
  held_failed : ∀ {s fault}, source.read s = .failed fault → held s = []

/-- What a consumer takes is the next of what it has in hand and what its source holds. -/
theorem Takes.held {source : Source σ α} (F : Fifo source) {told : Bool} {s next : σ}
    {batch rest : List Bytes} {record : Bytes} {lines : List Line}
    (h : Takes source told s batch record lines next rest) :
    batch ++ F.held s = record :: (rest ++ F.held next) := by
  cases h with
  | inHand => rfl
  | drained _ hnext => exact F.held_next hnext
  | read _ hread => exact F.held_handed hread

theorem Rests.held {source : Source σ α} (F : Fifo source) {s next : σ} {lines : List Line}
    (h : Rests source s lines next) : F.held next = F.held s := by
  rcases h with ⟨hread, _⟩ | hread
  · exact F.held_waiting hread
  · exact (F.held_handed hread).symm

namespace Pool

/-! ### What has arrived -/

/-- What a move brings to source `i`. A source that has been released receives nothing. -/
def brought {source : Source σ α} (H : Holding source) (i : Nat) (p : Pool σ τ) :
    Move α → List Bytes
  | .arrive k a =>
    match p.consumers[k]? with
    | some (.running s _) => if k = i then H.brings s a else []
    | _ => []
  | _ => []

/-- Everything that a run brings to source `i`. -/
def arrivals {source : Source σ α} (H : Holding source) (tracker : Tracker τ) (i : Nat) :
    Pool σ τ → List (Move α) → List Bytes
  | _, [] => []
  | p, m :: rest => p.brought H i m ++ arrivals H tracker i (p.step source tracker m) rest

theorem arrivals_behind {source : Source σ α} (H : Holding source) (tracker : Tracker τ) (i : Nat)
    (before : List Event) (p : Pool σ τ) (moves : List (Move α)) :
    arrivals H tracker i (p.behind before) moves = arrivals H tracker i p moves := by
  induction moves generalizing p with
  | nil => rfl
  | cons m rest ih =>
    rw [arrivals, arrivals, step_behind, ih]
    cases m <;> rfl

/-! ### The account -/

/-- The records of source `i`, of which `arrived` have arrived. -/
structure Accounted {source : Source σ α} (H : Holding source) (i : Nat) (arrived : List Bytes)
    (p : Pool σ τ) : Prop where
  running : ∀ {s batch}, p.consumers[i]? = some (.running s batch) →
    Trace.records i p.trace ++ batch ++ H.held s = arrived ∧ ∀ how, .ended i how ∉ p.trace
  ended : ∀ {how}, .ended i how ∈ p.trace → Trace.records i p.trace <+: arrived ∧
    ((∀ message, how ≠ .crashed message) → Trace.records i p.trace = arrived)

variable {source : Source σ α} {tracker : Tracker τ}

/-- A move that is none of the source's keeps its account. -/
theorem Accounted.keep {H : Holding source} {i : Nat} {arrived : List Bytes} {p p' : Pool σ τ}
    (h : Accounted H i arrived p) {events : List Event} (htrace : p'.trace = p.trace ++ events)
    (hf : Trace.Foreign i events)
    (hc : ∀ {s batch}, p'.consumers[i]? = some (.running s batch) →
      p.consumers[i]? = some (.running s batch)) : Accounted H i arrived p' := by
  have hrecords : Trace.records i p'.trace = Trace.records i p.trace := by
    rw [htrace, Trace.records_append, hf.records, List.append_nil]
  have hended : ∀ how, .ended i how ∈ p'.trace → .ended i how ∈ p.trace := by
    intro how hm
    rw [htrace] at hm
    exact (List.mem_append.mp hm).resolve_right (hf.ended how)
  refine ⟨fun hrun => ?_, fun hm => ?_⟩
  · rw [hrecords]
    obtain ⟨hsum, hnone⟩ := h.running (hc hrun)
    exact ⟨hsum, fun how hm => hnone how (hended how hm)⟩
  · rw [hrecords]
    exact h.ended (hended _ hm)

theorem brought_eq_nil (H : Holding source) {i : Nat} (p : Pool σ τ) {m : Move α}
    (hm : ∀ a, m ≠ .arrive i a) : p.brought H i m = [] := by
  cases m with
  | arrive k a =>
    have hk : k ≠ i := fun hk => hm a (by rw [hk])
    simp only [brought, hk, if_false]
    split <;> rfl
  | _ => rfl

/-- A consumer that goes on after a step: its new records come off what it had. -/
theorem Accounted.goOn {H : Holding source} {i : Nat} {arrived : List Bytes} {p : Pool σ τ}
    (h : Accounted H i arrived p) {s next : σ} {batch rest : List Bytes} {t : τ}
    {events : List Event} (hc : p.consumers[i]? = some (.running s batch))
    (hsum : batch ++ H.held s = Trace.records i events ++ (rest ++ H.held next))
    (hnone : ∀ how, .ended i how ∉ events) :
    Accounted H i arrived ({ p with tracker := t }.update i (.running next rest) events) := by
  obtain ⟨hrun, hended⟩ := h.running hc
  have hnone' : ∀ how, .ended i how ∉ p.trace ++ events := fun how hm =>
    (List.mem_append.mp hm).elim (hended how) (hnone how)
  refine ⟨fun hrun' => ?_, fun hm => absurd hm (hnone' _)⟩
  rw [update_consumers, getElem?_changed hc] at hrun'
  cases hrun'
  refine ⟨?_, hnone'⟩
  rw [update_trace, Trace.records_append, ← hrun]
  simp only [List.append_assoc, hsum]

/-- A consumer that ends: it has handed over what it had, or the start of it in a crash. -/
theorem Accounted.stop {H : Holding source} {i : Nat} {arrived : List Bytes} {p : Pool σ τ}
    (h : Accounted H i arrived p) {s : σ} {batch : List Bytes} {t : τ} {how : Ending}
    {events : List Event} (left : List Bytes) (hc : p.consumers[i]? = some (.running s batch))
    (hsum : batch ++ H.held s = Trace.records i events ++ left)
    (hleft : (∀ message, how ≠ .crashed message) → left = [])
    (honly : ∀ how', .ended i how' ∈ events → how' = how) :
    Accounted H i arrived ({ p with tracker := t }.update i (.ended how) events) := by
  obtain ⟨hrun, hended⟩ := h.running hc
  have harrived : Trace.records i (p.trace ++ events) ++ left = arrived := by
    rw [Trace.records_append, ← hrun, List.append_assoc, List.append_assoc, ← hsum]
  refine ⟨fun hrun' => ?_, fun {how'} hm => ?_⟩
  · rw [update_consumers, getElem?_changed hc] at hrun'
    cases hrun'
  · have hhow : how' = how := (List.mem_append.mp hm).elim (fun hm => absurd hm (hended _)) (honly _)
    refine ⟨⟨left, harrived⟩, fun hcrash => ?_⟩
    rw [hleft (hhow ▸ hcrash), List.append_nil] at harrived
    exact harrived

theorem Accounted.turn (F : Fifo source) {i : Nat} {arrived : List Bytes} {p : Pool σ τ}
    (h : Accounted F.toHolding i arrived p) {s : σ} {batch : List Bytes} {t : τ} {c : Consumer σ}
    {events : List Event} (hc : p.consumers[i]? = some (.running s batch))
    (ht : Turn source tracker p.phase.told i p.tracker s batch t c events) :
    Accounted F.toHolding i arrived ({ p with tracker := t }.update i c events) := by
  cases ht with
  | handed htake _ =>
    refine h.goOn hc ?_ (ended_not_mem_taken i _ _ _ i)
    rw [records_taken]
    exact htake.held F
  | @crashed _ _ _ next rest _ htake _ =>
    refine h.stop (rest ++ F.held next) hc ?_ (fun hno => absurd rfl (hno _)) fun how' hm => ?_
    · rw [Trace.records_append, records_taken, records_ending, List.append_nil]
      exact htake.held F
    · have := (List.mem_append.mp hm).resolve_left (ended_not_mem_taken i _ _ _ i _)
      exact ((ended_mem_ending i).mp this).2
  | rested _ hrest =>
    refine h.goOn hc ?_ (by simp)
    rw [records_lines, hrest.held F]
    rfl
  | failed _ hread =>
    refine h.stop [] hc ?_ (fun _ => rfl) fun how' hm => ((ended_mem_ending i).mp hm).2
    rw [F.held_failed hread, records_ending]
  | stopped _ hnext =>
    refine h.stop [] hc ?_ (fun _ => rfl) fun how' hm => ((ended_mem_ending i).mp hm).2
    rw [F.held_none hnext, records_ending]

/-- Every move keeps the account of a queue, with what it brings. -/
theorem Moved.accounted (F : Fifo source) {i : Nat} {arrived : List Bytes} {p p' : Pool σ τ}
    {m : Move α} (hm : Moved source tracker p m p') (h : Accounted F.toHolding i arrived p) :
    Accounted F.toHolding i (arrived ++ p.brought F.toHolding i m) p' := by
  by_cases hwork : m = .work i
  · subst hwork
    rw [show p.brought F.toHolding i (.work i) = [] from rfl, List.append_nil]
    cases hm with
    | idle _ => exact h
    | worked hc ht => exact h.turn F hc ht
  · obtain ⟨events, htrace, hforeign⟩ := hm.foreign hwork
    by_cases harrive : ∃ a, m = .arrive i a
    · obtain ⟨a, rfl⟩ := harrive
      cases hm with
      | idle hidle =>
        have hnone : p.brought F.toHolding i (.arrive i a) = [] := by
          simp only [brought]
          split
          · next hc => exact absurd hc (hidle _ _ _ _ rfl)
          · rfl
        rw [hnone, List.append_nil]
        exact h
      | @arrived _ _ s batch hc =>
        have hb : p.brought F.toHolding i (.arrive i a) = F.brings s a := by
          simp only [brought, hc, if_true]
        obtain ⟨hrun, hended⟩ := h.running hc
        rw [hb]
        refine ⟨fun hrun' => ?_, fun hmem => absurd (by simpa using hmem) (hended _)⟩
        rw [update_consumers, getElem?_changed hc] at hrun'
        cases hrun'
        rw [update_trace, List.append_nil, F.held_arrive, ← List.append_assoc, hrun]
        exact ⟨rfl, hended⟩
    · have hne : ∀ a, m ≠ .arrive i a := fun a ha => harrive ⟨a, ha⟩
      rw [brought_eq_nil F.toHolding p hne, List.append_nil]
      exact h.keep htrace hforeign (hm.running hwork hne)

theorem run_accounted (F : Fifo source) {i : Nat} {arrived : List Bytes} {p : Pool σ τ}
    (h : Accounted F.toHolding i arrived p) (moves : List (Move α)) :
    Accounted F.toHolding i (arrived ++ arrivals F.toHolding tracker i p moves)
      (p.run source tracker moves) := by
  induction moves generalizing p arrived with
  | nil =>
    rw [arrivals, List.append_nil]
    exact h
  | cons m rest ih =>
    rw [arrivals, ← List.append_assoc]
    exact ih ((step_moved p m).accounted F h)

/-- The account of a source at the start: everything that it holds has arrived. -/
theorem start_accounted (H : Holding source) (channel : String) {sources : List σ} (t : τ)
    {i : Nat} {s : σ} (hi : sources[i]? = some s) :
    Accounted H i (H.held s) (start channel sources t []) := by
  refine ⟨fun hc => ?_, fun hm => absurd hm List.not_mem_nil⟩
  simp only [start, List.getElem?_map, hi, Option.map_some] at hc
  cases hc
  exact ⟨rfl, fun _ => List.not_mem_nil⟩

/-! ### The calls -/

end Pool

/-- The resolution in a record, if the buffer holds one. -/
def resolved? (record : Bytes) : Option Resolution :=
  (Record.decode record).toOption.map Record.resolution

theorem resolved?_isSome (record : Bytes) :
    (resolved? record).isSome = true ↔ recordSize ≤ record.length := by
  unfold resolved? Record.decode
  split
  · next h =>
    simp only [Except.toOption, Option.map_none, Option.isSome_none, Bool.false_eq_true, false_iff]
    omega
  · next h =>
    simp only [Except.toOption, Option.map_some, Option.isSome_some, true_iff]
    omega

theorem handle_resolution (tracker : Tracker τ) (t : τ) (record : Bytes) :
    (handle tracker t record).resolution = resolved? record := by
  unfold handle resolved?
  cases Record.decode record <;> rfl

theorem Turn.calls {source : Source σ α} {tracker : Tracker τ} {told : Bool} {i : Nat} {t t' : τ}
    {s : σ} {batch : List Bytes} {c : Consumer σ} {events : List Event}
    (h : Turn source tracker told i t s batch t' c events) :
    Trace.calls i events = (Trace.records i events).filterMap resolved? := by
  have htaken : ∀ record lines, Trace.calls i (takenEvents i record lines (handle tracker t record)) =
      (Trace.records i (takenEvents i record lines (handle tracker t record))).filterMap resolved? := by
    intro record lines
    rw [calls_taken, records_taken, handle_resolution]
    cases hr : resolved? record <;> simp [hr]
  cases h with
  | handed _ _ => exact htaken _ _
  | crashed _ _ =>
    rw [Trace.calls_append, Trace.records_append, calls_ending, records_ending, List.append_nil,
      List.append_nil]
    exact htaken _ _
  | rested _ _ => rw [calls_lines, records_lines, List.filterMap_nil]
  | failed _ _ => rfl
  | stopped _ _ => rfl

/-- One buffer is one call of the tracker, or none. -/
theorem handle_state (tracker : Tracker τ) (t : τ) (record : Bytes) :
    (handle tracker t record).state =
      (resolved? record).toList.foldl (fun t r => (tracker.accept t r).state) t := by
  unfold handle resolved?
  cases Record.decode record <;> rfl

/-- A consumer's step leaves the tracker as the calls that it made leave it. -/
theorem Turn.tracked {source : Source σ α} {tracker : Tracker τ} {told : Bool} {i : Nat} {t t' : τ}
    {s : σ} {batch : List Bytes} {c : Consumer σ} {events : List Event}
    (h : Turn source tracker told i t s batch t' c events) :
    t' = (Trace.allCalls events).foldl (fun t r => (tracker.accept t r).state) t := by
  have hending : ∀ how, Trace.allCalls (endingEvents i how) = [] := fun _ => rfl
  cases h with
  | handed _ _ => rw [allCalls_taken, handle_resolution, handle_state]
  | crashed _ _ =>
    rw [Trace.allCalls_append, hending, List.append_nil, allCalls_taken, handle_resolution,
      handle_state]
  | rested _ _ => rw [allCalls_lines, List.foldl_nil]
  | failed _ _ => rfl
  | stopped _ _ => rfl

namespace Pool

/-- The calls that source `i` causes are the resolutions of its records. -/
def Called (i : Nat) (p : Pool σ τ) : Prop :=
  Trace.calls i p.trace = (Trace.records i p.trace).filterMap resolved?

theorem Moved.called {source : Source σ α} {tracker : Tracker τ} {i : Nat} {p p' : Pool σ τ}
    {m : Move α} (hm : Moved source tracker p m p') (h : Called i p) : Called i p' := by
  by_cases hwork : m = .work i
  · subst hwork
    cases hm with
    | idle _ => exact h
    | worked _ ht =>
      unfold Called at h ⊢
      rw [update_trace, Trace.calls_append, Trace.records_append, List.filterMap_append, ht.calls, h]
  · obtain ⟨events, htrace, hforeign⟩ := hm.foreign hwork
    unfold Called at h ⊢
    rw [htrace, Trace.calls_append, Trace.records_append, hforeign.calls, hforeign.records,
      List.append_nil, List.append_nil, h]

/-- The tracker is what all the calls on the trace have made of `t`. -/
def Tracked (tracker : Tracker τ) (t : τ) (p : Pool σ τ) : Prop :=
  p.tracker = (Trace.allCalls p.trace).foldl (fun t r => (tracker.accept t r).state) t

theorem Moved.tracked {source : Source σ α} {tracker : Tracker τ} {t : τ} {p p' : Pool σ τ}
    {m : Move α} (hm : Moved source tracker p m p') (h : Tracked tracker t p) :
    Tracked tracker t p' := by
  unfold Tracked at h ⊢
  by_cases hwork : ∃ i, m = .work i
  · obtain ⟨i, rfl⟩ := hwork
    cases hm with
    | idle _ => exact h
    | worked _ ht =>
      rw [update_trace, Trace.allCalls_append, List.foldl_append, ← h]
      exact ht.tracked
  · have hnone : ∀ i, m ≠ .work i := fun i hi => hwork ⟨i, hi⟩
    obtain ⟨events, htrace, hunowned⟩ := hm.unowned hnone
    rw [htrace, Trace.allCalls_append, Trace.allCalls_of_unowned fun e he => (hunowned e he).1,
      List.append_nil, ← h]
    exact hm.keeps_tracker hnone

end Pool

end LookupTap.Pump
