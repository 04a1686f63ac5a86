import LookupTap.Proofs.Pump.Ending
import LookupTap.Proofs.Pump.Told

/-! Queues that are read one record at a time.

`queue_delivery` says for them what is known of every schedule: nothing is lost, nothing is
handed over twice, and the tracker is called for what has been handed over. -/
namespace LookupTap.Pump

variable {σ τ α : Type}

/-- A queue whose reads bring one record each. -/
structure Queued (source : Source σ α) extends Fifo source where
  single : ∀ {s batch lines next}, source.read s = .handed batch lines next →
    ∃ record, batch = [record]

/-- The queue in memory is one. -/
def Queue.queued : Queued Queue.source where
  held q := q.waiting
  brings _ record := [record]
  held_arrive _ _ := rfl
  held_next {q record next} h := by
    simp only [Queue.source] at h
    split at h
    · next hq =>
      cases h
      exact hq
    · cases h
  held_none {q} h := by
    simp only [Queue.source] at h
    split at h
    · cases h
    · next hq => exact hq
  held_handed {q batch lines next} h := by
    simp only [Queue.source] at h
    split at h
    · next hq =>
      cases h
      exact hq
    · split at h <;> cases h
  held_waiting {q next} h := by
    simp only [Queue.source] at h
    split at h
    · cases h
    · split at h <;> cases h
      rfl
  held_failed {q fault} h := by
    simp only [Queue.source] at h
    split at h
    · cases h
    · next hq => exact hq
  single {q batch lines next} h := by
    simp only [Queue.source] at h
    split at h
    · cases h
      exact ⟨_, rfl⟩
    · split at h <;> cases h

namespace Pool

variable {source : Source σ α} {tracker : Tracker τ}

/-- Running consumers have nothing in hand between their steps. -/
def EmptyHanded (p : Pool σ τ) : Prop :=
  ∀ (i : Nat) (s : σ) (batch : List Bytes),
    p.consumers[i]? = some (.running s batch) → batch = []

theorem Moved.emptyHanded (Q : Queued source) {p p' : Pool σ τ} {m : Move α}
    (hm : Moved source tracker p m p') (h : EmptyHanded p) : EmptyHanded p' := by
  intro i s batch hc
  by_cases hwork : m = .work i
  · subst hwork
    cases hm with
    | idle _ => exact h i s batch hc
    | worked hold ht =>
      rw [update_consumers, getElem?_changed hold] at hc
      cases ht with
      | handed htake _ =>
        cases hc
        cases htake with
        | inHand => simpa using h i _ _ hold
        | drained _ _ => rfl
        | read _ hread =>
          obtain ⟨record, hone⟩ := Q.single hread
          exact (List.cons.inj hone).2
      | crashed _ _ => cases hc
      | rested _ _ =>
        cases hc
        rfl
      | failed _ _ => cases hc
      | stopped _ _ => cases hc
  · by_cases harrive : ∃ a, m = .arrive i a
    · obtain ⟨a, rfl⟩ := harrive
      cases hm with
      | idle _ => exact h i s batch hc
      | arrived hold =>
        rw [update_consumers, getElem?_changed hold] at hc
        cases hc
        exact h i _ _ hold
    · exact h i s batch (hm.running hwork (fun a ha => harrive ⟨a, ha⟩) hc)

/-- **Queues lose nothing, repeat nothing and keep their order**, under every schedule of
arrivals, consumers' steps, crashes and the stop. While the consumer of source `i` runs, what
it has handed over and what its source holds is what has arrived; when it has ended without a
crash, it has handed over all of that, and after a crash the start of it, the record that
crashed included. Nobody reads once the consumers are told to stop. The calls of the tracker
that source `i` causes are the resolutions of its records that are long enough, and the tracker
is what the calls of all sources have made of it, one after the other. -/
theorem queue_delivery (Q : Queued source) (tracker : Tracker τ) (channel : String)
    (sources : List σ) (t : τ) (moves : List (Move α)) (i : Nat) (s₀ : σ)
    (hi : sources[i]? = some s₀) :
    let begun := start channel sources t []
    let p := begun.run source tracker moves
    let arrived := Q.held s₀ ++ arrivals Q.toHolding tracker i begun moves
    (∀ s batch, p.consumers[i]? = some (.running s batch) →
      batch = [] ∧ Trace.records i p.trace ++ Q.held s = arrived) ∧
    (∀ how, .ended i how ∈ p.trace → Trace.records i p.trace <+: arrived ∧
      ((∀ message, how ≠ .crashed message) → Trace.records i p.trace = arrived)) ∧
    (p.consumers.all Consumer.isJoined = true → ∃ how, .ended i how ∈ p.trace) ∧
    (p.phase.told = true → ∀ (read : σ → Pull σ) (later : List (Move α)),
      p.run { source with read } tracker later = p.run source tracker later) ∧
    Trace.calls i p.trace = (Trace.records i p.trace).filterMap resolved? ∧
    p.tracker = (Trace.allCalls p.trace).foldl (fun t r => (tracker.accept t r).state) t ∧
    ∀ record, (resolved? record).isSome = true ↔ 272 ≤ record.length := by
  intro begun p arrived
  have haccount : Accounted Q.toHolding i arrived p :=
    run_accounted Q.toFifo (start_accounted Q.toHolding channel t hi) moves
  have hempty : EmptyHanded p := by
    refine run_keeps (fun _ _ _ hm h => hm.emptyHanded Q h) begun moves fun k s batch hc => ?_
    simp only [begun, start, List.getElem?_map] at hc
    cases hk : sources[k]? <;> simp_all
  have hcalled : Called i p := run_keeps (fun _ _ _ hm h => hm.called h) begun moves rfl
  have htracked : Tracked tracker t p := run_keeps (fun _ _ _ hm h => hm.tracked h) begun moves rfl
  have hrecorded : Recorded p := run_recorded (start_recorded channel sources t) moves
  refine ⟨fun s batch hc => ?_, fun how hm => haccount.ended hm, fun hall => ?_,
    fun htold read later => run_told read htold later, hcalled, htracked, resolved?_isSome⟩
  · obtain ⟨hsum, _⟩ := haccount.running hc
    have hbatch := hempty i s batch hc
    rw [hbatch, List.append_nil] at hsum
    exact ⟨hbatch, hsum⟩
  · have hlength : i < p.consumers.length := by
      rw [run_length, show begun.consumers.length = sources.length from List.length_map _]
      exact (List.getElem?_eq_some_iff.mp hi).1
    exact hrecorded.ended (by rw [gone_of_joined hall, decide_eq_true hlength])

/-- Two sources in turn. One has a record that is too short between two others, the other gets
its second record after the shutdown. -/
theorem queue_delivery_two :
    let record (number letter : UInt8) : Bytes :=
      Bytes.ofNat 4 2 ++ [10, 0, 0, number] ++ List.replicate 12 0 ++
        letter :: List.replicate 251 0
    let moves : List (Move Bytes) :=
      [.advance, .work 0, .arrive 0 [9], .work 1, .arrive 0 (record 3 99), .work 0, .shutdown,
        .arrive 1 (record 4 100), .advance, .work 1, .work 0, .work 1, .work 0, .join 1, .join 0,
        .advance]
    let p := (start "events" [{ waiting := [record 1 97] }, { waiting := [record 2 98] }] [] []).run
      Queue.source Tracker.recorder moves
    Trace.records 0 p.trace = [record 1 97, [9], record 3 99] ∧
      Trace.records 1 p.trace = [record 2 98, record 4 100] ∧
      Trace.calls 0 p.trace = [⟨.v4 ⟨10, 0, 0, 1⟩, "a"⟩, ⟨.v4 ⟨10, 0, 0, 3⟩, "c"⟩] ∧
      Trace.calls 1 p.trace = [⟨.v4 ⟨10, 0, 0, 2⟩, "b"⟩, ⟨.v4 ⟨10, 0, 0, 4⟩, "d"⟩] ∧
      p.tracker =
        [("10.0.0.1", "a"), ("10.0.0.2", "b"), ("10.0.0.4", "d"), ("10.0.0.3", "c")] := by
  intro record moves p
  have hone := queue_delivery Queue.queued Tracker.recorder "events"
    [{ waiting := [record 1 97] }, { waiting := [record 2 98] }] [] moves 0 _ rfl
  have hother := queue_delivery Queue.queued Tracker.recorder "events"
    [{ waiting := [record 1 97] }, { waiting := [record 2 98] }] [] moves 1 _ rfl
  have hstopped : .ended 0 .stopped ∈ p.trace := by decide +kernel
  have hstopped' : .ended 1 .stopped ∈ p.trace := by decide +kernel
  obtain ⟨-, hended, -, -, hcalls, htracker, -⟩ := hone
  obtain ⟨-, hended', -, -, hcalls', -, -⟩ := hother
  have hrecords : Trace.records 0 p.trace = [record 1 97, [9], record 3 99] :=
    ((hended .stopped hstopped).2 nofun).trans (by decide +kernel)
  have hrecords' : Trace.records 1 p.trace = [record 2 98, record 4 100] :=
    ((hended' .stopped hstopped').2 nofun).trans (by decide +kernel)
  refine ⟨hrecords, hrecords', ?_, ?_, ?_⟩
  · rw [hcalls, hrecords]
    decide +kernel
  · rw [hcalls', hrecords']
    decide +kernel
  · refine htracker.trans ?_
    decide +kernel

end Pool

end LookupTap.Pump
