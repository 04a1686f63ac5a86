import LookupTap.Proofs.Pump.Ending

/-! Progress: nobody waits for good.

A drain that takes from a bounded source comes to its end (`Bounded`), so a consumer that has
been told to stop ends when it gets its turns (`ends_in_turn`), and can then be joined
(`joins_next`). From every state of every run, the controller can therefore get to its result
(`can_finish`): there is no order of moves that leaves the pool stuck. -/
namespace LookupTap.Pump

variable {σ τ α : Type}

/-- Each record that a drain takes is one less that the source can hand over. -/
def Bounded (source : Source σ α) : Prop :=
  ∀ {s record next}, source.next s = some (record, next) → source.load next < source.load s

theorem Queue.bounded : Bounded Queue.source := by
  intro q record next h
  simp only [Queue.source] at h
  split at h
  · next hq =>
    cases h
    simp only [Queue.source, hq, List.length_cons]
    omega
  · cases h

namespace Pool

variable {source : Source σ α} (tracker : Tracker τ)

/-- A step of a consumer that has been told to stop is its ending, or brings it nearer. -/
theorem told_step (hbounded : Bounded source) {p : Pool σ τ} (htold : p.phase.told = true)
    {i : Nat} {s : σ} {batch : List Bytes} (hc : p.consumers[i]? = some (.running s batch)) :
    ∃ c, (p.step source tracker (.work i)).consumers = p.consumers.set i c ∧
      (p.step source tracker (.work i)).phase = p.phase ∧
      ((∃ how, c = .ended how) ∨ ∃ next rest, c = .running next rest ∧
        rest.length + source.load next < batch.length + source.load s) := by
  obtain ⟨t, c, events, hturn, hstep⟩ := step_work source tracker hc
  rw [hstep]
  refine ⟨c, rfl, rfl, ?_⟩
  rw [htold] at hturn
  cases hturn with
  | handed htake _ =>
    refine .inr ⟨_, _, rfl, ?_⟩
    cases htake with
    | inHand => exact Nat.add_lt_add_right (Nat.lt_succ_self _) _
    | drained _ hnext => exact Nat.add_lt_add_left (hbounded hnext) _
    | read hno _ => cases hno
  | crashed _ _ => exact .inl ⟨_, rfl⟩
  | rested hno _ => cases hno
  | failed hno _ => cases hno
  | stopped _ _ => exact .inl ⟨_, rfl⟩

/-- A consumer that has been told to stop ends, if only it gets its turns. -/
theorem told_ends (hbounded : Bounded source) {p : Pool σ τ} (htold : p.phase.told = true)
    {i : Nat} {s : σ} {batch : List Bytes} (hc : p.consumers[i]? = some (.running s batch)) :
    ∃ n how, (p.run source tracker (List.replicate n (.work i))).consumers =
        p.consumers.set i (.ended how) ∧
      (p.run source tracker (List.replicate n (.work i))).phase = p.phase := by
  -- on what is in hand and what the source can still hand over
  generalize hload : batch.length + source.load s = load
  induction load using Nat.strongRecOn generalizing p s batch with
  | ind load ih =>
    obtain ⟨c, hconsumers, hphase, ⟨how, rfl⟩ | ⟨next, rest, rfl, hless⟩⟩ :=
      told_step tracker hbounded htold hc
    · exact ⟨1, how, hconsumers, hphase⟩
    · have hc' : (p.step source tracker (.work i)).consumers[i]? = some (.running next rest) := by
        rw [hconsumers]
        exact getElem?_changed hc
      obtain ⟨n, how, hends, hends'⟩ := ih _ (hload ▸ hless) (hphase ▸ htold) hc' rfl
      refine ⟨n + 1, how, ?_, ?_⟩
      · rw [List.replicate_succ, run_cons, hends, hconsumers, List.set_set]
      · rw [List.replicate_succ, run_cons, hends', hphase]

theorem ends_in_turn (hbounded : Bounded source) {p : Pool σ τ} (htold : p.phase.told = true)
    {i : Nat} (hi : i < p.consumers.length)
    (hretired : ∀ moves, Retired i (p.run source tracker moves)) :
    ∃ n how, .ended i how ∈ (p.run source tracker (List.replicate n (.work i))).trace := by
  obtain ⟨c, hc⟩ : ∃ c, p.consumers[i]? = some c := ⟨_, List.getElem?_eq_getElem hi⟩
  cases hgone : c.gone with
  | true => exact ⟨0, (hretired []).ended ((gone_of hc).trans hgone)⟩
  | false =>
    cases c with
    | running s batch =>
      obtain ⟨n, how, hends, _⟩ := told_ends tracker hbounded htold hc
      refine ⟨n, (hretired _).ended ?_⟩
      rw [gone_of (by rw [hends]; exact getElem?_changed hc)]
      rfl
    | ended how => cases hgone
    | joined => cases hgone

/-- Any one consumer can be joined while the controller waits for all of them. -/
theorem joins_next (hbounded : Bounded source) {p : Pool σ τ} {failure : Option Fault}
    (hp : p.phase = .stopping failure) {i : Nat} (hi : i < p.consumers.length) :
    ∃ moves, (p.run source tracker moves).consumers = p.consumers.set i .joined ∧
      (p.run source tracker moves).phase = .stopping failure := by
  obtain ⟨c, hc⟩ : ∃ c, p.consumers[i]? = some c := ⟨_, List.getElem?_eq_getElem hi⟩
  have hjoin : ∀ {q : Pool σ τ} {how}, q.consumers[i]? = some (.ended how) →
      q.phase = .stopping failure → (q.step source tracker (.join i)).consumers =
        q.consumers.set i .joined ∧ (q.step source tracker (.join i)).phase = .stopping failure := by
    intro q how hq hphase
    simp only [step, hq, hphase]
    exact ⟨rfl, hphase⟩
  cases c with
  | running s batch =>
    have htold : p.phase.told = true := by rw [hp]; rfl
    obtain ⟨n, how, hends, hphase⟩ :=
      told_ends tracker hbounded htold hc
    refine ⟨List.replicate n (.work i) ++ [.join i], ?_⟩
    rw [run_append]
    have hc' : (p.run source tracker (List.replicate n (.work i))).consumers[i]? =
        some (.ended how) := by
      rw [hends]
      exact getElem?_changed hc
    obtain ⟨hconsumers, hstopping⟩ := hjoin hc' (hphase.trans hp)
    refine ⟨hconsumers.trans ?_, hstopping⟩
    rw [hends, List.set_set]
  | ended how => exact ⟨[.join i], hjoin hc hp⟩
  | joined =>
    refine ⟨[], ?_, hp⟩
    rw [← (List.getElem?_eq_some_iff.mp hc).2, List.set_getElem_self]
    rfl

/-- And so can all of them, one after the other. -/
theorem joins_all (hbounded : Bounded source) {p : Pool σ τ} {failure : Option Fault}
    (hp : p.phase = .stopping failure) :
    ∃ moves, (p.run source tracker moves).consumers.all Consumer.isJoined = true ∧
      (p.run source tracker moves).phase = .stopping failure := by
  have first : ∀ k ≤ p.consumers.length, ∃ moves : List (Move α),
      (∀ i < k, (p.run source tracker moves).consumers[i]? = some .joined) ∧
      (p.run source tracker moves).phase = .stopping failure := by
    intro k hk
    induction k with
    | zero => exact ⟨[], nofun, hp⟩
    | succ k ih =>
      obtain ⟨moves, hjoined, hphase⟩ := ih (Nat.le_of_succ_le hk)
      have hlength : k < (p.run source tracker moves).consumers.length := by
        rw [run_length]
        exact hk
      obtain ⟨more, hconsumers, hphase'⟩ :=
        joins_next tracker hbounded hphase hlength
      refine ⟨moves ++ more, fun i hi => ?_, by rw [run_append, hphase']⟩
      rw [run_append, hconsumers]
      by_cases hik : k = i
      · rw [← hik, List.getElem?_set_self hlength]
      · rw [List.getElem?_set_ne hik]
        exact hjoined i (by omega)
  obtain ⟨moves, hjoined, hphase⟩ := first _ (Nat.le_refl _)
  refine ⟨moves, List.all_eq_true.mpr fun c hc => ?_, hphase⟩
  obtain ⟨i, hi⟩ := List.mem_iff_getElem?.mp hc
  have hlength := (List.getElem?_eq_some_iff.mp hi).1
  rw [run_length] at hlength
  rw [hjoined i hlength] at hi
  cases hi
  rfl

/-- **From everywhere there is a way to the result.** -/
theorem can_finish (hbounded : Bounded source) (p : Pool σ τ) :
    ∃ more, (p.run source tracker more).result?.isSome = true := by
  have hstopping : ∀ {q : Pool σ τ} {failure}, q.phase = .stopping failure →
      ∃ more : List (Move α), (q.run source tracker more).result?.isSome = true := by
    intro q failure hq
    obtain ⟨moves, hall, hphase⟩ :=
      joins_all tracker hbounded hq
    refine ⟨moves ++ [.advance], ?_⟩
    rw [run_append]
    show ((q.run source tracker moves).step source tracker .advance).result?.isSome = true
    simp only [step, hphase, hall, if_true]
    cases failure <;> rfl
  have hleaving : ∀ {q : Pool σ τ} {failure}, q.phase = .leaving failure →
      ∃ more : List (Move α), (q.run source tracker more).result?.isSome = true := by
    intro q failure hq
    have hnext : (q.step source tracker .advance).phase = .stopping failure := by
      simp only [step, hq]
    obtain ⟨more, hmore⟩ := hstopping hnext
    exact ⟨.advance :: more, hmore⟩
  have hpolling : ∀ {q : Pool σ τ}, q.phase = .polling →
      ∃ more : List (Move α), (q.run source tracker more).result?.isSome = true := by
    intro q hq
    have hnext : (q.step source tracker .shutdown).phase = .leaving none := by
      simp only [step, hq, if_true]
      rfl
    obtain ⟨more, hmore⟩ := hleaving hnext
    exact ⟨.shutdown :: more, hmore⟩
  cases hp : p.phase with
  | starting =>
    have hnext : (p.step source tracker .advance).phase = .polling := by
      simp only [step, hp]
    obtain ⟨more, hmore⟩ := hpolling hnext
    exact ⟨.advance :: more, hmore⟩
  | polling => exact hpolling hp
  | leaving failure => exact hleaving hp
  | stopping failure => exact hstopping hp
  | finished failure =>
    refine ⟨[], ?_⟩
    show p.result?.isSome = true
    simp only [result?, hp]
    cases failure <;> rfl

end Pool

end LookupTap.Pump
