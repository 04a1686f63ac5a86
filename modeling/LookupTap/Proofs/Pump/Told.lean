import LookupTap.Proofs.Pump.Delivery

/-! Consumers that have been told to stop.

They read no more: how their sources would read makes no difference to what follows
(`run_told`), and so what a drain sees of a source is a queue (`Holding.deaf`). A consumer that
is told and gets its turns without a break does what one call for all its records would do
(`told_serves`). -/
namespace LookupTap.Pump

variable {σ τ α : Type}

namespace Pool

/-! ### Nobody reads -/

theorem step_told {source : Source σ α} {tracker : Tracker τ} (read : σ → Pull σ)
    {p : Pool σ τ} (h : p.phase.told = true) (m : Move α) :
    p.step { source with read } tracker m = p.step source tracker m := by
  cases m with
  | work i =>
    simp only [step]
    split
    · next s batch _ =>
      cases batch with
      | nil => simp only [consume, h, if_true]
      | cons record rest => rfl
    · rfl
  | _ => rfl

/-- Once consumers are told to stop, nobody reads: any other reading gives the same run. -/
theorem run_told {source : Source σ α} {tracker : Tracker τ} (read : σ → Pull σ)
    {p : Pool σ τ} (h : p.phase.told = true) (moves : List (Move α)) :
    p.run { source with read } tracker moves = p.run source tracker moves := by
  induction moves generalizing p with
  | nil => rfl
  | cons m rest ih =>
    rw [run_cons, run_cons, step_told read h]
    exact ih ((step_moved p m).keeps_told h)

end Pool

/-- What becomes of the source of a consumer that has been told to stop: it stays as it is, an
arrival comes, or a drain takes a record. -/
theorem Pool.Moved.told_source {source : Source σ α} {tracker : Tracker τ} {p p' : Pool σ τ}
    {m : Move α} (hm : Moved source tracker p m p') (htold : p.phase.told = true) {i : Nat} {s : σ}
    {batch : List Bytes} (hc : p'.consumers[i]? = some (.running s batch)) :
    ∃ old rest, p.consumers[i]? = some (.running old rest) ∧
      (s = old ∨ (∃ a, s = source.arrive old a) ∨ ∃ record, source.next old = some (record, s)) := by
  by_cases hwork : m = .work i
  · subst hwork
    cases hm with
    | idle _ => exact ⟨s, batch, hc, .inl rfl⟩
    | @worked _ old rest _ _ _ hold ht =>
      refine ⟨old, rest, hold, ?_⟩
      rw [update_consumers, getElem?_changed hold] at hc
      rw [htold] at ht
      cases ht with
      | handed htake _ =>
        cases hc
        cases htake with
        | inHand => exact .inl rfl
        | drained _ hnext => exact .inr (.inr ⟨_, hnext⟩)
        | read hno _ => cases hno
      | crashed _ _ => cases hc
      | rested hno _ => cases hno
      | failed hno _ => cases hno
      | stopped _ _ => cases hc
  · by_cases harrive : ∃ a, m = .arrive i a
    · obtain ⟨a, rfl⟩ := harrive
      cases hm with
      | idle _ => exact ⟨s, batch, hc, .inl rfl⟩
      | @arrived _ _ old rest hold =>
        rw [update_consumers, getElem?_changed hold] at hc
        cases hc
        exact ⟨old, batch, hold, .inr (.inl ⟨a, rfl⟩)⟩
    · exact ⟨s, batch, hm.running hwork (fun a ha => harrive ⟨a, ha⟩) hc, .inl rfl⟩

/-- What a drain sees makes a queue, if nobody reads. -/
def Holding.deaf {source : Source σ α} (H : Holding source) :
    Fifo { source with read := .waiting } where
  held := H.held
  brings := H.brings
  held_arrive := H.held_arrive
  held_next := H.held_next
  held_none := H.held_none
  held_handed := nofun
  held_waiting h := by
    cases h
    rfl
  held_failed := nofun

namespace Pool

section Told
variable {source : Source σ α} {tracker : Tracker τ} (H : Holding source) {i : Nat}
  {p : Pool σ τ} (htold : p.phase.told = true)
include htold

theorem arrivals_told (moves : List (Move α)) :
    arrivals H.deaf.toHolding tracker i p moves = arrivals H tracker i p moves := by
  induction moves generalizing p with
  | nil => rfl
  | cons m rest ih =>
    have hstep : p.step { source with read := .waiting } tracker m = p.step source tracker m :=
      step_told .waiting htold m
    rw [arrivals, arrivals, hstep, ih ((step_moved p m).keeps_told htold)]
    cases m <;> rfl

/-- Once consumers are told to stop, every run keeps the account of what a drain sees. -/
theorem run_accounted_told {arrived : List Bytes} (h : Accounted H i arrived p)
    (moves : List (Move α)) :
    Accounted H i (arrived ++ arrivals H tracker i p moves) (p.run source tracker moves) := by
  have hdeaf : Accounted H.deaf.toHolding i arrived p := ⟨h.running, h.ended⟩
  have hrun : Accounted H.deaf.toHolding i
      (arrived ++ arrivals H.deaf.toHolding tracker i p moves) _ := run_accounted H.deaf hdeaf moves
  rw [run_told .waiting htold, arrivals_told H htold] at hrun
  exact ⟨hrun.running, hrun.ended⟩

/-- The account of a consumer from any moment at which it runs and has been told to stop. -/
theorem told_account {s : σ} {batch : List Bytes} (hc : p.consumers[i]? = some (.running s batch))
    (moves : List (Move α)) :
    Accounted H i (batch ++ H.held s ++ arrivals H tracker i p moves)
      (p.fresh.run source tracker moves) := by
  have hstart : Accounted H i (batch ++ H.held s) p.fresh := by
    refine ⟨fun hs => ?_, fun hm => absurd hm List.not_mem_nil⟩
    cases hc.symm.trans hs
    exact ⟨rfl, fun _ => List.not_mem_nil⟩
  have hrun : Accounted H i (batch ++ H.held s ++ arrivals H tracker i p.fresh moves)
      (p.fresh.run source tracker moves) :=
    run_accounted_told H (show p.fresh.phase.told = true from htold) hstart moves
  rwa [← arrivals_behind H tracker i p.trace p.fresh, ← fresh_behind] at hrun

/-- A source that a drain sees no arrival of, and that stays like that: nothing arrives for the
drain. -/
theorem arrivals_nil {blocked : σ → Prop}
    (harrive : ∀ s a, blocked s → blocked (source.arrive s a))
    (hdrain : ∀ {s record next}, source.next s = some (record, next) → blocked s → blocked next)
    (hbrings : ∀ {s}, blocked s → ∀ a, H.brings s a = [])
    (hblocked : ∀ s batch, p.consumers[i]? = some (.running s batch) → blocked s)
    (moves : List (Move α)) : arrivals H tracker i p moves = [] := by
  induction moves generalizing p with
  | nil => rfl
  | cons m rest ih =>
    have hm : Moved source tracker p m (p.step source tracker m) := step_moved p m
    have hbrought : p.brought H i m = [] := by
      cases m with
      | arrive k a =>
        simp only [brought]
        split
        · next s batch hc =>
          by_cases hk : k = i
          · rw [if_pos hk]
            exact hbrings (hblocked s batch (hk ▸ hc)) a
          · rw [if_neg hk]
        · rfl
      | _ => rfl
    rw [arrivals, hbrought, List.nil_append]
    refine ih (hm.keeps_told htold) fun s batch hc => ?_
    obtain ⟨old, rest, hold, rfl | ⟨a, rfl⟩ | ⟨record, hnext⟩⟩ := hm.told_source htold hc
    · exact hblocked _ _ hold
    · exact harrive _ _ (hblocked _ _ hold)
    · exact hdrain hnext (hblocked _ _ hold)

end Told

end Pool

/-! ### All records at once -/

/-- What a consumer takes once it is told to stop is the next of what a drain sees. -/
theorem Takes.told {source : Source σ α} (H : Holding source) {s next : σ}
    {batch rest : List Bytes} {record : Bytes} {lines : List Line}
    (h : Takes source true s batch record lines next rest) :
    lines = [] ∧ batch ++ H.held s = record :: (rest ++ H.held next) := by
  cases h with
  | inHand => exact ⟨rfl, rfl⟩
  | drained _ hnext => exact ⟨rfl, H.held_next hnext⟩
  | read hno _ => cases hno

/-- How a consumer ends that has been served. -/
def Served.ending (served : Served τ) : Ending :=
  match served.crash with
  | none => .stopped
  | some message => .crashed message

namespace Pool

/-- **A consumer that is told to stop serves what it has and what a drain sees**, as one call
would, if nobody moves in between; then it ends. -/
theorem told_serves {source : Source σ α} (tracker : Tracker τ) (H : Holding source)
    {p : Pool σ τ} (htold : p.phase.told = true) {i : Nat} {s : σ} {batch : List Bytes}
    (hc : p.consumers[i]? = some (.running s batch)) :
    let served := serve tracker i p.tracker (batch ++ H.held s)
    ∃ n, p.run source tracker (List.replicate n (.work i)) =
      { p with tracker := served.tracker }.update i (.ended served.ending)
        (served.events ++ endingEvents i served.ending) := by
  -- on the records that are left; each step takes the first of them
  generalize hleft : batch ++ H.held s = left
  induction left generalizing p s batch with
  | nil =>
    obtain ⟨t, c, events, hturn, hstep⟩ := step_work source tracker hc
    rw [htold] at hturn
    refine ⟨1, ?_⟩
    show p.step source tracker (.work i) = _
    rw [hstep]
    cases hturn with
    | handed htake _ => cases hleft.symm.trans (htake.told H).2
    | crashed htake _ => cases hleft.symm.trans (htake.told H).2
    | rested hno _ => cases hno
    | failed hno _ => cases hno
    | stopped _ _ => rfl
  | cons record rest ih =>
    obtain ⟨t, c, events, hturn, hstep⟩ := step_work source tracker hc
    rw [htold] at hturn
    cases hturn with
    | @handed _ _ lines next more htake hcrash =>
      obtain ⟨rfl, htaken⟩ := htake.told H
      cases hleft.symm.trans htaken
      obtain ⟨n, hrun⟩ := ih (p := p.step source tracker (.work i)) (by rw [hstep]; exact htold)
        (by rw [hstep]; exact getElem?_changed hc) rfl
      refine ⟨n + 1, ?_⟩
      rw [List.replicate_succ, run_cons, hrun, hstep]
      simp only [serve, hcrash, update, takenEvents, Served.ending, List.set_set, List.map_nil,
        List.nil_append, List.append_assoc]
    | @crashed _ _ lines next more message htake hcrash =>
      obtain ⟨rfl, htaken⟩ := htake.told H
      cases hleft.symm.trans htaken
      refine ⟨1, ?_⟩
      show p.step source tracker (.work i) = _
      rw [hstep]
      simp only [serve, hcrash, takenEvents, Served.ending, List.map_nil, List.nil_append]
    | rested hno _ => cases hno
    | failed hno _ => cases hno
    | stopped _ hnext =>
      rw [List.nil_append, H.held_none hnext] at hleft
      cases hleft

end Pool

end LookupTap.Pump
