import LookupTap.Proofs.Lifecycle.Order

/-! What a run reports of its consumers.

Each consumer ends once and is joined once (`Governed.done`), before the controller has left or
after. The one that it joins before is the run's result; of those that it joins after, each that
failed or crashed is one warning. So no failure goes unreported and none is reported twice
(`failures_reported`). -/
namespace LookupTap.Lifecycle

open Pump

variable {η σ ρ τ α : Type}

/-- The endings that are failures: of a read, or a crash of the tracker. -/
def failures (endings : List (Nat × Ending)) : List (Nat × Ending) :=
  endings.filter (·.2 ≠ .stopped)

/-- There is one line about each failure, and none about the others. -/
theorem length_lines (endings : List (Nat × Ending)) :
    (endings.filterMap (·.2.line?)).length = (failures endings).length := by
  induction endings with
  | nil => rfl
  | cons e rest ih =>
    obtain ⟨i, how⟩ := e
    cases how with
    | stopped => exact ih
    | failed fault => exact congrArg Nat.succ ih
    | crashed message => exact congrArg Nat.succ ih

theorem failures_append (first second : List (Nat × Ending)) :
    failures (first ++ second) = failures first ++ failures second :=
  List.filter_append ..

/-- How the reason why the controller left is the result. -/
theorem reason_result {channel : String} {first : List Event} {fault : Fault}
    (h : Reason channel first (some fault)) :
    .shutdown ∉ first ∧ ∃ i how, Trace.joins first = [(i, how)] ∧
      (how = .failed fault ∨ ∃ message, how = .crashed message ∧
        fault = .channel channel
          ("consumer task ended abnormally: task N panicked with message " ++
            Text.quoted false message)) := by
  obtain ⟨hshutdown, i, how, hjoins, hhow, hfault⟩ := h
  refine ⟨hshutdown, i, how, hjoins, ?_⟩
  cases how with
  | stopped => exact absurd rfl hhow
  | failed fault' => exact .inl (congrArg Ending.failed hfault.symm)
  | crashed message => exact .inr ⟨message, rfl, hfault⟩

section Report
variable (artifact : Instrumentation η σ) (resolver : Resolver ρ)
  (source : Source σ α) (tracker : Tracker τ) (located : Logged (Except Fault String))
  (channel : String) (h : η) (r : ρ) (t : τ) (moves : List (Move α))

/-- **No failed consumer goes unreported, and none is reported twice.** When a run whose channel
was opened is over, every consumer has ended once and been joined once. The result is a success
if the shutdown came; otherwise it is what became of the one consumer that was joined before the
controller left. Each of the others that failed or crashed is one warning, while the pool is
stopped, and nobody else is. -/
theorem failures_reported (sources : List σ)
    (hopened : (begin artifact resolver located channel h r).answer = .ok sources)
    (result : Except Fault Unit)
    (hresult : (run artifact resolver source tracker located channel h r t moves).result =
      some result) :
    ∃ first last,
      (run artifact resolver source tracker located channel h r t moves).trace =
        (begin artifact resolver located channel h r).trace ++
          (first ++ .entered .stopping :: last) ∧
      ((Trace.endings (first ++ last)).map Prod.fst).Perm (List.range sources.length) ∧
      (Trace.joins (first ++ last)).Perm (Trace.endings (first ++ last)) ∧
      (match result with
      | .ok () => .shutdown ∈ first ∧ Trace.joins first = []
      | .error fault => .shutdown ∉ first ∧ ∃ i how, Trace.joins first = [(i, how)] ∧
          (how = .failed fault ∨ ∃ message, how = .crashed message ∧
            fault = .channel channel
              ("consumer task ended abnormally: task N panicked with message " ++
                Text.quoted false message))) ∧
      .shutdown ∉ last ∧
      Trace.warnings first = [] ∧
      (Trace.warnings last = (Trace.joins last).filterMap fun (_, how) =>
        match how with
        | .stopped => none
        | .failed fault => some ⟨.warn, .pump, "Event consumer failed: " ++ fault.message⟩
        | .crashed message =>
          some ⟨.warn, .pump,
            "Event consumer task ended abnormally: task N panicked with message " ++
              Text.quoted false message⟩) ∧
      (Trace.warnings last).length + (if result.isOk then 0 else 1) =
        (failures (Trace.endings (first ++ last))).length := by
  obtain ⟨htrace, hsame, _⟩ := run_opened source tracker t moves hopened
  rw [hsame] at hresult
  obtain ⟨failure, hp⟩ := Pool.result?_isSome.mp (Option.isSome_of_eq_some hresult)
  obtain ⟨first, last, hevents, hendings, hjoins, hreason, hshutdown, hnone, hwarnings⟩ :=
    (Pool.run_governed source tracker channel sources t moves).reported hp
  rw [Pool.run_length, show (Pool.start channel sources t []).consumers.length = sources.length from
    List.length_map _] at hendings
  rw [Pool.run_channel, show (Pool.start channel sources t []).channel = channel from rfl] at hreason
  have hcount : (failures (Trace.endings (first ++ last))).length =
      (failures (Trace.joins first)).length + (Trace.warnings last).length := by
    rw [hwarnings, length_lines, ← List.length_append, ← failures_append, ← Trace.joins_append]
    exact (hjoins.filter _).length_eq.symm
  refine ⟨first, last, by rw [htrace, hevents], hendings, hjoins, ?_⟩
  simp only [Pool.result?, hp] at hresult
  cases failure with
  | none =>
    cases hresult
    refine ⟨⟨hreason.2, hreason.1⟩, hshutdown, hnone, hwarnings, ?_⟩
    rw [hcount, hreason.1, failures, List.filter_nil]
    exact (Nat.zero_add _).symm
  | some fault =>
    cases hresult
    refine ⟨reason_result hreason, hshutdown, hnone, hwarnings, ?_⟩
    obtain ⟨_, i, how, hfirst, hhow, _⟩ := hreason
    rw [hcount, hfirst, failures, List.filter_cons_of_pos (by simpa using hhow)]
    exact Nat.add_comm _ _

end Report

/-- Of four consumers two fail by a read, one by a crash of the tracker, and one is healthy. The
first to be joined is the result, and the other two failures are a warning each. -/
theorem failures_reported_four :
    let broken (name : String) : Queue := { broken := some (.channel name "all senders dropped") }
    let record : Bytes :=
      Bytes.ofNat 4 2 ++ [10, 0, 0, 1] ++ List.replicate 12 0 ++ 98 :: List.replicate 251 0
    let sources : List Queue := [broken "source 0", { waiting := [record] }, broken "source 2", {}]
    let moves : List (Move Bytes) := [.advance, .work 0, .work 1, .work 2, .join 2, .advance,
      .work 3, .join 3, .join 1, .join 0, .advance]
    let R := run (.willing sources) atStart Queue.source (Tracker.recorderUpTo (some "b"))
      { answer := .ok "libc.so.6" } "events" () () [] moves
    R.result = some (.error (.channel "source 2" "all senders dropped")) ∧
      ∃ before first last, R.trace = before ++ (first ++ .entered .stopping :: last) ∧
        Trace.joins first = [(2, .failed (.channel "source 2" "all senders dropped"))] ∧
        Trace.warnings first = [] ∧
        Trace.warnings last =
          [⟨.warn, .pump, "Event consumer task ended abnormally: task N panicked with message " ++
              "\"tracker gave up on b\""⟩,
            ⟨.warn, .pump,
              "Event consumer failed: Output channel 'source 0' failed: all senders dropped"⟩] ∧
        (failures (Trace.endings (first ++ last))).length = 3 := by
  intro broken record sources moves R
  have hphase : ((Pool.start "events" sources [] []).run Queue.source
      (Tracker.recorderUpTo (some "b")) moves).phase =
        .finished (some (.channel "source 2" "all senders dropped")) := by
    decide +kernel
  have hresult : R.result = some (.error (.channel "source 2" "all senders dropped")) := by
    rw [show R.result = _ from (run_opened Queue.source _ [] moves rfl).2.1, Pool.result?, hphase]
  obtain ⟨first, last, htrace, _, _, ⟨_, i, how, hfirst, _⟩, _, hnone, hwarnings, hcount⟩ :=
    failures_reported (.willing sources) atStart Queue.source (Tracker.recorderUpTo (some "b"))
      { answer := .ok "libc.so.6" } "events" () () [] moves sources rfl _ hresult
  -- the joins of the whole trace are the one before and those after
  have hjoins : Trace.joins R.trace = (i, how) :: Trace.joins last := by
    rw [show R.trace = _ from htrace, Trace.joins_append, Trace.joins_append, hfirst]
    rfl
  have hall : Trace.joins R.trace = [(2, .failed (.channel "source 2" "all senders dropped")),
      (3, .stopped), (1, .crashed "tracker gave up on b"),
      (0, .failed (.channel "source 0" "all senders dropped"))] := by
    decide +kernel
  obtain ⟨hone, hlast⟩ := List.cons.inj (hjoins.symm.trans hall)
  rw [hlast] at hwarnings
  refine ⟨hresult, _, first, last, htrace, hfirst.trans (congrArg ([·]) hone), hnone, ?_, ?_⟩
  · exact hwarnings.trans (by decide +kernel)
  · exact hcount.symm.trans (by rw [hwarnings]; rfl)

end LookupTap.Lifecycle
