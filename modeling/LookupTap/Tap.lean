import LookupTap.Artifact
import LookupTap.Lifecycle
import LookupTap.Settings

/-! The run of an artifact as the settings say.

The artifact is loaded, and then goes through its lifecycle: its probes on the library that
the settings lead to, its channel the one they name. -/
namespace LookupTap.Tap

/-- The loaded artifact, and the kernel it is in, as what a run needs. -/
def instrumentation : Lifecycle.Instrumentation (Artifact × Kernel) Channel where
  declared h := h.1.declared
  host := Artifact.host
  openChannel h name := h.1.openChannel h.2 name

/-- What a run has left: the lines up to the loaded artifact, what happened then, how it
ended if it has, and the kernel. -/
structure Ended where
  loading : List Line
  trace : List Pump.Event := []
  result : Option (Except Fault Unit)
  kernel : Kernel

variable {τ : Type}

/-- A run, the pool being driven by `drive`. -/
def run (s : Settings) (w : Library.Surroundings) (k : Kernel) (t : τ)
    (drive : Pump.Pool Channel τ → Pump.Pool Channel τ) : Ended :=
  let step := Artifact.load w.files.read k s.artifactPath
  match step.answer with
  | .error e => { loading := step.lines, result := some (.error e), kernel := step.state }
  | .ok artifact =>
    let begun := Lifecycle.begin instrumentation (.ofFiles w.files) (s.locate w) s.eventsChannel
      (artifact, step.state) (0, {})
    let ended := begun.finish s.eventsChannel t drive
    { loading := step.lines, trace := ended.trace, result := ended.result
      kernel := ended.state.2 }

/-- All lines of a run, whoever wrote them. -/
def Ended.lines (e : Ended) : List Line :=
  e.loading ++ e.trace.filterMap fun event =>
    match event with
    | .wrote _ line => some line
    | _ => none

end LookupTap.Tap
