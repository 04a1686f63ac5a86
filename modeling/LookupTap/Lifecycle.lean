import LookupTap.Pump.Pool

/-! One run, from the loaded artifact to its release.

The library is located, the probes are attached to it, the output channel is opened, and
the pool takes over; each of the first three can end the run, and then the artifact is
released and nothing later happens. `begin` is the part before the pool and `run` the whole,
for any schedule of the pool. -/
namespace LookupTap.Lifecycle

open Pump (Event)

/-- What a run needs of a loaded artifact: the probes it declares, a host for them, and its
output channels. -/
structure Instrumentation (η σ : Type) where
  declared : η → List Probe
  host : Probe.Host η
  openChannel : η → String → Step η (Except Fault (List σ))

/-- What has happened before the pool starts, if it does. -/
structure Begun (η σ : Type) where
  answer : Except Fault (List σ)
  state : η
  trace : List Event

def libraryLine (library : String) : Line :=
  ⟨.info, .program, s!"Runtime library: {library}"⟩

/-- The line about probes that were skipped, if any were. -/
def skippedLine? (skipped : List String) : Option Line :=
  if skipped.isEmpty then none
  else
    let names := ", ".intercalate skipped
    some ⟨.warn, .program, s!"{skipped.length} probe(s) skipped: {names}"⟩

section Run
variable {η σ ρ τ α : Type} (artifact : Instrumentation η σ) (resolver : Resolver ρ)

/-- The events of a pass over the probes. -/
def passEvents (library : String) (w : Probe.Walk η ρ) : List Event :=
  w.lines.map .controller ++ (w.attached.map fun a => .attached a.probe library a.offset) ++
    w.refused.toList.map fun a => .refused a.probe library a.offset

/-- Opens the channel after a pass that ended well. -/
def openAfter (channel : String) (skipped : List String) (h : η) (trace : List Event) :
    Begun η σ :=
  let step := artifact.openChannel h channel
  { answer := step.answer, state := step.state
    trace := trace ++ (skippedLine? skipped).toList.map .controller ++ [.askedFor channel] ++
      step.lines.map .controller }

/-- Attaches the probes to the library, then opens the channel. -/
def attachThenOpen (channel library : String) (h : η) (r : ρ) (trace : List Event) :
    Begun η σ :=
  let trace := trace ++ [.controller (libraryLine library)]
  let (result, w) := Probe.pass artifact.host resolver library h r (artifact.declared h)
  let trace := trace ++ passEvents library w
  match result with
  | .error e => { answer := .error e, state := w.host, trace }
  | .ok outcome => openAfter artifact channel outcome.skipped w.host trace

/-- Everything before the pool. -/
def begin (located : Logged (Except Fault String)) (channel : String) (h : η) (r : ρ) :
    Begun η σ :=
  let trace := Event.enter .loaded ++ Event.enter .attaching ++ located.lines.map .controller
  match located.answer with
  | .error e => { answer := .error e, state := h, trace }
  | .ok library => attachThenOpen artifact resolver channel library h r trace

/-- What a run has done, and how it ended if it is over. -/
structure Run (η : Type) where
  trace : List Event
  result : Option (Except Fault Unit)
  state : η

/-- Finishes what was begun, the pool being driven by `drive`. -/
def Begun.finish (b : Begun η σ) (channel : String) (t : τ)
    (drive : Pump.Pool σ τ → Pump.Pool σ τ) : Run η :=
  match b.answer with
  | .error e =>
    { trace := b.trace ++ [.artifactReleased], result := some (.error e), state := b.state }
  | .ok sources =>
    let p := drive (.start channel sources t b.trace)
    { trace := p.trace, result := p.result?, state := b.state }

/-- A whole run, the pool being driven by a schedule. -/
def run (source : Pump.Source σ α) (tracker : Tracker τ)
    (located : Logged (Except Fault String)) (channel : String) (h : η) (r : ρ) (t : τ)
    (moves : List (Pump.Move α)) : Run η :=
  (begin artifact resolver located channel h r).finish channel t fun p =>
    p.run source tracker moves

end Run

end LookupTap.Lifecycle
