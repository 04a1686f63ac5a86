import LookupTap.Command.Options
import LookupTap.Log.Filter
import LookupTap.Pump.Plan
import LookupTap.Tap
import LookupTap.Telemetry

/-! The program as a command.

It reads its options and settings, runs the artifact until a signal comes or something
fails, and writes its log and, at the end, a report of what failed with the causes behind
it. A command line that makes no sense ends it with 2, a failure with 1. -/
namespace LookupTap.Command

/-! ### Signals -/

/-- The signals that end a run. -/
inductive Signal where
  | interrupt
  | terminate
  deriving DecidableEq, Repr

def Signal.name : Signal → String
  | interrupt => "SIGINT"
  | terminate => "SIGTERM"

/-- The lines about a signal. -/
def Signal.lines (s : Signal) : List Line :=
  [⟨.info, .program, s!"Received {s.name}"⟩, ⟨.info, .program, "Exiting..."⟩]

/-- The line about a handler that could not be set up. Without it a run is ended by an
interrupt, and nothing is said about that. -/
def unhandledLine (e : OsError) : Line :=
  let message := e.message
  ⟨.error, .program, s!"Failed to install SIGTERM handler: {message}"⟩

/-- The lines of a run with those about signals in their places: `ready` is written when the
program has become active, `ending` before it stops. -/
def withSignals (ready ending : List Line) : List Line → List Line
  | [] => []
  | line :: rest =>
    if line = Pump.Pool.activeLine then line :: ready ++ withSignals ready ending rest
    else if line = Stage.stopping.line then ending ++ line :: withSignals ready ending rest
    else line :: withSignals ready ending rest

/-! ### Reports -/

/-- A cause on lines of its own, behind its number if it has one. -/
def causeLines (number : Option Nat) (text : String) : List String :=
  let lead :=
    match number with
    | none => "    "
    | some n =>
      let digits := toString n
      String.ofList (List.replicate (5 - digits.length) ' ') ++ digits ++ ": "
  let indent := String.ofList (List.replicate lead.length ' ')
  match text.splitOn "\n" with
  | [] => [lead]
  | first :: rest => (lead ++ first) :: rest.map (indent ++ ·)

/-- What failed, and why. Causes are numbered if there is more than one. -/
def report (failure : String) (causes : List String) : List String :=
  let lines :=
    match causes with
    | [cause] => causeLines none cause
    | _ => (causes.zipIdx.map fun (cause, i) => causeLines (some i) cause).flatten
  [s!"Error: {failure}"] ++ if causes.isEmpty then [] else ["", "Caused by:"] ++ lines

/-! ### The command -/

/-- What a command is given: its words, the variables, how settings are loaded, the world, and
the signal that comes when there is nothing left to do, if one comes. -/
structure Call where
  args : List String := []
  vars : Settings.Variables := []
  loader : Settings.Loader := {}
  world : Library.Surroundings
  kernel : Kernel := {}
  signal : Option Signal := none

/-- What a command leaves: its exit code if it has ended, warnings, the lines of its log that
are shown, its report, and the kernel. -/
structure Outcome where
  exit : Option Nat
  warnings : List String := []
  log : List Line := []
  report : List String := []
  kernel : Kernel

/-- All that is written, text by text. -/
def Outcome.written (o : Outcome) : List String := o.warnings ++ o.log.map Line.full ++ o.report

/-- The variable with the filter of the log. -/
def filterName : String := "RUST_LOG"

/-- The filter of the log: the variable's, or the usual one. -/
def filter (c : Call) (o : Options) : Log.Filter × List String :=
  let usual := if o.verbose then "debug" else "info"
  Log.Filter.read ((Keyed.get? filterName c.vars).getD usual)

/-- The settings, with the artifact of the command line if it names one. -/
def settings (c : Call) (o : Options) : Except Settings.Fault Settings :=
  (Settings.load c.world.files c.vars o.config c.loader).map fun s =>
    { s with artifactPath := o.artifact.getD s.artifactPath }

def settingsLine (s : Settings) : Line :=
  let shown := s.shown
  ⟨.info, .program, s!"Settings: {shown}"⟩

/-- Where metrics go. -/
def endpoint? (c : Call) : Option String :=
  Telemetry.endpoint?
    (Keyed.get? Telemetry.endpointName (Settings.environment c.world.files c.vars))

/-- The run, everybody taking their turn until the signal, if there is one. -/
def tap (c : Call) (s : Settings) : Tap.Ended :=
  let shutdown := if c.signal.isSome then Pump.Shutdown.later else .never
  Tap.run s c.world c.kernel () fun p => p.inTurn Channel.source Tracker.logger shutdown

/-- The lines of a run, with those about signals. -/
def tapLines (c : Call) (e : Tap.Ended) : List Line :=
  match (e.kernel.ask .handleTermination).1 with
  | some refusal => withSignals [unhandledLine refusal] [] e.lines
  | none =>
    match e.result, c.signal with
    | some (.ok ()), some signal => withSignals [] signal.lines e.lines
    | _, _ => e.lines

/-- The line about a failed run. -/
def failureLines : Option (Except Fault Unit) → List Line
  | some (.error e) => [⟨.error, .program, e.message⟩]
  | _ => []

/-- The report about a failed run. -/
def failureReport : Option (Except Fault Unit) → List String
  | some (.error e) => report "DNS lookup tap failed" (e.message :: e.causes)
  | _ => []

def exitCode : Except Fault Unit → Nat
  | .ok () => 0
  | .error _ => 1

/-- Runs with options that make sense. -/
def runWith (c : Call) (o : Options) : Outcome :=
  let (shown, warnings) := filter c o
  match settings c o with
  | .error e =>
    { exit := some 1, warnings, report := report "Failed to load configuration" [e.message]
      kernel := c.kernel }
  | .ok s =>
    let ended := tap c s
    let endpoint := endpoint? c
    let log := settingsLine s :: Telemetry.startLines endpoint ++ tapLines c ended ++
      Telemetry.stopLines endpoint ++ failureLines ended.result
    { exit := ended.result.map exitCode, warnings, log := log.filter shown.shows
      report := failureReport ended.result, kernel := ended.kernel }

def run (c : Call) : Outcome :=
  match Options.read c.args c.vars with
  | .error e =>
    let message := e.message
    { exit := some 2, report := [s!"error: {message}"], kernel := c.kernel }
  | .ok o => runWith c o

end LookupTap.Command
