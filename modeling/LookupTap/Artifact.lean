import LookupTap.Artifact.Object
import LookupTap.Channel
import LookupTap.Probe.Catalog
import LookupTap.Probe.Pass
import LookupTap.Resolver

/-! The loaded artifact: maps to open, programs to attach, and the sections of its functions.

Loading reads the object and creates its maps; a map for log messages is opened at once. A
program is loaded when it is attached for the first time and stays loaded, even if a later
step is refused, so it cannot be attached again. Opening a map takes it out of the artifact,
whether that works or not. -/
namespace LookupTap

structure Artifact where
  maps : List (String × Artifact.MapKind) := []
  programs : List (String × Artifact.Program) := []
  loaded : List String := []
  homes : List (String × String) := []
  deriving DecidableEq

namespace Artifact

/-! ### Loading -/

/-- Creates maps in order, up to the first refused. -/
def createMaps (k : Kernel) : List (String × MapKind) → Option (String × OsError) × Kernel
  | [] => (none, k)
  | (name, _) :: rest =>
    match k.ask .createMap with
    | (some e, k) => (some (name, e), k)
    | (none, k) => createMaps k rest

/-- The map that log messages go to. -/
def logMap : String := "AYA_LOGS"

/-- Why log messages are not read. -/
inductive LogFault where
  | noMap
  | notPerf
  | processors
  | buffer

def LogFault.message : LogFault → String
  | noMap => s!"log event array {logMap} doesn't exist"
  | notPerf => "error opening log event array"
  | processors => "invalid /sys/devices/system/cpu/online format"
  | buffer => "error opening log buffer"

/-- Takes the map for log messages out of the artifact and opens it. -/
def openLog (a : Artifact) (k : Kernel) : Option LogFault × Artifact × Kernel :=
  match Keyed.get? logMap a.maps with
  | none => (some .noMap, a, k)
  | some kind =>
    let a := { a with maps := a.maps.filter (·.1 ≠ logMap) }
    match kind, k.running with
    | .perf, .error _ => (some .processors, a, k)
    | .perf, .ok cpus =>
      let step := Channel.openPerfs k logMap cpus
      (if step.answer.isOk then none else some .buffer, a, step.state)
    | _, _ => (some .notPerf, a, k)

def loadingLine (path : String) : Line :=
  ⟨.info, .artifact, s!"Loading instrumentation artifact {path}"⟩

def countLine (count : Nat) : Line :=
  ⟨.debug, .artifact, s!"Artifact declares {count} function(s)"⟩

def logLine (e : LogFault) : Line :=
  let message := e.message
  ⟨.warn, .artifact, s!"Failed to initialize eBPF logger: {message}"⟩

/-- The artifact that the bytes of an object hold, its maps created. -/
def ofBytes (k : Kernel) (data : Bytes) : Except LoadFault Artifact × Kernel :=
  match Object.read data with
  | .error e => (.error (.object e), k)
  | .ok o =>
    match createMaps k o.maps with
    | (some (name, e), k) => (.error (.mapRefused name e), k)
    | (none, k) =>
      let homes := (Probe.programSections data).toOption.getD []
      (.ok { maps := o.maps, programs := o.programs, homes }, k)

/-- Reads, creates and opens what the file at a path declares. -/
def load (read : Reading) (k : Kernel) (path : String) : Step Kernel (Except Fault Artifact) :=
  let first := loadingLine path
  match read path with
  | .error e =>
    { answer := .error (.artifactLoad path (.unreadable path e.message)), state := k
      lines := [first] }
  | .ok data =>
    match ofBytes k data with
    | (.error e, k) =>
      { answer := .error (.artifactLoad path e), state := k, lines := [first] }
    | (.ok a, k) =>
      let (fault, a, k) := a.openLog k
      { answer := .ok a, state := k
        lines := [first, countLine a.homes.length] ++ fault.toList.map logLine }

/-! ### Attaching -/

/-- The probes among the programs, with their kinds. -/
def probes (a : Artifact) : List (String × Probe.Kind) :=
  a.programs.filterMap fun (name, p) => p.kind.map fun kind => (name, kind)

def declared (a : Artifact) : List Probe := Probe.declared a.probes a.homes

/-- The calls that attach a program, with the steps that a refusal of them means. -/
def attachCalls (kind : Probe.Kind) : List (Kernel.Call × AttachStep) :=
  let format :=
    match kind with
    | .entry => []
    | .exit => [(Kernel.Call.returnFormat, AttachStep.returnFormat)]
  [(.probeType, .probeType)] ++ format ++ [(.openEvent, .perfEvent), (.createLink, .link)]

/-- Makes calls in order, up to the first refused. -/
def askSteps (k : Kernel) : List (Kernel.Call × AttachStep) → Option AttachFault × Kernel
  | [] => (none, k)
  | (call, step) :: rest =>
    match k.ask call with
    | (some e, k) => (some (.refused step e), k)
    | (none, k) => askSteps k rest

/-- Loads a program that is not loaded yet. -/
def loadProgram (a : Artifact) (k : Kernel) (name : String) :
    Option AttachFault × Artifact × Kernel :=
  if a.loaded.contains name then (some .alreadyLoaded, a, k)
  else
    match k.ask .loadProgram with
    | (some e, k) => (some (.refused .load e), a, k)
    | (none, k) => (none, { a with loaded := name :: a.loaded }, k)

def attachedLine (p : Probe) (library : String) (offset : Nat) : Line :=
  let place := smallHex offset
  ⟨.debug, .artifact, s!"Attached {p.rawName} ({p.program}) at {library}+{place}"⟩

/-- Attaches the program of a probe at an offset of a library, as the kind of probe that
the program is. -/
def attach (a : Artifact) (k : Kernel) (p : Probe) (library : String) (offset : Nat) :
    Step (Artifact × Kernel) (Except Fault Unit) :=
  match (Keyed.get? p.program a.programs).bind Program.kind with
  | none => { answer := .error (.programNotFound p.program), state := (a, k) }
  | some kind =>
    let rejected (cause : AttachFault) : Except Fault Unit :=
      .error (.attachRejected p.rawName library offset cause)
    match a.loadProgram k p.program with
    | (some cause, a, k) => { answer := rejected cause, state := (a, k) }
    | (none, a, k) =>
      match askSteps k (attachCalls kind) with
      | (some cause, k) => { answer := rejected cause, state := (a, k) }
      | (none, k) =>
        { answer := .ok ()
          state := (a, { k with attachments := k.attachments ++ [⟨kind, library, offset⟩] })
          lines := [attachedLine p library offset] }

/-- The artifact as a host of probes. -/
def host : Probe.Host (Artifact × Kernel) where
  attach s p library offset := attach s.1 s.2 p library offset

/-! ### Opening channels -/

/-- Takes a map out of the artifact and opens it. -/
def openChannel (a : Artifact) (k : Kernel) (name : String) :
    Step (Artifact × Kernel) (Except Fault (List Channel)) :=
  match Keyed.get? name a.maps with
  | none =>
    { answer := .error (.channel name "map not declared by the artifact"), state := (a, k) }
  | some kind =>
    let a := { a with maps := a.maps.filter (·.1 ≠ name) }
    let step := Channel.openMap k name kind
    { answer := step.answer.mapError (.channel name), state := (a, step.state)
      lines := step.lines }

end Artifact

end LookupTap
