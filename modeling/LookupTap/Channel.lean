import LookupTap.Artifact.Object
import LookupTap.Channel.Perf
import LookupTap.Channel.Ring
import LookupTap.Step

/-! Output channels: the buffers that an artifact's programs write records to.

A ring buffer is one source; a buffer per processor is one source for each. Opening makes
the calls that each needs, in order, and the first one refused gives the reason. A buffer
finds the first wave of records in it when it is opened. -/
namespace LookupTap

namespace Channel

inductive Kind where
  | ring (r : Ring)
  | perf (p : Perf)
  deriving DecidableEq

end Channel

/-- An open buffer of a map. -/
structure Channel where
  map : String
  kind : Channel.Kind
  deriving DecidableEq

namespace Channel

/-- Whether an arrival is for this buffer. -/
def receives (c : Channel) (a : Kernel.Arrival) : Bool :=
  Kernel.mapName c.map = Kernel.mapName a.map &&
    match c.kind with
    | .ring _ => true
    | .perf p => p.cpu = a.cpu

def put (c : Channel) (item : Kernel.Item) : Channel :=
  match c.kind with
  | .ring r => { c with kind := .ring (r.arrive item) }
  | .perf p => { c with kind := .perf (p.arrive item) }

def arrive (c : Channel) (a : Kernel.Arrival) : Channel :=
  if c.receives a then c.put a.item else c

/-- A pull of one kind of buffer as a pull of the channel. -/
def lift {σ : Type} (c : Channel) (wrap : σ → Kind) : Pump.Pull σ → Pump.Pull Channel
  | .handed batch lines next => .handed batch lines { c with kind := wrap next }
  | .waiting next => .waiting { c with kind := wrap next }
  | .failed fault => .failed fault

def read (c : Channel) : Pump.Pull Channel :=
  match c.kind with
  | .ring r => c.lift .ring (r.read c.map)
  | .perf p => c.lift .perf (p.read c.map)

/-- The next record to drain. The buffer of a processor is never drained. -/
def next (c : Channel) : Option (Bytes × Channel) :=
  match c.kind with
  | .ring r => r.next.map fun (record, r) => (record, { c with kind := .ring r })
  | .perf _ => none

def load (c : Channel) : Nat :=
  match c.kind with
  | .ring r => r.items.length + 1
  | .perf p => p.items.length + 1

def source : Pump.Source Channel Kernel.Arrival where
  arrive := arrive
  read := read
  next := next
  load := load

/-! ### Opening -/

/-- The buffer with the items that are there from the start. -/
def primed (k : Kernel) (c : Channel) : Channel := (k.wave 0).foldl arrive c

/-- The reason for a refused call on the way to a processor's buffer. -/
def perfReason (call : Kernel.Call) (e : OsError) : String :=
  match call with
  | .openBuffer => s!"perf_event_open failed: {e.message}"
  | .mapMemory => s!"mmap failed: {e.message}"
  | .enableBuffer => s!"PERF_EVENT_IOC_ENABLE failed: {e.message}"
  | _ => e.message

/-- Opens the buffer of one processor. -/
def openPerf (k : Kernel) (map : String) (cpu : Nat) : Step Kernel (Except String Channel) :=
  match k.askAll [.openBuffer, .mapMemory, .enableBuffer, .updateMap] with
  | (some (call, e), k) => { answer := .error (perfReason call e), state := k }
  | (none, k) =>
    { answer :=
        if k.watchable then .ok (primed k ⟨map, .perf { cpu }⟩)
        else .error OsError.notPermitted.message
      state := k }

/-- Opens the buffers of processors, up to the first that cannot be opened. -/
def openPerfs (k : Kernel) (map : String) : List Nat →
    Step Kernel (Except String (List Channel))
  | [] => { answer := .ok [], state := k }
  | cpu :: rest =>
    let first := openPerf k map cpu
    match first.answer with
    | .error reason => { answer := .error s!"cpu {cpu}: {reason}", state := first.state }
    | .ok c =>
      let later := openPerfs first.state map rest
      { later with answer := later.answer.map (c :: ·) }

/-- Opens a ring buffer. -/
def openRing (k : Kernel) (map : String) : Step Kernel (Except String (List Channel)) :=
  match k.askAll [.mapMemory, .mapMemory] with
  | (some _, k) => { answer := .error "`mmap` failed", state := k }
  | (none, k) =>
    { answer :=
        if k.watchable then .ok [primed k ⟨map, .ring {}⟩]
        else .error OsError.notPermitted.message
      state := k }

/-- Opens a buffer for each processor that is running. There has to be one. -/
def openRunning (k : Kernel) (map : String) : Step Kernel (Except String (List Channel)) :=
  match k.running with
  | .error reason => { answer := .error reason, state := k }
  | .ok cpus =>
    let step := openPerfs k map cpus
    match step.answer with
    | .ok [] => { step with answer := .error "no online CPUs" }
    | _ => step

/-- The line about a map that has been opened. -/
def openedLine (map : String) (kind : Artifact.MapKind) (count : Nat) : Line :=
  match kind with
  | .ring => ⟨.debug, .channel, s!"Output channel {map} is a ring buffer"⟩
  | _ => ⟨.debug, .channel, s!"Output channel {map} is a perf event array on {count} CPU(s)"⟩

/-- Opens a map of a kind. -/
def openMap (k : Kernel) (map : String) (kind : Artifact.MapKind) :
    Step Kernel (Except String (List Channel)) :=
  let step :=
    match kind with
    | .ring => openRing k map
    | .perf => openRunning k map
    | .other => { answer := .error "not a ring buffer or perf event array", state := k }
  match step.answer with
  | .ok channels => { step with lines := [openedLine map kind channels.length] }
  | .error _ => step

end Channel

end LookupTap
