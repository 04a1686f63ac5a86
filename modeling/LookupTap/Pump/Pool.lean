import LookupTap.Probe.Pass
import LookupTap.Pump.Handle
import LookupTap.Pump.Source
import LookupTap.Stage
import LookupTap.Text.Quoted

/-! The pool of consumers, and its controller, as one machine.

Each consumer owns a source. Until it is told to stop it reads again and again, handing
what it reads to the tracker, one record a step; when told, it finishes the batch in hand,
drains the source and ends. It also ends when a read fails or the tracker crashes, and it
releases its source whenever it ends. The controller leaves the polling stage when the
shutdown comes or when it joins a consumer that has ended; it then tells the consumers to
stop, joins all of them, and releases the artifact.

Nobody says who goes first: a schedule is a list of moves, each by the world, a consumer or
the controller, and a move that is not possible changes nothing. Everything that happens is
appended to one trace. -/
namespace LookupTap.Pump

/-! ### Consumers -/

/-- How a consumer ends: as it was told to, by a failed read, or by the tracker's crash. -/
inductive Ending where
  | stopped
  | failed (fault : Fault)
  | crashed (message : String)
  deriving DecidableEq, Repr

/-- A running consumer owns its source, and has in hand what it has read and not handed to
the tracker yet. -/
inductive Consumer (σ : Type) where
  | running (source : σ) (batch : List Bytes)
  | ended (how : Ending)
  | joined
  deriving DecidableEq, Repr

def Consumer.isJoined {σ : Type} : Consumer σ → Bool
  | joined => true
  | _ => false

/-- How a crash is reported. The task's number is not told. -/
def crashReport (message : String) : String :=
  let quoted := Text.quoted false message
  s!"task N panicked with message {quoted}"

/-- The fault that a consumer's ending is to a controller that did not ask for it. -/
def Ending.fault (channel : String) : Ending → Fault
  | stopped => .channel channel "consumer exited"
  | failed fault => fault
  | crashed message =>
    let report := crashReport message
    .channel channel s!"consumer task ended abnormally: {report}"

/-- The line about an ending to a controller that waits for it. -/
def Ending.line? : Ending → Option Line
  | stopped => none
  | failed fault =>
    let message := fault.message
    some ⟨.warn, .pump, s!"Event consumer failed: {message}"⟩
  | crashed message =>
    let report := crashReport message
    some ⟨.warn, .pump, s!"Event consumer task ended abnormally: {report}"⟩

/-! ### The trace -/

inductive Author where
  | controller
  | consumer (source : Nat)
  deriving DecidableEq, Repr

inductive Event where
  | wrote (author : Author) (line : Line)
  | entered (stage : Stage)
  | attached (probe : Probe) (library : String) (offset : Nat)
  | refused (probe : Probe) (library : String) (offset : Nat)
  | askedFor (channel : String)
  | handled (source : Nat) (buffer : Bytes)
  | called (source : Nat) (r : Resolution) (returned : Bool)
  | sourceReleased (source : Nat)
  | ended (source : Nat) (how : Ending)
  | joined (source : Nat) (how : Ending)
  | shutdown
  | artifactReleased
  deriving DecidableEq

namespace Event

def controller (line : Line) : Event := .wrote .controller line

/-- A stage is entered, and the log says so. -/
def enter (stage : Stage) : List Event := [.entered stage, controller stage.line]

end Event

/-! ### One buffer, and a whole batch -/

/-- What comes of handing a batch to the tracker. -/
structure Served (τ : Type) where
  tracker : τ
  events : List Event := []
  crash : Option String := none

/-- The events of one buffer. -/
def handledEvents {τ : Type} (source : Nat) (buffer : Bytes) (h : Handled τ) : List Event :=
  .handled source buffer :: h.lines.map (.wrote (.consumer source)) ++
    (h.resolution.map fun r => Event.called source r h.crash.isNone).toList

/-- Hands a batch to the tracker, in order, up to a crash. -/
def serve {τ : Type} (tracker : Tracker τ) (source : Nat) (t : τ) : List Bytes → Served τ
  | [] => { tracker := t }
  | buffer :: rest =>
    let h := handle tracker t buffer
    match h.crash with
    | some message =>
      { tracker := h.state, events := handledEvents source buffer h, crash := some message }
    | none =>
      let later := serve tracker source h.state rest
      { later with events := handledEvents source buffer h ++ later.events }

/-! ### The machine -/

/-- Where the controller is. It has seen the shutdown, or a failure, when it leaves; the
consumers know of it once it is stopping. -/
inductive Phase where
  | starting
  | polling
  | leaving (failure : Option Fault)
  | stopping (failure : Option Fault)
  | finished (failure : Option Fault)
  deriving DecidableEq, Repr

/-- Consumers have been told to stop. -/
def Phase.told : Phase → Bool
  | stopping _ => true
  | finished _ => true
  | _ => false

inductive Move (α : Type) where
  | arrive (source : Nat) (a : α)
  | work (source : Nat)
  | shutdown
  | join (source : Nat)
  | advance
  deriving DecidableEq, Repr

structure Pool (σ τ : Type) where
  channel : String
  consumers : List (Consumer σ)
  tracker : τ
  phase : Phase := .starting
  trace : List Event := []

namespace Pool

variable {σ τ α : Type}

/-- The pool with one consumer changed and more on the trace. -/
def update (p : Pool σ τ) (i : Nat) (c : Consumer σ) (events : List Event) : Pool σ τ :=
  { p with consumers := p.consumers.set i c, trace := p.trace ++ events }

/-- Consumer `i` releases its source and ends. -/
def ending (p : Pool σ τ) (i : Nat) (how : Ending) (events : List Event) : Pool σ τ :=
  p.update i (.ended how) (events ++ [.sourceReleased i, .ended i how])

/-- Consumer `i` hands a record to the tracker, after writing some lines; `after` is what it
is then, unless the tracker crashes. -/
def hand (tracker : Tracker τ) (p : Pool σ τ) (i : Nat) (record : Bytes) (lines : List Line)
    (after : Consumer σ) : Pool σ τ :=
  let handled := handle tracker p.tracker record
  let events := lines.map (.wrote (.consumer i)) ++ handledEvents i record handled
  let p := { p with tracker := handled.state }
  match handled.crash with
  | some message => p.ending i (.crashed message) events
  | none => p.update i after events

/-- One step of consumer `i`, which owns `s` and has `batch` in hand: the next record of the
batch, or else of the drain, or else a read and its first record. -/
def consume (source : Source σ α) (tracker : Tracker τ) (p : Pool σ τ) (i : Nat) (s : σ)
    (batch : List Bytes) : Pool σ τ :=
  match batch with
  | record :: rest => p.hand tracker i record [] (.running s rest)
  | [] =>
    if p.phase.told then
      match source.next s with
      | some (record, s) => p.hand tracker i record [] (.running s [])
      | none => p.ending i .stopped []
    else
      match source.read s with
      | .waiting s => p.update i (.running s []) []
      | .failed fault => p.ending i (.failed fault) []
      | .handed [] lines s => p.update i (.running s []) (lines.map (.wrote (.consumer i)))
      | .handed (record :: rest) lines s => p.hand tracker i record lines (.running s rest)

/-- The controller leaves the polling stage. -/
def leave (p : Pool σ τ) (failure : Option Fault) (events : List Event) : Pool σ τ :=
  { p with phase := .leaving failure, trace := p.trace ++ events ++ Event.enter .stopping }

def startedLine (count : Nat) : Line :=
  ⟨.debug, .pump, s!"Event pump started with {count} consumer(s)"⟩

def activeLine : Line := ⟨.info, .program, "Monitoring active. Press Ctrl-C to exit."⟩

def stoppedLine : Line := ⟨.debug, .pump, "Event pump stopped"⟩

/-- What the controller does before it polls. -/
def firstEvents (count : Nat) : List Event :=
  [.controller (startedLine count)] ++ Event.enter .polling ++ [.controller activeLine]

/-- What the controller does after all consumers are joined. -/
def lastEvents : List Event :=
  [.controller stoppedLine, .artifactReleased] ++ Event.enter .unloaded

def step (source : Source σ α) (tracker : Tracker τ) (p : Pool σ τ) : Move α → Pool σ τ
  | .arrive i a =>
    match p.consumers[i]? with
    | some (.running s batch) => p.update i (.running (source.arrive s a) batch) []
    | _ => p
  | .work i =>
    match p.consumers[i]? with
    | some (.running s batch) => p.consume source tracker i s batch
    | _ => p
  | .shutdown => if p.phase = .polling then p.leave none [.shutdown] else p
  | .join i =>
    match p.consumers[i]?, p.phase with
    | some (.ended how), .polling =>
      (p.update i .joined []).leave (some (how.fault p.channel)) [.joined i how]
    | some (.ended how), .stopping _ =>
      p.update i .joined (.joined i how :: how.line?.toList.map .controller)
    | _, _ => p
  | .advance =>
    match p.phase with
    | .starting =>
      { p with phase := .polling, trace := p.trace ++ firstEvents p.consumers.length }
    | .leaving failure => { p with phase := .stopping failure }
    | .stopping failure =>
      if p.consumers.all Consumer.isJoined then
        { p with phase := .finished failure, trace := p.trace ++ lastEvents }
      else p
    | _ => p

def run (source : Source σ α) (tracker : Tracker τ) (p : Pool σ τ) (moves : List (Move α)) :
    Pool σ τ :=
  moves.foldl (step source tracker) p

theorem run_append (source : Source σ α) (tracker : Tracker τ) (p : Pool σ τ)
    (first second : List (Move α)) :
    p.run source tracker (first ++ second) = (p.run source tracker first).run source tracker second :=
  List.foldl_append

/-- The pool of the sources of a channel, before anybody has moved. -/
def start (channel : String) (sources : List σ) (t : τ) (trace : List Event) : Pool σ τ where
  channel := channel
  consumers := sources.map (.running · [])
  tracker := t
  trace := trace

/-- How the run ended, once it is over. -/
def result? (p : Pool σ τ) : Option (Except Fault Unit) :=
  match p.phase with
  | .finished none => some (.ok ())
  | .finished (some fault) => some (.error fault)
  | _ => none

end Pool

end LookupTap.Pump
