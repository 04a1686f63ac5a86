import LookupTap.Pump.Pool

/-! Schedules in which everybody takes their turn.

The consumers go one after the other, each until it has to wait or has ended; then the
controller goes. The shutdown comes at once, before anybody else, or when the consumers
have come to rest, or never. -/
namespace LookupTap.Pump

/-- When the shutdown comes. -/
inductive Shutdown where
  | now
  | later
  | never
  deriving DecidableEq, Repr

namespace Pool

variable {σ τ α : Type} (source : Source σ α) (tracker : Tracker τ)

/-- The numbers of the consumers. -/
def numbers (p : Pool σ τ) : List Nat := List.range p.consumers.length

/-- As many steps as a consumer can take before it has to wait, or to end. -/
def turns (p : Pool σ τ) (i : Nat) : List (Move α) :=
  match p.consumers[i]? with
  | some (.running s batch) => List.replicate (batch.length + source.load s + 1) (.work i)
  | _ => []

/-- Each consumer in turn, until it waits or has ended. -/
def settle (p : Pool σ τ) : Pool σ τ :=
  p.run source tracker (p.numbers.flatMap (p.turns source))

/-- An arrival at every source, each of which takes what is for it. -/
def arriveAll (p : Pool σ τ) (arrivals : List α) : Pool σ τ :=
  p.run source tracker (arrivals.flatMap fun a => p.numbers.map fun i => .arrive i a)

/-- The first consumer that has ended. -/
def firstEnded? (p : Pool σ τ) : Option Nat :=
  p.consumers.findIdx? fun c =>
    match c with
    | .ended _ => true
    | _ => false

/-- The controller tells the consumers to stop, each does, and all are joined. -/
def stopMoves (p : Pool σ τ) : List (Move α) :=
  [.advance] ++ p.numbers.flatMap (p.turns source) ++ p.numbers.map .join ++ [.advance]

/-- The controller meets the shutdown, or else the first consumer that has ended. -/
def conclude (p : Pool σ τ) (shutdown : Shutdown) : Pool σ τ :=
  let last : List (Move α) :=
    match shutdown, p.firstEnded? with
    | .never, some i => [.join i]
    | .never, none => []
    | _, _ => [.shutdown]
  p.run source tracker (last ++ p.stopMoves source)

/-- A whole run in turn. -/
def inTurn (p : Pool σ τ) (shutdown : Shutdown) : Pool σ τ :=
  let p := p.run source tracker [.advance]
  let p := if shutdown = .now then p else p.settle source tracker
  p.conclude source tracker shutdown

/-- How often the tracker has been called. -/
def calls (p : Pool σ τ) : Nat :=
  (p.trace.filter fun e =>
    match e with
    | .called .. => true
    | _ => false).length

/-- Waves of arrivals, each as soon as the tracker has been called so many times and the
consumers have come to rest. -/
def settleWaves (p : Pool σ τ) : List (Nat × List α) → Pool σ τ
  | [] => p
  | (due, arrivals) :: rest =>
    if due ≤ p.calls then
      settleWaves ((p.arriveAll source tracker arrivals).settle source tracker) rest
    else p

/-- A whole run in turn, with waves of arrivals on the way. -/
def inTurnWithWaves (p : Pool σ τ) (shutdown : Shutdown) (waves : List (Nat × List α)) :
    Pool σ τ :=
  let p := p.run source tracker [.advance]
  let p :=
    if shutdown = .now then p
    else (p.settle source tracker).settleWaves source tracker waves
  p.conclude source tracker shutdown

end Pool

end LookupTap.Pump
