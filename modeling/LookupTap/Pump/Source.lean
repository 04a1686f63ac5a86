import LookupTap.Fault
import LookupTap.Log

/-! Sources: where the pump gets records from.

A source is a policy over a state. Asked to read, it hands over records, or has to wait, or
fails; asked for the next record, it takes one out that it still holds, without waiting.
`arrive` is what the world does to it. `Queue` is the plain one, in memory. -/
namespace LookupTap.Pump

/-- What comes of reading: records to handle in order, after some lines; nothing yet; or
a fault. -/
inductive Pull (σ : Type) where
  | handed (batch : List Bytes) (lines : List Line) (next : σ)
  | waiting (next : σ)
  | failed (fault : Fault)

/-- `σ` is the state of a source and `α` what arrives at it. A source is drained by taking
its next record until there is none. `load` bounds the number of records it can hand over,
by reads or by a drain, until it waits, fails or has none, when nothing more arrives. -/
structure Source (σ α : Type) where
  arrive : σ → α → σ
  read : σ → Pull σ
  next : σ → Option (Bytes × σ)
  load : σ → Nat

/-! ### Queues -/

/-- Records in order of arrival. A broken queue fails once it is empty. -/
structure Queue where
  waiting : List Bytes := []
  broken : Option Fault := none
  deriving DecidableEq

/-- One record for each read, the oldest first; a drain takes the same ones. -/
def Queue.source : Source Queue Bytes where
  arrive q record := { q with waiting := q.waiting ++ [record] }
  read q :=
    match q.waiting with
    | record :: rest => .handed [record] [] { q with waiting := rest }
    | [] =>
      match q.broken with
      | some fault => .failed fault
      | none => .waiting q
  next q :=
    match q.waiting with
    | record :: rest => some (record, { q with waiting := rest })
    | [] => none
  load q := q.waiting.length + 1

end LookupTap.Pump
