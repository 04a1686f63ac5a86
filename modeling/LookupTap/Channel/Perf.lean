import LookupTap.Kernel
import LookupTap.Pump.Source

/-! The buffer of one processor.

A read takes items until it has as many records as there are slots, or the buffer is
empty. The records are put into the slots, which are used again by the next read, and the
slots that were filled are handed over. Losses are summed up and reported in one line.
Without a record or a loss the read waits, having taken what there was. Once the buffer cannot
be waited for, a read fails and takes nothing. -/
namespace LookupTap.Channel

/-- How many records one read takes at most. -/
def perfBatch : Nat := 64

structure Perf where
  cpu : Nat
  items : List Kernel.Item := []
  slots : List Bytes := List.replicate perfBatch []
  broken : Option String := none
  deriving DecidableEq

namespace Perf

/-- What one read takes from a buffer. -/
structure Taken where
  records : List Bytes := []
  lost : Nat := 0
  left : List Kernel.Item := []
  deriving DecidableEq

/-- Takes items until there are `room` records. -/
def take : (room : Nat) → List Kernel.Item → Taken
  | _, [] => {}
  | 0, items => { left := items }
  | room + 1, .data record :: rest =>
    let t := take room rest
    { t with records := record :: t.records }
  | room + 1, .lost count :: rest =>
    let t := take (room + 1) rest
    { t with lost := count + t.lost }
  | room + 1, _ :: rest => take (room + 1) rest

/-- Puts records into the first slots. -/
def fill (records slots : List Bytes) : List Bytes := records ++ slots.drop records.length

def lossLine (cpu lost : Nat) : Line :=
  ⟨.warn, .channel, s!"Lost {lost} lookup event(s) on cpu {cpu}"⟩

def arrive (p : Perf) : Kernel.Item → Perf
  | .failure reason => { p with broken := some reason }
  | item => { p with items := p.items ++ [item] }

/-- A read of a processor's buffer of a map. -/
def read (map : String) (p : Perf) : Pump.Pull Perf :=
  match p.broken with
  | some reason => .failed (.channel map s!"cpu {p.cpu}: {reason}")
  | none =>
    let t := take p.slots.length p.items
    let slots := fill t.records p.slots
    let next := { p with items := t.left, slots }
    if t.records.isEmpty ∧ t.lost = 0 then .waiting next
    else
      .handed (slots.take t.records.length) (if t.lost = 0 then [] else [lossLine p.cpu t.lost])
        next

end Perf

end LookupTap.Channel
