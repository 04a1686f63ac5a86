import LookupTap.Kernel
import LookupTap.Pump.Source

/-! Ring buffers.

The reader takes items in order. Records that were given up are passed over, and one that
is still being written stops the reader: nothing behind it can be read. A read works when
something has arrived since the last read that did; it hands over everything readable,
perhaps nothing. Once the buffer cannot be waited for, a read fails and takes nothing; a drain
does not wait. -/
namespace LookupTap.Channel

structure Ring where
  items : List Kernel.Item := []
  woken : Bool := false
  broken : Option String := none
  deriving DecidableEq

namespace Ring

/-- The records that can be read now, and the items left. -/
def readable : List Kernel.Item → List Bytes × List Kernel.Item
  | [] => ([], [])
  | .busy :: rest => ([], .busy :: rest)
  | .data record :: rest => (record :: (readable rest).1, (readable rest).2)
  | _ :: rest => readable rest

/-- The first record that can be read, and the items behind it. -/
def next? : List Kernel.Item → Option (Bytes × List Kernel.Item)
  | [] => none
  | .busy :: _ => none
  | .data record :: rest => some (record, rest)
  | _ :: rest => next? rest

def arrive (r : Ring) : Kernel.Item → Ring
  | .failure reason => { r with broken := some reason }
  | item => { r with items := r.items ++ [item], woken := true }

/-- A read of the ring buffer of a map. -/
def read (map : String) (r : Ring) : Pump.Pull Ring :=
  match r.broken with
  | some reason => .failed (.channel map reason)
  | none =>
    if r.woken then
      .handed (readable r.items).1 [] { r with items := (readable r.items).2, woken := false }
    else .waiting r

def next (r : Ring) : Option (Bytes × Ring) :=
  (next? r.items).map fun (record, items) => (record, { r with items })

end Ring

end LookupTap.Channel
