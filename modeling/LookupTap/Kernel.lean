import LookupTap.Bytes
import LookupTap.Keyed
import LookupTap.Number.Digits
import LookupTap.OsError
import LookupTap.Probe
import LookupTap.Text.Blank
import LookupTap.Text.Utf8

/-! The kernel, as far as the program asks it for anything.

Calls either work or are refused; which ones are refused is a table of kinds of calls,
possibly of the `n`th call of a kind alone, so the kernel counts. What it hands out is the
list of processors, attachments, and records, which arrive in waves at the buffers that are
open. -/
namespace LookupTap

namespace Kernel

/-- The calls that can be refused. -/
inductive Call where
  | createMap
  | loadProgram
  | probeType
  | returnFormat
  | openEvent
  | createLink
  | mapMemory
  | openBuffer
  | enableBuffer
  | updateMap
  | handleTermination
  deriving DecidableEq, Repr

/-- Calls of one kind are refused: the `nth`, counting from one, or all of them. -/
structure Refusal where
  call : Call
  error : OsError
  nth : Option Nat := none
  deriving DecidableEq, Repr

/-- What can come to a buffer: a record, one that was given up, one that is still being
written, a count of records lost, and anything else. A failure does not stand in the buffer; it
is the reason why nobody can wait for it any more. -/
inductive Item where
  | data (bytes : Bytes)
  | discarded
  | busy
  | lost (count : Nat)
  | other
  | failure (reason : String)
  deriving DecidableEq, Repr

/-- An item on its way to the buffer of a map, on one processor, in one wave. -/
structure Arrival where
  map : String := "events"
  cpu : Nat := 0
  wave : Nat := 0
  item : Item
  deriving DecidableEq, Repr

/-- A program that runs when a function is entered or left, by library and file offset. -/
structure Attachment where
  kind : Probe.Kind
  library : String
  offset : Nat
  deriving DecidableEq, Repr

/-- The kernel keeps this much of a map's name. -/
def mapNameSize : Nat := 15

/-- What the kernel calls a map. -/
def mapName (name : String) : Bytes := (Utf8.encode name.toList).take mapNameSize

end Kernel

structure Kernel where
  refusals : List Kernel.Refusal := []
  made : List (Kernel.Call × Nat) := []
  processors : Except OsError String := .ok "0"
  watchable : Bool := true
  arrivals : List Kernel.Arrival := []
  attachments : List Kernel.Attachment := []

namespace Kernel

/-- Why the `n`th call of a kind is refused, if it is. -/
def refusal? (k : Kernel) (c : Call) (n : Nat) : Option OsError :=
  (k.refusals.find? fun r => r.call = c ∧ (r.nth = none ∨ r.nth = some n)).map Refusal.error

/-- Makes a call: the refusal, if there is one, and the kernel with the call counted. -/
def ask (k : Kernel) (c : Call) : Option OsError × Kernel :=
  let n := (Keyed.get? c k.made).getD 0 + 1
  (k.refusal? c n, { k with made := Keyed.put c n k.made })

/-- Makes calls in order, up to the first one refused. -/
def askAll (k : Kernel) : List Call → Option (Call × OsError) × Kernel
  | [] => (none, k)
  | c :: rest =>
    match k.ask c with
    | (some e, k) => (some (c, e), k)
    | (none, k) => askAll k rest

/-- The arrivals of one wave. -/
def wave (k : Kernel) (n : Nat) : List Arrival := k.arrivals.filter (·.wave = n)

/-! ### Processors -/

/-- A number, or two with a dash between them; any other item is its own reason. -/
def processorRange (item : String) : Except String (List Nat) :=
  let cs := item.toList
  let first := cs.takeWhile (· ≠ '-')
  match cs.drop first.length, Digits.word32? first with
  | [], some n => .ok [n]
  | _ :: last, some low =>
    match Digits.word32? last with
    | some high => .ok ((List.range (high + 1 - low)).map (low + ·))
    | none => .error item
  | _, none => .error item

/-- The processors of a list, or the first item of it that is none. -/
def processorList (text : String) : Except String (List Nat) :=
  let items := (String.ofList (Text.trim text.toList)).splitOn ","
  (items.mapM processorRange).map List.flatten

/-- The processors that are running, or why they are not known. -/
def running (k : Kernel) : Except String (List Nat) :=
  match k.processors with
  | .error e => .error e.message
  | .ok text => processorList text

end Kernel

end LookupTap
