import LookupTap.Bytes

/-! String tables: names by offset.

A table is a range of the file. The name at an offset is the bytes from there to the next
NUL, which has to be inside the range; where there is no table, or the range leaves the
file, there are no names. -/
namespace LookupTap.Elf

/-- The range of a string table in the file: its first byte and the one after its last. -/
structure Strings where
  first : Nat
  last : Nat
  deriving DecidableEq, Repr

/-- The bytes before the first NUL, if there is one. -/
def beforeNul? (bs : Bytes) : Option Bytes :=
  if (0 : UInt8) ∈ bs then some (bs.takeWhile (· ≠ 0)) else none

def Strings.name? (t : Strings) (data : Bytes) (off : Nat) : Option Bytes :=
  if t.first + off ≤ t.last ∧ t.last ≤ data.length then
    beforeNul? ((data.take t.last).drop (t.first + off))
  else none

/-- The name at an offset of a table that may be missing. -/
def nameIn? (t : Option Strings) (data : Bytes) (off : Nat) : Option Bytes :=
  match t with
  | some t => t.name? data off
  | none => none

end LookupTap.Elf
