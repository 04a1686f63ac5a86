import LookupTap.Bytes

/-! How an ELF file lays out its structures.

The file exists in a wide form (64 bits) and a narrow one (32), each in two byte orders.
A `Field` says where a number stands in the wide and in the narrow form of a structure, so
that what is read from a file is written once. Tables of structures start at a multiple of
the word size and lie inside the file. -/
namespace LookupTap.Elf

structure Layout where
  wide : Bool
  order : ByteOrder
  deriving DecidableEq, Repr

/-- Offset and width of a number in each form of a structure. -/
structure Field where
  wide : Nat × Nat
  narrow : Nat × Nat

/-- A field that the two forms have at the same place. -/
def Field.same (off width : Nat) : Field := ⟨(off, width), (off, width)⟩

namespace Layout

/-- The size of a word, to a multiple of which tables are aligned. -/
def word (l : Layout) : Nat := if l.wide then 8 else 4

/-- One of two numbers, by the form of the file. -/
def pick (l : Layout) (wide narrow : Nat) : Nat := if l.wide then wide else narrow

def place (l : Layout) (f : Field) : Nat × Nat := if l.wide then f.wide else f.narrow

def read (l : Layout) (f : Field) (structured : Bytes) : Nat :=
  let (off, width) := l.place f
  l.order.read ((structured.drop off).take width)

end Layout

/-- The first `count` pieces of `size` bytes. -/
def chunks (size : Nat) : (count : Nat) → Bytes → List Bytes
  | 0, _ => []
  | count + 1, bs => bs.take size :: chunks size count (bs.drop size)

/-- The structures of a table, if it is aligned and inside the file. -/
def table? (align size : Nat) (data : Bytes) (off count : Nat) : Option (List Bytes) :=
  if off % align = 0 ∧ off + count * size ≤ data.length then
    some (chunks size count (data.drop off))
  else none

end LookupTap.Elf
