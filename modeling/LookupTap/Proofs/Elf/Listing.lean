import LookupTap.Proofs.Elf.Defined
import LookupTap.Proofs.Text.Utf8
import LookupTap.Step
import Mathlib.Data.List.Forall2

/-! What the symbol sections of a file list.

A symbol section is written as its symbols, one behind the other, in one of four layouts; the
name of a symbol is a text of the section that it is linked to, with a NUL behind it. `Listed` says
so in terms of the bytes of the file. -/
namespace LookupTap.Elf

/-! ### Symbols in bytes -/

/-- Every number of the symbol has room in the layout. -/
structure Symbol.Fits (l : Layout) (s : Symbol) : Prop where
  name : s.name < Bytes.span 4
  value : s.value < Bytes.span (l.pick 8 4)
  size : s.size < Bytes.span (l.pick 8 4)
  info : s.info < Bytes.span 1
  home : s.home < Bytes.span 2

namespace Layout

/-- A symbol as it is written; `other` is a byte that nobody reads. -/
def symbolBytes (l : Layout) (other : UInt8) (s : Symbol) : Bytes :=
  let number := l.order.write
  if l.wide then
    number 4 s.name ++ number 1 s.info ++ [other] ++ number 2 s.home ++ number 8 s.value ++
      number 8 s.size
  else
    number 4 s.name ++ number 4 s.value ++ number 4 s.size ++ number 1 s.info ++ [other] ++
      number 2 s.home

/-- The bytes are those of the symbols, one behind the other. -/
inductive Written (l : Layout) : List Symbol → Bytes → Prop
  | nil : Written l [] []
  | cons {s : Symbol} {rest : List Symbol} {bs : Bytes} (other : UInt8) :
    s.Fits l → Written l rest bs → Written l (s :: rest) (l.symbolBytes other s ++ bs)

end Layout

/-- At the offset `off` of the text section that `link` names, a name stands with a NUL behind
it. -/
def Image.Names (i : Image) (link off : Nat) (name : String) : Prop :=
  link ≠ 0 ∧ ∃ strings content rest, i.sections[link]? = some strings ∧
    Bytes.slice? i.data strings.offset strings.size = some content ∧
    content.drop off = Utf8.encode name.toList ++ 0 :: rest ∧ '\x00' ∉ name.toList

/-- What a symbol says: the number of its section, its value, and its name where that is text. -/
structure Entry where
  home : Nat
  value : Nat
  name : Option String
  deriving DecidableEq, Repr

/-- The entry is defined, under that name, which is not empty. -/
def Entry.Defines (name : String) (e : Entry) : Prop :=
  e.home ≠ 0 ∧ e.name = some name ∧ name ≠ ""

instance (name : String) : DecidablePred (Entry.Defines name) :=
  fun _ => inferInstanceAs (Decidable (_ ∧ _ ∧ _))

/-- The entry is that of the symbol, in a section that is linked to `link`. -/
structure Image.Records (i : Image) (link : Nat) (s : Symbol) (e : Entry) : Prop where
  home : e.home = s.home
  value : e.value = s.value
  name : ∀ name, e.name = some name ↔ i.Names link s.name name

/-- What the first section of a kind has after its null symbol, in the order of the file. -/
inductive Image.Listed (i : Image) (kind : Nat) : List Entry → Prop
  | absent : i.sections.find? (·.kind = kind) = none → Listed i kind []
  | present {s : Section} {symbols : List Symbol} {content : Bytes} {entries : List Entry} :
    i.sections.find? (·.kind = kind) = some s →
    Bytes.slice? i.data s.offset s.size = some content →
    i.header.layout.Written symbols content →
    List.Forall₂ (i.Records s.link) symbols.tail entries → Listed i kind entries

/-- The entries of the symbols that were read. -/
def SymbolList.recorded (t : SymbolList) (data : Bytes) : List Entry :=
  t.entries.tail.map fun s => ⟨s.home, s.value, t.name? data s⟩

namespace Image

end Image

/-! ### The file -/

/-- The bytes four and five of a file with this layout. -/
def Layout.announced (l : Layout) : Bytes :=
  [if l.wide then 2 else 1, match l.order with | .little => 1 | .big => 2]

end LookupTap.Elf
