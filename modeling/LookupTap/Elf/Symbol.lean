import LookupTap.Elf.Header
import LookupTap.Elf.Strings
import LookupTap.Text.Utf8

/-! Symbols, and the table that a section holds of them.

A symbol is defined unless its section is zero. Section numbers from `FF00` up are not
sections; `FFFF` says that the number is in a table of its own (`extended`), at the
symbol's index. The first entry of every table is the null symbol, so symbols are numbered
from one. -/
namespace LookupTap.Elf

structure Symbol where
  name : Nat
  value : Nat
  size : Nat
  info : Nat
  home : Nat
  deriving DecidableEq, Repr

namespace Layout

def symbolSize (l : Layout) : Nat := l.pick 24 16

def symbolOf (l : Layout) (bs : Bytes) : Symbol where
  name := l.read (.same 0 4) bs
  value := l.read ⟨(8, 8), (4, 4)⟩ bs
  size := l.read ⟨(16, 8), (8, 4)⟩ bs
  info := l.read ⟨(4, 1), (12, 1)⟩ bs
  home := l.read ⟨(6, 2), (14, 2)⟩ bs

end Layout

namespace Symbol

def isDefined (s : Symbol) : Bool := s.home ≠ 0

def kind (s : Symbol) : Nat := s.info % 16

def objectKind : Nat := 1
def functionKind : Nat := 2
def indirectKind : Nat := 10

/-- The symbol names code: a function, or one that is chosen when it is linked. -/
def isFunction (s : Symbol) : Bool := s.kind = functionKind ∨ s.kind = indirectKind

end Symbol

/-- The symbols of one section. `index` is the section's, zero when there is none. -/
structure SymbolList where
  index : Nat := 0
  entries : List Symbol := []
  strings : Option Strings := none
  extended : List Nat := []
  deriving DecidableEq, Repr

namespace SymbolList

/-- The symbols after the null symbol, with their numbers. -/
def numbered (t : SymbolList) : List (Nat × Symbol) :=
  t.entries.tail.zipIdx 1 |>.map fun (s, i) => (i, s)

/-- The name of a symbol, where its bytes are text. -/
def name? (t : SymbolList) (data : Bytes) (s : Symbol) : Option String :=
  match nameIn? t.strings data s.name with
  | some bs => (Utf8.decode? bs).map String.ofList
  | none => none

/-- The number of the section that symbol `i` lives in. -/
def sectionIndex? (t : SymbolList) (i : Nat) (s : Symbol) : Option Nat :=
  if s.home = 0xFFFF then
    match t.extended[i]? with
    | some n => if n = 0 then none else some n
    | none => none
  else if s.home = 0 ∨ 0xFF00 ≤ s.home then none
  else some s.home

end SymbolList

end LookupTap.Elf
