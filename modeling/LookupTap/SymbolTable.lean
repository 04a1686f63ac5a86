import LookupTap.Elf.Image

/-! The names that a binary defines.

The table lists the defined symbols of the static symbol table and then those of the
dynamic one, each in the order of the file. A symbol whose name is empty, out of range or
no text is left out and disturbs nothing else. `find?` takes the first entry of a name, so
a static symbol goes before a dynamic one. -/
namespace LookupTap

/-- A defined symbol: its name and the value recorded for it. -/
structure NamedValue where
  name : String
  value : Nat
  deriving DecidableEq, Repr

structure SymbolTable where
  symbols : List NamedValue := []
  deriving DecidableEq, Repr

namespace SymbolTable

/-- The name that a defined symbol is entered under. -/
def entryName? (data : Bytes) (t : Elf.SymbolList) (s : Elf.Symbol) : Option String :=
  if s.isDefined then
    match t.name? data s with
    | some name => if name.isEmpty then none else some name
    | none => none
  else none

def entries (data : Bytes) (t : Elf.SymbolList) : List NamedValue :=
  t.entries.tail.filterMap fun s => (entryName? data t s).map fun name => ⟨name, s.value⟩

def ofImage (i : Elf.Image) : SymbolTable :=
  ⟨entries i.data i.symbols ++ entries i.data i.dynamicSymbols⟩

/-- Reads the table of a binary; `path` only names it in the fault. -/
def parse (path : String) (data : Bytes) : Except Fault SymbolTable :=
  match Elf.Container.read data with
  | .error e => .error (.badBinary path e.message)
  | .ok .machO => .error (.badBinary path "not an ELF file (MachO)")
  | .ok .coff => .error (.badBinary path "not an ELF file (Coff)")
  | .ok (.elf image) => .ok (ofImage image)

def find? (t : SymbolTable) (name : String) : Option NamedValue :=
  t.symbols.find? fun s => s.name = name

/-- The value of a name; `path` names the binary in the fault. -/
def resolve (t : SymbolTable) (path name : String) : Except Fault Nat :=
  match t.find? name with
  | some s => .ok s.value
  | none => .error (.symbolNotFound name path)

def size (t : SymbolTable) : Nat := t.symbols.length

end SymbolTable

end LookupTap
