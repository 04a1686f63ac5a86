import LookupTap.Elf.Image
import LookupTap.Keyed
import LookupTap.Probe

/-! The probes that an artifact declares.

`programSections` says for each function symbol of an object which section it lies in; the
last symbol of a name counts. `declared` makes a probe of each program, leaves out those
without a function, and lists them by raw name. -/
namespace LookupTap.Probe

/-- The name of the section that a function lies in, if the symbol is of a function with a
name, in a section with a name. -/
def placement? (i : Elf.Image) (entry : Nat × Elf.Symbol) : Option (String × String) :=
  let (number, symbol) := entry
  if symbol.isFunction then
    match i.symbols.name? i.data symbol,
        (i.symbols.sectionIndex? number symbol).bind (i.sections[·]?) with
    | some name, some home =>
      if name.isEmpty then none else (i.sectionName? home).map fun place => (name, place)
    | _, _ => none
  else none

/-- The sections of the functions of an ELF object, in the order of first appearance. -/
def placements (i : Elf.Image) : List (String × String) :=
  (i.symbols.numbered.filterMap (placement? i)).foldl
    (fun known entry => Keyed.put entry.1 entry.2 known) []

/-- The sections of the functions of an object file. -/
def programSections (data : Bytes) : Except ElfFault (List (String × String)) :=
  match Elf.Container.read data with
  | .error e => .error e
  | .ok (.elf image) => .ok (placements image)
  | .ok _ => .ok []

/-- Raw names in the order of their characters; equal ones stay as they were. -/
def sorted (probes : List Probe) : List Probe :=
  probes.mergeSort fun p q => p.rawName ≤ q.rawName

/-- The probes of programs, each given with its name and kind. -/
def declared (programs : List (String × Kind)) (homes : List (String × String)) :
    List Probe :=
  sorted <| (programs.map fun (name, kind) => forProgram name (Keyed.get? name homes) kind).filter
    fun probe => !probe.target.isEmpty

end LookupTap.Probe
