import LookupTap.SymbolTable

/-! What a binary defines under a name.

`Image.defined?` is the first defined symbol of a name, static symbols before dynamic ones. A
symbol table has under each name the value of just that symbol (`resolve_ofImage`). -/
namespace LookupTap

namespace Elf

/-- The symbol is defined, under that name, which is not empty. -/
def SymbolList.Defines (t : SymbolList) (data : Bytes) (name : String) (s : Symbol) : Prop :=
  s.isDefined ∧ t.name? data s = some name ∧ name ≠ ""

instance (t : SymbolList) (data : Bytes) (name : String) :
    DecidablePred (t.Defines data name) := fun _ => inferInstanceAs (Decidable (_ ∧ _ ∧ _))

/-- The first symbol after the null symbol that is defined under the name. -/
def SymbolList.defined? (t : SymbolList) (data : Bytes) (name : String) : Option Symbol :=
  t.entries.tail.find? (t.Defines data name)

def Image.defined? (i : Image) (name : String) : Option Symbol :=
  (i.symbols.defined? i.data name).or (i.dynamicSymbols.defined? i.data name)

end Elf

/-! ### Files from their parts -/

namespace Elf

def Segment.written (s : Segment) : Bytes :=
  Bytes.ofNat 4 s.kind ++ Bytes.ofNat 4 5 ++ Bytes.ofNat 8 s.offset ++ Bytes.ofNat 8 s.address ++
    Bytes.ofNat 8 s.address ++ Bytes.ofNat 8 s.fileSize ++ Bytes.ofNat 8 s.fileSize ++
    Bytes.ofNat 8 0x1000

def Section.written (s : Section) : Bytes :=
  Bytes.ofNat 4 s.name ++ Bytes.ofNat 4 s.kind ++ Bytes.ofNat 8 s.flags ++
    Bytes.ofNat 8 s.address ++ Bytes.ofNat 8 s.offset ++ Bytes.ofNat 8 s.size ++
    Bytes.ofNat 4 s.link ++ Bytes.ofNat 4 s.info ++ Bytes.ofNat 8 8 ++
    Bytes.ofNat 8 (if s.kind = symbolSection then 24 else 0)

def Symbol.written (s : Symbol) : Bytes :=
  Bytes.ofNat 4 s.name ++ Bytes.ofNat 1 s.info ++ Bytes.ofNat 1 0 ++ Bytes.ofNat 2 s.home ++
    Bytes.ofNat 8 s.value ++ Bytes.ofNat 8 s.size

/-- A wide file in little-endian order: the header, the segments, what they and the sections have
in them, and the sections, the last of which has the names of all of them. -/
def written (kind machine : Nat) (segments : List Segment) (contents : Bytes)
    (sections : List Section) : Bytes :=
  let segmentOffset := if segments.isEmpty then 0 else 64
  let sectionOffset := 64 + 56 * segments.length + contents.length
  [0x7F, 0x45, 0x4C, 0x46, 2, 1, 1] ++ List.replicate 9 0 ++
    Bytes.ofNat 2 kind ++ Bytes.ofNat 2 machine ++ Bytes.ofNat 4 1 ++ Bytes.ofNat 8 0 ++
    Bytes.ofNat 8 segmentOffset ++ Bytes.ofNat 8 sectionOffset ++ Bytes.ofNat 4 0 ++
    Bytes.ofNat 2 64 ++ Bytes.ofNat 2 56 ++ Bytes.ofNat 2 segments.length ++
    Bytes.ofNat 2 64 ++ Bytes.ofNat 2 sections.length ++ Bytes.ofNat 2 (sections.length - 1) ++
    segments.flatMap Segment.written ++ contents ++ sections.flatMap Section.written

/-- A shared object that defines one function, whose name is one character. -/
def library (name : UInt8) (value : Nat) : Bytes :=
  let names : Bytes := [0, name, 0, 0, 0, 0, 0, 0]
  let symbols : List Symbol := [⟨0, 0, 0, 0, 0⟩, ⟨1, value, 8, 0x12, 1⟩]
  written 3 62 [] (names ++ symbols.flatMap Symbol.written)
    [⟨0, 0, 0, 0, 0, 0, 0, 0⟩, ⟨0, 1, 6, value, 64, 8, 0, 0⟩,
      ⟨0, symbolSection, 0, 0, 72, 48, 3, 1⟩, ⟨0, stringSection, 0, 0, 64, 8, 0, 0⟩]

end Elf

namespace SymbolTable
open Elf (SymbolList Symbol Image)

theorem entryName?_eq_some_iff {data : Bytes} {t : SymbolList} {s : Symbol} {name : String} :
    entryName? data t s = some name ↔ t.Defines data name s := by
  unfold entryName? SymbolList.Defines
  cases s.isDefined with
  | false => simp
  | true =>
    cases t.name? data s with
    | none => simp
    | some name' =>
      rw [if_pos rfl]
      by_cases hempty : name' = ""
      · subst hempty
        constructor
        · rintro ⟨⟩
        · rintro ⟨_, hname, hne⟩
          exact absurd (Option.some.inj hname).symm hne
      · simp only [if_neg (show ¬ name'.isEmpty = true by simpa using hempty)]
        constructor
        · rintro ⟨rfl⟩
          exact ⟨trivial, rfl, hempty⟩
        · exact fun h => h.2.1

/-- Of the named values of a list, the first under a name is that of the first element that has
one under it. -/
theorem find?_filterMap_named {α : Type} {named : α → Option NamedValue} {value : α → Nat}
    {name : String} {defines : α → Bool}
    (h : ∀ a v, named a = some v → v.value = value a)
    (hdefines : ∀ a, named a = some ⟨name, value a⟩ ↔ defines a) (l : List α) :
    (l.filterMap named).find? (fun v => v.name = name) =
      (l.find? defines).map fun a => ⟨name, value a⟩ := by
  have hsearched (a : α) : (named a).any (fun v => v.name = name) = defines a := by
    rw [Bool.eq_iff_iff, Option.any_eq_true, ← hdefines]
    constructor
    · rintro ⟨⟨name', value'⟩, hv, hname⟩
      obtain rfl : name' = name := of_decide_eq_true hname
      obtain rfl : value' = value a := h a _ hv
      exact hv
    · exact fun hv => ⟨_, hv, decide_eq_true rfl⟩
  rw [List.find?_filterMap]
  simp only [hsearched]
  cases hfind : l.find? defines with
  | none => rfl
  | some a => exact (hdefines a).mpr (List.find?_some hfind)

theorem find?_entries (data : Bytes) (t : SymbolList) (name : String) :
    (entries data t).find? (fun v => v.name = name) =
      (t.defined? data name).map fun s => ⟨name, s.value⟩ := by
  refine find?_filterMap_named (fun s v hv => ?_) (fun s => ?_) _
  · obtain ⟨_, _, rfl⟩ := Option.map_eq_some_iff.mp hv
    rfl
  · simp [entryName?_eq_some_iff]

theorem find?_ofImage (i : Image) (name : String) :
    (ofImage i).find? name = (i.defined? name).map fun s => ⟨name, s.value⟩ := by
  unfold find? ofImage Image.defined?
  rw [List.find?_append, find?_entries, find?_entries]
  cases i.symbols.defined? i.data name <;> rfl

/-- A name has the value of the first symbol that is defined under it. -/
theorem resolve_ofImage (i : Image) (path name : String) :
    (ofImage i).resolve path name =
      match i.defined? name with
      | some s => .ok s.value
      | none => .error (.symbolNotFound name path) := by
  rw [resolve, find?_ofImage]
  cases i.defined? name <;> rfl

theorem parse_elf {data : Bytes} {i : Image} (hread : Elf.Container.read data = .ok (.elf i))
    (path : String) : parse path data = .ok (ofImage i) := by
  rw [parse, hread]

end SymbolTable

end LookupTap
