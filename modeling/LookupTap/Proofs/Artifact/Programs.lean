import LookupTap.Artifact.Object
import LookupTap.Probe.Catalog
import LookupTap.Step

/-! Where the programs of an object come from.

Taking in a section either leaves the programs alone or puts in one for each of its functions
(`addPart_programs`). So under every name there is one program, it comes from a section with a
function of its name, and that section's name says its kind (`Object.Placed`, `read_placed`). -/
namespace LookupTap

namespace Probe

/-- The functions with a name, with the names of their sections. -/
def placed (i : Elf.Image) : List (String × String) :=
  i.symbols.numbered.filterMap (placement? i)

/-- Functions of one name are in sections of one name. -/
def FunctionsApart (i : Elf.Image) : Prop :=
  ∀ name home home', (name, home) ∈ placed i → (name, home') ∈ placed i → home = home'

theorem functionsApart_of_nodup {i : Elf.Image} (h : ((placed i).map Prod.fst).Nodup) :
    FunctionsApart i := by
  intro name home home' hmem hmem'
  have heq := (Keyed.filter_of_mem h hmem).symm.trans (Keyed.filter_of_mem h hmem')
  cases heq
  rfl

end Probe

namespace Artifact.Object
open Probe (placed)

/-- The programs of an object have their names and sections from the functions of the image, and
their kinds from the sections' names. -/
structure Placed (i : Elf.Image) (o : Object) : Prop where
  apart : (o.programs.map Prod.fst).Nodup
  home : ∀ entry ∈ o.programs, (entry.1, entry.2.home) ∈ placed i
  kind : ∀ entry ∈ o.programs, programKind? entry.2.home = some entry.2.kind

theorem Placed.empty (i : Elf.Image) : Placed i {} :=
  ⟨List.nodup_nil, fun _ h => absurd h List.not_mem_nil, fun _ h => absurd h List.not_mem_nil⟩

theorem Placed.of_programs {i : Elf.Image} {o o' : Object} (ho : o.Placed i)
    (h : o'.programs = o.programs) : o'.Placed i := by
  obtain ⟨hapart, hhome, hkind⟩ := ho
  rw [← h] at hapart hhome hkind
  exact ⟨hapart, hhome, hkind⟩

theorem Placed.put {i : Elf.Image} {o : Object} (ho : o.Placed i) {name home : String}
    {kind : Option Probe.Kind} (hhome : (name, home) ∈ placed i)
    (hkind : programKind? home = some kind) :
    Placed i { o with programs := Keyed.put name ⟨name, kind, home⟩ o.programs } := by
  refine ⟨Keyed.nodup_put _ _ ho.apart, fun entry h => ?_, fun entry h => ?_⟩
  · rcases Keyed.mem_put h with rfl | hold
    · exact hhome
    · exact ho.home entry hold
  · rcases Keyed.mem_put h with rfl | hold
    · exact hkind
    · exact ho.kind entry hold

/-! ### One section -/

theorem addMaps_programs {order : ByteOrder} {p : Part} {o o' : Object} {ls : List Label}
    (h : addMaps order p o ls = .ok o') : o'.programs = o.programs := by
  fun_induction addMaps order p o ls with
  | case1 o => cases h; rfl
  | case2 o l rest _ ih => exact ih h
  | case3 o l rest _ _ => cases h
  | case4 o l rest _ kind _ ih => exact ih h

theorem addPrograms_placed {i : Elf.Image} {p : Part} {kind : Option Probe.Kind} {o o' : Object}
    {ls : List Label} (hkind : programKind? p.name = some kind)
    (hls : ∀ l ∈ ls, l.symbol.isFunction → l.name ≠ "" → (l.name, p.name) ∈ placed i)
    (ho : o.Placed i) (h : addPrograms p kind o ls = .ok o') : o'.Placed i := by
  fun_induction addPrograms p kind o ls with
  | case1 o => cases h; exact ho
  | case2 o l rest _ _ => cases h
  | case3 o l rest hl _ programs ih =>
    have hhome := hls l List.mem_cons_self hl.1 hl.2
    exact ih (fun l h => hls l (List.mem_cons_of_mem _ h)) (ho.put hhome hkind) h
  | case4 o l rest _ ih => exact ih (fun l h => hls l (List.mem_cons_of_mem _ h)) ho h

/-- A section of programs: its bytes are executed, and its name is of a kind. -/
def ofPrograms (header : Elf.Section) (name : String) : Bool :=
  executable header ∧ 0 < header.size ∧ (programKind? name).isSome

/-- A section leaves the programs alone, or it is one of programs and its functions become programs
of its kind. -/
theorem addPart_programs {order : ByteOrder} {ls : List Label} {o o' : Object} {p : Part}
    (h : addPart order ls o p = .ok o') :
    o'.programs = o.programs ∨ ofPrograms p.header p.name ∧
      ∃ kind, programKind? p.name = some kind ∧ addPrograms p kind o (inPart p ls) = .ok o' := by
  unfold addPart at h
  dsimp only at h
  -- one case for each beginning of a name, in the order in which they are tried
  split at h
  · cases h; exact .inl rfl
  split at h
  · split at h
    · cases h
    · exact .inl (addMaps_programs h)
  split at h
  · cases h; exact .inl rfl
  split at h
  · split at h
    · cases h
    · cases hcode : checkCode p _ (p.data.length + 1) 0 with
      | error e =>
        rw [hcode] at h
        cases h
      | ok _ =>
        rw [hcode] at h
        cases h
        exact .inl rfl
  split at h
  · cases h; exact .inl rfl
  split at h
  · cases h; exact .inl rfl
  split at h
  · next hexecuted =>
    split at h
    · cases h
    · next kind hkind =>
      split at h
      · cases h
      · exact .inr ⟨by simp [ofPrograms, hexecuted, hkind], kind, hkind, h⟩
  · cases h; exact .inl rfl

/-! ### The functions of a section -/

theorem partAt_eq_ok {i : Elf.Image} {index : Nat} {s : Elf.Section} {p : Part}
    (h : partAt i index s = .ok p) :
    p.index = index ∧ p.header = s ∧ i.sectionName? s = some p.name := by
  unfold partAt at h
  split at h
  · next name data hname hdata =>
    cases h
    exact ⟨rfl, rfl, hname⟩
  · cases h

theorem getElem?_of_numbered {i : Elf.Image} {entry : Nat × Elf.Section}
    (h : entry ∈ numbered i) : i.sections[entry.1]? = some entry.2 := by
  obtain ⟨⟨s, index⟩, hzip, rfl⟩ := List.mem_map.mp h
  obtain ⟨hle, hat⟩ := List.mk_mem_zipIdx_iff_le_and_getElem?_sub.mp hzip
  rw [List.getElem?_tail, Nat.sub_add_cancel hle] at hat
  exact hat

theorem exists_of_mapM_ok {ε α β : Type} {f : α → Except ε β} {xs : List α} {ys : List β}
    (h : xs.mapM f = .ok ys) {y : β} (hy : y ∈ ys) : ∃ x ∈ xs, f x = .ok y := by
  induction xs generalizing ys with
  | nil =>
    cases h
    cases hy
  | cons x xs ih =>
    rw [List.mapM_cons] at h
    obtain ⟨b, hx, h⟩ := bind_eq_ok h
    obtain ⟨bs, hxs, h⟩ := bind_eq_ok h
    cases h
    rcases List.mem_cons.mp hy with rfl | hin
    · exact ⟨x, List.mem_cons_self, hx⟩
    · obtain ⟨x', hx', hread⟩ := ih hxs hin
      exact ⟨x', List.mem_cons_of_mem _ hx', hread⟩

/-- A label is a symbol of the table under its number, with its name and section. -/
theorem of_mem_labels {i : Elf.Image} {ls : List Label} (h : labels i = .ok ls) {l : Label}
    (hl : l ∈ ls) : (l.number, l.symbol) ∈ i.symbols.numbered ∧
      i.symbols.name? i.data l.symbol = some l.name ∧
      l.home = i.symbols.sectionIndex? l.number l.symbol := by
  obtain ⟨⟨number, s⟩, hmem, hlabel⟩ := exists_of_mapM_ok h hl
  dsimp only at hlabel
  split at hlabel
  · next name hname =>
    cases hlabel
    exact ⟨hmem, hname, rfl⟩
  · cases hlabel

/-- A function with a name that lies in a section is placed there. -/
theorem placed_of_inPart {i : Elf.Image} {ls : List Label} (hls : labels i = .ok ls)
    {entry : Nat × Elf.Section} (hentry : entry ∈ numbered i) {p : Part}
    (hp : partAt i entry.1 entry.2 = .ok p) {l : Label} (hl : l ∈ inPart p ls)
    (hfunction : l.symbol.isFunction) (hname : l.name ≠ "") : (l.name, p.name) ∈ placed i := by
  obtain ⟨hin, hhere⟩ := List.mem_filter.mp hl
  obtain ⟨hmem, hread, hhome⟩ := of_mem_labels hls hin
  obtain ⟨hindex, _, hpart⟩ := partAt_eq_ok hp
  have hsection : (i.symbols.sectionIndex? l.number l.symbol).bind (i.sections[·]?) =
      some entry.2 := by
    rw [← hhome, of_decide_eq_true hhere, hindex]
    exact getElem?_of_numbered hentry
  refine List.mem_filterMap.mpr ⟨(l.number, l.symbol), hmem, ?_⟩
  have hnonempty : ¬ l.name.isEmpty := by simpa using hname
  simp only [Probe.placement?, if_pos hfunction, hread, hsection, if_neg hnonempty, hpart,
    Option.map_some]

/-! ### All sections -/

theorem addParts_placed {i : Elf.Image} {ls : List Label} (hls : labels i = .ok ls)
    {entries : List (Nat × Elf.Section)} (hentries : ∀ entry ∈ entries, entry ∈ numbered i)
    {o o' : Object} (ho : o.Placed i) (h : addParts i ls o entries = .ok o') : o'.Placed i := by
  fun_induction addParts i ls o entries with
  | case1 o => cases h; exact ho
  | case2 o index s rest e _ => cases h
  | case3 o index s rest p _ e _ => cases h
  | case4 o index s rest p hp o₁ hadded ih =>
    have hfirst := hentries (index, s) List.mem_cons_self
    refine ih (fun entry h => hentries entry (List.mem_cons_of_mem _ h)) ?_ h
    obtain hsame | ⟨_, kind, hkind, hprograms⟩ := addPart_programs hadded
    · exact ho.of_programs hsame
    · exact addPrograms_placed hkind (fun l hl => placed_of_inPart hls hfirst hp hl) ho hprograms

/-- What follows an optional check is what counts if all ends well. -/
theorem of_checked {ε β : Type} {found : Option Bytes} {check : Bytes → Except ε Unit}
    {next : Unit → Except ε β} {b : β}
    (h : (match found with
      | some data => do
        let checked ← check data
        next checked
      | _ => next ()) = .ok b) : next () = .ok b := by
  cases found with
  | none => exact h
  | some data =>
    obtain ⟨_, _, hnext⟩ := bind_eq_ok h
    exact hnext

theorem ofImage_placed {i : Elf.Image} {o : Object} (h : ofImage i = .ok o) : o.Placed i := by
  unfold ofImage at h
  obtain ⟨license, _, h⟩ := bind_eq_ok h
  obtain ⟨version, _, h⟩ := bind_eq_ok (of_checked h)
  obtain ⟨ls, hls, h⟩ := bind_eq_ok (of_checked h)
  exact addParts_placed hls (fun _ hentry => hentry) (.empty i) h

/-- A file with a program in it is an ELF image, and its programs are placed there. -/
theorem read_placed {data : Bytes} {o : Object} (h : read data = .ok o)
    {entry : String × Program} (hentry : entry ∈ o.programs) :
    ∃ image, Elf.Container.read data = .ok (.elf image) ∧ o.Placed image := by
  unfold read at h
  split at h
  · cases h
  · next image himage => exact ⟨image, himage, ofImage_placed h⟩
  · cases h
    cases hentry

end Artifact.Object

end LookupTap
