import LookupTap.Proofs.Probe.Target

/-! Two answers to where a program comes from.

The loader goes through the sections and takes the functions of each section of programs: a program
comes from the last of these sections that has a function of its name (`addParts_home`). The map of
an artifact goes through the symbols: a name is mapped to the section of its last function, be that
one of programs or not (`Keyed.get?_puts_last`). The two are the same section while the functions of
the name are all in one; where they are in several, the order of the symbols decides
(`home_mapped`). -/
namespace LookupTap.Artifact.Object
open Probe (placed placements)

/-! ### Names that are of no kind -/

/-- Names of sections that start like this are for something else than programs. -/
def otherLeads : List String :=
  ["license", "version", "maps", ".maps", ".text", ".bss", ".data", ".rodata", ".BTF", ".BTF.ext"]

theorem leads_apart : ∀ entry ∈ sectionKinds, ∀ lead ∈ otherLeads,
    ¬ lead.toList <+: entry.1.toList ∧ ¬ entry.1.toList <+: lead.toList := by
  decide

/-- The name of a section of a kind goes on from one of the first parts. -/
theorem exists_first {home : String} (h : (programKind? home).isSome) :
    ∃ entry ∈ sectionKinds, entry.1.toList <+: home.toList := by
  unfold programKind? at h
  have hjoined : ['/'].intercalate (home.toList.splitOn '/') = home.toList :=
    List.intercalate_splitOn '/'
  cases hparts : home.toList.splitOn '/' with
  | nil =>
    rw [hparts] at h
    cases h
  | cons part rest =>
    rw [hparts] at h hjoined
    simp only [List.map_cons] at h
    split at h
    · next allowed kind hfound =>
      refine ⟨_, Keyed.mem_of_get? hfound, ?_⟩
      rw [String.toList_ofList, ← hjoined]
      cases rest with
      | nil => simp
      | cons next later => exact ⟨_, by rw [List.intercalate_cons_cons, List.append_assoc]⟩
    · cases h

theorem not_startsWith {home lead : String} (h : (programKind? home).isSome)
    (hlead : lead ∈ otherLeads) : home.startsWith lead = false := by
  obtain ⟨entry, hentry, hfirst⟩ := exists_first h
  obtain ⟨hlonger, hshorter⟩ := leads_apart entry hentry lead hlead
  rw [← Bool.not_eq_true, String.startsWith_string_iff]
  intro hstarts
  rcases List.prefix_or_prefix_of_prefix hstarts hfirst with hle | hle
  · exact hlonger hle
  · exact hshorter hle

/-! ### What the loader takes from a section -/

/-- One of the symbols is a function of the name. -/
def hasFunction (name : String) (ls : List Label) : Bool :=
  ls.any fun l => l.symbol.isFunction ∧ l.name = name

theorem addPrograms_get? {p : Part} {kind : Option Probe.Kind} {o o' : Object} {ls : List Label}
    (h : addPrograms p kind o ls = .ok o') {name : String} (hname : name ≠ "") :
    Keyed.get? name o'.programs =
      if hasFunction name ls then some ⟨name, kind, p.name⟩ else Keyed.get? name o.programs := by
  fun_induction addPrograms p kind o ls with
  | case1 o => cases h; rfl
  | case2 o l rest _ _ => cases h
  | case3 o l rest hl _ programs ih =>
    rw [ih h]
    simp only [programs, Keyed.get?_put]
    by_cases hsame : l.name = name
    · subst hsame
      simp [hasFunction, hl.1]
    · simp [hasFunction, hsame, Ne.symm hsame]
  | case4 o l rest hl ih =>
    have hother : ¬ (l.symbol.isFunction ∧ l.name = name) := by
      rintro ⟨hfunction, rfl⟩
      exact hl ⟨hfunction, hname⟩
    rw [ih h]
    simp [hasFunction, hother]

theorem addPart_ofPrograms {order : ByteOrder} {ls : List Label} {o o' : Object} {p : Part}
    (hp : ofPrograms p.header p.name) (h : addPart order ls o p = .ok o') :
    ∃ kind, addPrograms p kind o (inPart p ls) = .ok o' := by
  obtain ⟨hexecuted, hsize, hkind⟩ : executable p.header ∧ 0 < p.header.size ∧
      (programKind? p.name).isSome := by simpa [ofPrograms] using hp
  obtain ⟨kind, hsome⟩ := Option.isSome_iff_exists.mp hkind
  have hname : p.name ≠ ".BTF" ∧ p.name ≠ ".BTF.ext" := by
    constructor <;> intro heq <;> rw [heq] at hkind <;> exact absurd hkind (by decide)
  have hstarts (lead : String) (hlead : lead ∈ otherLeads) := not_startsWith hkind hlead
  unfold addPart at h
  simp only [hstarts "license" (by decide), hstarts "version" (by decide),
    hstarts "maps" (by decide), hstarts ".maps" (by decide),
    hstarts ".text" (by decide), hstarts ".bss" (by decide),
    hstarts ".data" (by decide), hstarts ".rodata" (by decide), hname,
    hexecuted, hsize, hsome, or_self, Bool.false_eq_true, if_false, and_self, if_true] at h
  split at h
  · cases h
  · exact ⟨kind, h⟩

/-- A section of programs with a function of the name becomes the home of the program; any other
leaves the program where it was. -/
theorem addPart_home {order : ByteOrder} {ls : List Label} {o o' : Object} {p : Part}
    (h : addPart order ls o p = .ok o') {name : String} (hname : name ≠ "") :
    (Keyed.get? name o'.programs).map (·.home) =
      if ofPrograms p.header p.name ∧ hasFunction name (inPart p ls) then some p.name
      else (Keyed.get? name o.programs).map (·.home) := by
  by_cases hp : ofPrograms p.header p.name
  · obtain ⟨kind, hadded⟩ := addPart_ofPrograms hp h
    rw [addPrograms_get? hadded hname]
    by_cases hfunction : hasFunction name (inPart p ls) <;> simp [hp, hfunction]
  · obtain hsame | ⟨hprograms, _⟩ := addPart_programs h
    · simp [hp, hsame]
    · exact absurd hprograms hp

/-! ### What the loader takes from all sections -/

/-- The section under the number has a function of the name. -/
def functionAt (i : Elf.Image) (index : Nat) (name : String) : Bool :=
  i.symbols.numbered.any fun (number, symbol) =>
    symbol.isFunction ∧ i.symbols.name? i.data symbol = some name ∧
      i.symbols.sectionIndex? number symbol = some index

/-- The section of programs that a section is, by name, if it has a function of the name. -/
def programHome? (i : Elf.Image) (name : String) (entry : Nat × Elf.Section) : Option String :=
  (i.sectionName? entry.2).filter fun home =>
    ofPrograms entry.2 home ∧ functionAt i entry.1 name

/-- The sections of programs that have a function of the name, in the order of the file. -/
def programHomes (i : Elf.Image) (name : String) : List String :=
  (numbered i).filterMap (programHome? i name)

theorem mem_of_mapM_ok {ε α β : Type} {f : α → Except ε β} {xs : List α} {ys : List β}
    (h : xs.mapM f = .ok ys) {x : α} (hx : x ∈ xs) : ∃ y ∈ ys, f x = .ok y := by
  induction xs generalizing ys with
  | nil => cases hx
  | cons first xs ih =>
    rw [List.mapM_cons] at h
    obtain ⟨b, hfirst, h⟩ := bind_eq_ok h
    obtain ⟨bs, hxs, h⟩ := bind_eq_ok h
    cases h
    rcases List.mem_cons.mp hx with rfl | hin
    · exact ⟨b, List.mem_cons_self, hfirst⟩
    · obtain ⟨y, hy, hread⟩ := ih hxs hin
      exact ⟨y, List.mem_cons_of_mem _ hy, hread⟩

/-- All symbols have labels, so the functions of a section are those that its labels name. -/
theorem hasFunction_inPart {i : Elf.Image} {ls : List Label} (hls : labels i = .ok ls) (p : Part)
    (name : String) : hasFunction name (inPart p ls) = functionAt i p.index name := by
  rw [Bool.eq_iff_iff, hasFunction, functionAt, List.any_eq_true, List.any_eq_true]
  constructor
  · rintro ⟨l, hl, hnamed⟩
    obtain ⟨hin, hhere⟩ := List.mem_filter.mp hl
    obtain ⟨hmem, hread, hhome⟩ := of_mem_labels hls hin
    refine ⟨(l.number, l.symbol), hmem, ?_⟩
    simp_all
  · rintro ⟨⟨number, symbol⟩, hmem, hnamed⟩
    obtain ⟨l, hl, hlabel⟩ := mem_of_mapM_ok hls hmem
    dsimp only at hlabel
    split at hlabel
    · next found hfound =>
      cases hlabel
      refine ⟨_, List.mem_filter.mpr ⟨hl, ?_⟩, ?_⟩ <;> simp_all
    · cases hlabel

/-- A program's home is the last section of programs that has a function of its name. -/
theorem addParts_home {i : Elf.Image} {ls : List Label} (hls : labels i = .ok ls)
    {entries : List (Nat × Elf.Section)} {o o' : Object} (h : addParts i ls o entries = .ok o')
    {name : String} (hname : name ≠ "") :
    (Keyed.get? name o'.programs).map (·.home) =
      (entries.filterMap (programHome? i name)).getLast?.or
        ((Keyed.get? name o.programs).map (·.home)) := by
  fun_induction addParts i ls o entries with
  | case1 o => cases h; rfl
  | case2 o index s rest e _ => cases h
  | case3 o index s rest p _ e _ => cases h
  | case4 o index s rest p hp o₁ hadded ih =>
    obtain ⟨rfl, rfl, hpart⟩ := partAt_eq_ok hp
    have hhome : programHome? i name (p.index, p.header) =
        if ofPrograms p.header p.name ∧ hasFunction name (inPart p ls) then some p.name else none := by
      simp [programHome?, hpart, Option.filter_some, hasFunction_inPart hls]
    rw [ih h, addPart_home hadded hname, List.filterMap_cons, hhome]
    by_cases hprogram : ofPrograms p.header p.name ∧ hasFunction name (inPart p ls)
    · rw [if_pos hprogram, if_pos hprogram]
      simp [List.getLast?_cons]
    · rw [if_neg hprogram, if_neg hprogram]

theorem ofImage_home {i : Elf.Image} {o : Object} (h : ofImage i = .ok o) {name : String}
    (hname : name ≠ "") :
    (Keyed.get? name o.programs).map (·.home) = (programHomes i name).getLast? := by
  unfold ofImage at h
  obtain ⟨license, _, h⟩ := bind_eq_ok h
  obtain ⟨version, _, h⟩ := bind_eq_ok (of_checked h)
  obtain ⟨ls, hls, h⟩ := bind_eq_ok (of_checked h)
  rw [addParts_home hls h hname]
  exact Option.or_none

/-! ### The two answers -/

/-- The sections of all functions of the name, in the order of the symbols. -/
def functionHomes (i : Elf.Image) (name : String) : List String :=
  Keyed.valuesOf name (placed i)

/-- **A program is mapped to the section of the last function of its name, and comes from the last
section of programs that has one.** The functions of its name are in the section that it comes from,
and perhaps in others. If they are in sections of one name, it is mapped to where it comes from in
whatever order the symbols stand; if they are not, there is an order in which it is not. -/
theorem home_mapped (data : Bytes) (o : Object) (h : read data = .ok o) (name : String) (p : Program)
    (hmem : (name, p) ∈ o.programs) :
    ∃ i, Elf.Container.read data = .ok (.elf i) ∧ Probe.programSections data = .ok (placements i) ∧
      Keyed.get? name (placements i) = (functionHomes i name).getLast? ∧
      some p.home = (programHomes i name).getLast? ∧
      p.home ∈ functionHomes i name ∧
      ((∀ entries : List (String × String), entries.Perm (placed i) →
          Keyed.get? name (entries.foldl (fun known e => Keyed.put e.1 e.2 known) []) = some p.home) ↔
        ∀ home ∈ functionHomes i name, home = p.home) := by
  obtain ⟨i, hread, hplaced⟩ := read_placed h hmem
  have hhome : (name, p.home) ∈ placed i := hplaced.home (name, p) hmem
  have hloaded : ofImage i = .ok o := by
    rw [read, hread] at h
    exact h
  have hprogram : Keyed.get? name o.programs = some p :=
    (Keyed.get?_eq_some_iff hplaced.apart).mpr hmem
  refine ⟨i, hread, ?_, ?_, ?_, Keyed.mem_valuesOf.mpr hhome, ?_⟩
  · rw [Probe.programSections, hread]
  · exact (Keyed.get?_puts_last name (placed i) []).trans Option.or_none
  · rw [← ofImage_home hloaded (Probe.ne_empty_of_placed hhome), hprogram]
    rfl
  · rw [Keyed.get?_puts_perm hhome]
    exact forall_congr' fun home => imp_congr_left Keyed.mem_valuesOf.symm

/-! ### Two functions of one name -/

/-- Two sections of programs, each with a function `h`. -/
def twoHomes : Bytes := objectOf [("uprobe/f", "h"), ("uretprobe/g", "h")]

/-- The same with the two symbols in the other order; the first of them takes 24 bytes from byte 104
on. -/
def twoHomesSwapped : Bytes :=
  twoHomes.take 104 ++ (twoHomes.drop 128).take 24 ++ (twoHomes.drop 104).take 24 ++
    twoHomes.drop 152

theorem read_twoHomes : read twoHomesSwapped = .ok ⟨[], [("h", ⟨"h", some .exit, "uretprobe/g"⟩)]⟩ :=
  eq_ok_of_toOption (by decide +kernel)

theorem home_mapped_swapped :
    ∃ i, Elf.Container.read twoHomesSwapped = .ok (.elf i) ∧
      (programHomes i "h").getLast? = some "uretprobe/g" ∧ "uretprobe/g" ∈ functionHomes i "h" := by
  obtain ⟨i, hread, _, _, hlast, hhome, _⟩ :=
    home_mapped twoHomesSwapped _ read_twoHomes "h" _ (.head _)
  exact ⟨i, hread, hlast.symm, hhome⟩

/-- The loader takes `h` from the second section, and the map leads to the first. -/
theorem mapped_elsewhere :
    read twoHomesSwapped = .ok ⟨[], [("h", ⟨"h", some .exit, "uretprobe/g"⟩)]⟩ ∧
      ∃ homes, Probe.programSections twoHomesSwapped = .ok homes ∧
        Keyed.get? "h" homes = some "uprobe/f" := by
  refine ⟨read_twoHomes, [("h", "uprobe/f")], eq_ok_of_toOption ?_, rfl⟩
  decide +kernel

end LookupTap.Artifact.Object
