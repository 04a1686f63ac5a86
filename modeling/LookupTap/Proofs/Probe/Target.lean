import LookupTap.Artifact
import LookupTap.Proofs.Artifact.Programs
import LookupTap.Proofs.Elf.Defined
import LookupTap.Proofs.Probe.RoundTrip
import LookupTap.Proofs.Probe.Spelling

/-! Which function the probe of a program targets.

An artifact declares one probe for each of its programs that is one, and makes it from the section
that the program comes from, as long as functions of one name are not in several sections
(`declared_of_program`). So the target is the one that the section is spelled for, unless the
spelling is one for programs that may sleep, which only the loader knows (`declared_targets`). -/
namespace LookupTap

namespace Probe

/-- In a section with a target, a probe has that target if the spelling is a plain one. -/
theorem forProgram_home (name : String) (s : Spelling) {target : String} (htarget : target ≠ "")
    (kind : Kind) :
    forProgram name (some (s.home target)) kind =
      if s.sleepable then (parse name).getD ⟨name, kind.lead ++ name, kind, name⟩
      else ⟨name, s.home target, s.kind, target⟩ := by
  have hparse := parse_home s target
  cases hsleep : s.sleepable with
  | true => exact forProgram_of_unread (by simpa [hsleep] using hparse)
  | false =>
    have hread : parse (s.home target) = some ⟨s.home target, s.home target, s.kind, target⟩ := by
      simpa [hsleep, htarget] using hparse
    rw [forProgram, Option.bind_some, hread]
    rfl

/-! ### The sections of functions -/

theorem ne_empty_of_placed {i : Elf.Image} {name home : String} (h : (name, home) ∈ placed i) :
    name ≠ "" := by
  obtain ⟨⟨number, symbol⟩, _, hplaced⟩ := List.mem_filterMap.mp h
  unfold placement? at hplaced
  dsimp only at hplaced
  split at hplaced
  · split at hplaced
    · split at hplaced
      · cases hplaced
      · next hnonempty =>
        obtain ⟨place, _, heq⟩ := Option.map_eq_some_iff.mp hplaced
        cases heq
        simpa using hnonempty
    · cases hplaced
  · cases hplaced

theorem get?_placements {i : Elf.Image} (hapart : FunctionsApart i) {name home : String}
    (h : (name, home) ∈ placed i) : Keyed.get? name (placements i) = some home :=
  Keyed.get?_puts (fun other hother => hapart name other home hother h) [] (.inr h)

/-! ### The probes of an artifact -/

/-- Where names are apart, each program has its own probe among those declared, and no other. -/
theorem declared_filter {programs : List (String × Kind)} (homes : List (String × String))
    (hapart : (programs.map Prod.fst).Nodup) {name : String} {kind : Kind}
    (hmem : (name, kind) ∈ programs) (hname : name ≠ "") :
    (declared programs homes).filter (·.program = name) =
      [forProgram name (Keyed.get? name homes) kind] := by
  let probe (program : String × Kind) : Probe :=
    forProgram program.1 (Keyed.get? program.1 homes) program.2
  let targeted (p : Probe) : Bool := !p.target.isEmpty
  have htarget : (probe (name, kind)).target ≠ "" := forProgram_target_ne hname _ kind
  have hof : (programs.map probe).filter (·.program = name) =
      (programs.filter (·.1 = name)).map probe := by
    rw [List.filter_map]
    congr 2
    funext program
    exact congrArg (fun n => decide (n = name)) (forProgram_program ..)
  have hunsorted : ((programs.map probe).filter targeted).filter (·.program = name) =
      [probe (name, kind)] :=
    calc ((programs.map probe).filter targeted).filter (·.program = name)
      _ = ((programs.map probe).filter (·.program = name)).filter targeted := by
        rw [List.filter_filter, List.filter_filter]
        simp only [Bool.and_comm]
      _ = [probe (name, kind)].filter targeted := by
        rw [hof, Keyed.filter_of_mem hapart hmem]
        rfl
      _ = [probe (name, kind)] := by simp [targeted, htarget]
  -- sorting one probe changes nothing
  have hperm := (List.mergeSort_perm ((programs.map probe).filter targeted)
    fun p q => p.rawName ≤ q.rawName).filter (·.program = name)
  rw [hunsorted] at hperm
  exact List.perm_singleton.mp hperm

end Probe

namespace Artifact
open Probe (Spelling FunctionsApart placed placements forProgram)

theorem openLog_programs (a : Artifact) (k : Kernel) :
    (a.openLog k).2.1.programs = a.programs ∧ (a.openLog k).2.1.homes = a.homes := by
  unfold openLog
  split
  · exact ⟨rfl, rfl⟩
  · dsimp only
    split <;> exact ⟨rfl, rfl⟩

/-- What is loaded are the programs of the object and the sections of its functions. -/
theorem load_eq_ok {read : Reading} {k : Kernel} {path : String} {data : Bytes} {a : Artifact}
    (hread : read path = .ok data) (h : (load read k path).answer = .ok a) :
    ∃ o, Object.read data = .ok o ∧ a.programs = o.programs ∧
      a.homes = (Probe.programSections data).toOption.getD [] := by
  unfold load at h
  rw [hread] at h
  dsimp only at h
  split at h
  · cases h
  · next created k' hbytes =>
    obtain ⟨hprograms, hhomes⟩ := openLog_programs created k'
    cases h
    rw [hprograms, hhomes]
    unfold ofBytes at hbytes
    split at hbytes
    · cases hbytes
    · next o hobject =>
      split at hbytes
      · cases hbytes
      · cases hbytes
        exact ⟨o, hobject, rfl, rfl⟩

theorem nodup_probes {a : Artifact} (hapart : (a.programs.map Prod.fst).Nodup) :
    (a.probes.map Prod.fst).Nodup := by
  rw [List.Nodup, List.pairwise_map] at hapart ⊢
  refine hapart.filterMap _ ?_
  rintro ⟨name, p⟩ ⟨name', p'⟩ hne ⟨_, kind⟩ hprobe ⟨_, kind'⟩ hprobe'
  obtain ⟨_, _, heq⟩ := Option.map_eq_some_iff.mp hprobe
  obtain ⟨_, _, heq'⟩ := Option.map_eq_some_iff.mp hprobe'
  cases heq
  cases heq'
  exact hne

/-- The one probe that is declared for a program is made from the section it comes from. -/
theorem declared_of_program {image : Elf.Image} {a : Artifact} {o : Object}
    (hplaced : o.Placed image) (hapart : FunctionsApart image) (hprograms : a.programs = o.programs)
    (hhomes : a.homes = placements image) {name : String} {p : Program} {kind : Probe.Kind}
    (hmem : (name, p) ∈ a.programs) (hkind : p.kind = some kind) :
    a.declared.filter (·.program = name) = [forProgram name (some p.home) kind] := by
  have hhome : (name, p.home) ∈ placed image := hplaced.home (name, p) (hprograms ▸ hmem)
  have hprobe : (name, kind) ∈ a.probes :=
    List.mem_filterMap.mpr ⟨(name, p), hmem, by simp only [hkind, Option.map_some]⟩
  have hkeys := nodup_probes (hprograms ▸ hplaced.apart)
  rw [declared, Probe.declared_filter a.homes hkeys hprobe (Probe.ne_empty_of_placed hhome),
    hhomes, Probe.get?_placements hapart hhome]

/-- **The loader and the probes read sections alike, but for programs that may sleep.** A loaded
artifact declares one probe for each of its programs that is one, and the program comes from a
section that one of the four spellings names. If the section has a target, the probe has it when
the spelling is plain; when it is the one for programs that may sleep, and when there is no target,
the program's own name decides. -/
theorem declared_targets (read : Reading) (k : Kernel) (path : String) (data : Bytes)
    (a : Artifact) (hread : read path = .ok data)
    (hapart : ∀ image, Elf.Container.read data = .ok (.elf image) → FunctionsApart image)
    (hload : (load read k path).answer = .ok a) :
    ∀ name (p : Program) kind, (name, p) ∈ a.programs → p.kind = some kind →
      let own := (Probe.parse name).getD ⟨name, kind.lead ++ name, kind, name⟩
      let probes := a.declared.filter (·.program = name)
      (∃ image, Elf.Container.read data = .ok (.elf image) ∧ (name, p.home) ∈ placed image) ∧
      (∃ s : Spelling, s.kind = kind ∧ (p.home = s.first ∨ ∃ target, p.home = s.home target)) ∧
      (∀ (s : Spelling) target, target ≠ "" → p.home = s.home target →
        probes = [if s.sleepable then own else ⟨name, p.home, kind, target⟩]) ∧
      ((∀ (s : Spelling) target, target ≠ "" → p.home ≠ s.home target) → probes = [own]) := by
  intro name p kind hmem hkind own probes
  obtain ⟨o, hobject, hprograms, hhomes⟩ := load_eq_ok hread hload
  have hmem' : (name, p) ∈ o.programs := hprograms ▸ hmem
  obtain ⟨image, himage, hplaced⟩ := Object.read_placed hobject hmem'
  have hsections : a.homes = placements image := by
    rw [hhomes, Probe.programSections, himage]
    rfl
  have hspelled : programKind? p.home = some (some kind) :=
    (hplaced.kind (name, p) hmem').trans (congrArg some hkind)
  have hprobes : probes = [forProgram name (some p.home) kind] :=
    declared_of_program hplaced (hapart image himage) hprograms hsections hmem hkind
  refine ⟨⟨image, himage, hplaced.home (name, p) hmem'⟩, spelled_of_programKind? hspelled, ?_, ?_⟩
  · intro s target htarget hs
    have hsame : s.kind = kind := by
      rw [hs, programKind?_home] at hspelled
      exact Option.some.inj (Option.some.inj hspelled)
    rw [hprobes, hs, Probe.forProgram_home name s htarget kind, hsame]
  · intro hnone
    have hunread : Probe.parse p.home = none := by
      obtain ⟨s, _, hfirst | ⟨target, hs⟩⟩ := spelled_of_programKind? hspelled
      · rw [hfirst]
        exact Probe.parse_first s
      · have hempty : target = "" := Classical.byContradiction fun hne => hnone s target hne hs
        rw [hs, Probe.parse_home, if_pos (.inr hempty)]
    have hown : forProgram name (some p.home) kind = own := Probe.forProgram_of_unread hunread
    rw [hprobes, hown]

/-! ### An object of three programs -/

/-- An object that has for each program a section with one function of eight bytes. The names are
at multiples of 32 in their table. -/
def objectOf (programs : List (String × String)) : Bytes :=
  let count := programs.length
  let names := ("" :: programs.flatMap fun (home, name) => [home, name]).flatMap fun name =>
    let bytes := Utf8.encode name.toList
    bytes ++ List.replicate (32 - bytes.length) 0
  let functions := (List.range count).map fun n => ⟨64 * n + 64, 0, 8, 0x12, n + 1⟩
  let symbols : List Elf.Symbol := ⟨0, 0, 0, 0, 0⟩ :: functions
  let homes := (List.range count).map fun n => ⟨64 * n + 32, 1, 6, 0, 64 + 8 * n, 8, 0, 0⟩
  let symbolSize := 24 * (count + 1)
  let sections : List Elf.Section := ⟨0, 0, 0, 0, 0, 0, 0, 0⟩ :: homes ++
    [⟨0, Elf.symbolSection, 0, 0, 64 + 8 * count, symbolSize, count + 2, 1⟩,
      ⟨0, Elf.stringSection, 0, 0, 64 + 8 * count + symbolSize, names.length, 0, 0⟩]
  Elf.written 1 247 [] (List.replicate (8 * count) 0 ++ symbols.flatMap Elf.Symbol.written ++ names)
    sections

/-- A plain spelling, one for a program that may sleep, and one without a target. -/
def trio : Bytes :=
  objectOf [("uprobe/f", "enter"), ("uretprobe.s/f", "leave"), ("uprobe", "g")]

def loadedTrio : Artifact where
  programs := [("enter", ⟨"enter", some .entry, "uprobe/f"⟩),
    ("leave", ⟨"leave", some .exit, "uretprobe.s/f"⟩), ("g", ⟨"g", some .entry, "uprobe"⟩)]
  homes := [("enter", "uprobe/f"), ("leave", "uretprobe.s/f"), ("g", "uprobe")]

theorem load_trio : (load (fun _ => .ok trio) {} "trio.o").answer = .ok loadedTrio :=
  eq_ok_of_toOption (by decide +kernel)

set_option maxRecDepth 20000 in
theorem read_trio : ∃ image, Elf.Container.read trio = .ok (.elf image) ∧
    placed image = loadedTrio.homes :=
  ⟨_, rfl, by decide +kernel⟩

theorem declared_targets_trio :
    loadedTrio.declared.filter (·.program = "enter") = [⟨"enter", "uprobe/f", .entry, "f"⟩] ∧
    loadedTrio.declared.filter (·.program = "leave") =
      [⟨"leave", "uretprobe/leave", .exit, "leave"⟩] ∧
    loadedTrio.declared.filter (·.program = "g") = [⟨"g", "uprobe/g", .entry, "g"⟩] := by
  obtain ⟨image, himage, hplaced⟩ := read_trio
  have hapart : ∀ other, Elf.Container.read trio = .ok (.elf other) → FunctionsApart other := by
    intro other hother
    cases himage.symm.trans hother
    exact Probe.functionsApart_of_nodup (by rw [hplaced]; decide)
  have htargets := declared_targets (fun _ => .ok trio) {} "trio.o" trio loadedTrio rfl hapart
    load_trio
  have hbare (s : Spelling) (target : String) : "uprobe" ≠ s.home target := fun heq => by
    have hslash : '/' ∈ "uprobe".toList := by
      rw [heq, Spelling.toList_home]
      exact List.mem_append_right _ List.mem_cons_self
    exact absurd hslash (by decide)
  obtain ⟨_, _, henter, _⟩ := htargets "enter" ⟨_, _, _⟩ .entry (.head _) rfl
  obtain ⟨_, _, hleave, _⟩ := htargets "leave" ⟨_, _, _⟩ .exit (.tail _ (.head _)) rfl
  obtain ⟨_, _, _, hg⟩ := htargets "g" ⟨_, _, _⟩ .entry (.tail _ (.tail _ (.head _))) rfl
  exact ⟨henter ⟨.entry, false⟩ "f" (by decide) rfl, hleave ⟨.exit, true⟩ "f" (by decide) rfl,
    hg fun s target _ => hbare s target⟩

/-- The section of `leave` is spelled for `f`, and its one probe is for a function `leave`. -/
theorem leave_off_target :
    (∃ image, Elf.Container.read trio = .ok (.elf image) ∧ FunctionsApart image) ∧
    (load (fun _ => .ok trio) {} "trio.o").answer = .ok loadedTrio ∧
    ("leave", ⟨"leave", some .exit, "uretprobe.s/f"⟩) ∈ loadedTrio.programs ∧
    "uretprobe.s/f" = (⟨.exit, true⟩ : Spelling).home "f" ∧
    loadedTrio.declared.filter (·.program = "leave") =
      [⟨"leave", "uretprobe/leave", .exit, "leave"⟩] := by
  obtain ⟨image, himage, hplaced⟩ := read_trio
  have hapart : FunctionsApart image := Probe.functionsApart_of_nodup (by rw [hplaced]; decide)
  refine ⟨⟨image, himage, hapart⟩, load_trio, .tail _ (.head _), rfl, ?_⟩
  exact Probe.declared_filter loadedTrio.homes (by decide) (.tail _ (.head _)) (by decide)

end Artifact

end LookupTap
