import LookupTap.Proofs.Probe.Enumeration

/-! Whose word the kind is that a raw name spells.

A probe takes its kind from the first of three that has one to say: the section, if it is spelled
with a target; the program's own name, if that is a raw name; and the loader. The section never says
anything but the loader's kind, so the kind is the loader's unless the program is named for a probe
of the other one and its section has no target to say (`kind_recorded`). -/
namespace LookupTap.Probe

/-- The kind that a kind is not. -/
def Kind.other : Kind → Kind
  | entry => exit
  | exit => entry

theorem Kind.ne_iff {kind kind' : Kind} : kind' ≠ kind ↔ kind' = kind.other := by
  cases kind <;> cases kind' <;> decide

/-! ### The three that may say a kind -/

/-- A section of the loader's kind says that kind, or nothing. -/
theorem kind_of_section {home : String} {kind : Kind}
    (hkind : Artifact.programKind? home = some (some kind)) {p : Probe} (h : parse home = some p) :
    p.kind = kind := by
  obtain ⟨s, rfl, rfl | ⟨target, rfl⟩⟩ := Artifact.spelled_of_programKind? hkind
  · rw [parse_first] at h
    cases h
  · rw [parse_home] at h
    split at h
    · cases h
    · cases h
      rfl

/-- Where the section says nothing, the program's own name goes before the loader. -/
theorem kind_of_name (program : String) {home : Option String} (kind : Kind)
    (hunread : home.bind parse = none) :
    let p := forProgram program home kind
    (p.kind = kind ∧ ∀ target, target ≠ "" → program ≠ kind.other.lead ++ target) ∨
      ∃ target, target ≠ "" ∧ program = kind.other.lead ++ target ∧
        p = ⟨program, program, kind.other, target⟩ := by
  intro p
  have hp : p = (parse program).getD ⟨program, kind.lead ++ program, kind, program⟩ :=
    forProgram_of_unread hunread
  cases hparse : parse program with
  | none =>
    rw [hparse] at hp
    refine .inl ⟨congrArg Probe.kind hp, fun target htarget hprogram => ?_⟩
    rw [parse_eq_some_iff.mpr ⟨kind.other, target, htarget, hprogram, rfl⟩] at hparse
    cases hparse
  | some found =>
    rw [hparse] at hp
    obtain ⟨named, target, htarget, hprogram, rfl⟩ := parse_eq_some_iff.mp hparse
    by_cases hnamed : named = kind
    · subst hnamed
      refine .inl ⟨congrArg Probe.kind hp, fun target' _ hprogram' => ?_⟩
      exact Kind.ne_iff.mpr rfl (lead_append_inj (hprogram'.symm.trans hprogram)).1
    · obtain rfl : named = kind.other := Kind.ne_iff.mp hnamed
      exact .inr ⟨target, htarget, hprogram, hp⟩

/-- **The kind of a probe is the loader's, unless its program is named for the other kind and its
section has no target.** Then, and only then, the probe has the other kind, and its raw name is the
program's name, which does not start with the lead of the loader's kind. -/
theorem kind_recorded (program : String) (home : Option String) (kind : Kind)
    (hhome : ∀ place, home = some place → Artifact.programKind? place = some (some kind)) :
    let p := forProgram program home kind
    (p.kind = kind ↔
      (∃ target, target ≠ "" ∧ home = some (kind.lead ++ target)) ∨
        ∀ target, target ≠ "" → program ≠ kind.other.lead ++ target) ∧
    ((∃ rest, p.rawName = kind.lead ++ rest) ↔ p.kind = kind) ∧
    (p.kind ≠ kind → p = ⟨program, program, kind.other, p.target⟩) := by
  intro p
  have hraw : p.rawName = p.kind.lead ++ p.target := rawName_forProgram program home kind
  have hstarts : (∃ rest, p.rawName = kind.lead ++ rest) ↔ p.kind = kind := by
    constructor
    · rintro ⟨rest, hrest⟩
      exact (lead_append_inj (hraw.symm.trans hrest)).1
    · intro hkind
      exact ⟨p.target, hkind ▸ hraw⟩
  cases hread : home.bind parse with
  | some found =>
    obtain ⟨place, hplace, hparse⟩ := Option.bind_eq_some_iff.mp hread
    have hp : p = { found with program } := by simp only [p, forProgram, hread]
    have hfound : found.kind = kind := kind_of_section (hhome place hplace) hparse
    have hkind : p.kind = kind := by rw [hp, ← hfound]
    obtain ⟨named, target, htarget, hspelled, rfl⟩ := parse_eq_some_iff.mp hparse
    refine ⟨iff_of_true hkind (.inl ⟨target, htarget, ?_⟩), hstarts, fun hne => absurd hkind hne⟩
    rw [hplace, hspelled, ← hfound]
  | none =>
    have hbare : ¬ ∃ target, target ≠ "" ∧ home = some (kind.lead ++ target) := by
      rintro ⟨target, htarget, rfl⟩
      rw [Option.bind_some, parse_eq_some_iff.mpr ⟨kind, target, htarget, rfl, rfl⟩] at hread
      cases hread
    obtain ⟨hkind, hother⟩ | ⟨target, htarget, hprogram, hmisnamed⟩ :=
      kind_of_name program kind hread
    · exact ⟨iff_of_true hkind (.inr hother), hstarts, fun hne => absurd hkind hne⟩
    · have hp : p = ⟨program, program, kind.other, target⟩ := hmisnamed
      have hkind : p.kind ≠ kind := by
        rw [hp]
        exact Kind.ne_iff.mpr rfl
      refine ⟨iff_of_false hkind ?_, hstarts, fun _ => by rw [hp]⟩
      rintro (htargeted | hnamed)
      · exact hbare htargeted
      · exact hnamed target htarget hprogram

/-- A program named for the other kind, in a section with a target and in one without. -/
theorem kind_recorded_pair :
    (forProgram "uprobe/f" (some "uretprobe/g") .exit).kind = .exit ∧
    (forProgram "uprobe/f" (some "uretprobe.s") .exit).kind ≠ .exit := by
  obtain ⟨htargeted, _, _⟩ := kind_recorded "uprobe/f" (some "uretprobe/g") .exit
    (fun _ h => Option.some.inj h ▸ by decide)
  obtain ⟨hbare, _, _⟩ := kind_recorded "uprobe/f" (some "uretprobe.s") .exit
    (fun _ h => Option.some.inj h ▸ by decide)
  refine ⟨htargeted.mpr (.inl ⟨"g", by decide, by decide⟩), fun hkind => ?_⟩
  obtain ⟨target, _, hhome⟩ | hnamed := hbare.mp hkind
  · have hsame := congrArg String.toList (Option.some.inj hhome)
    simp [Kind.lead] at hsame
  · exact hnamed "f" (by decide) (by decide)

/-- The loader attaches the program on entry, and the probe is one on exit. -/
theorem kind_of_misnamed :
    Artifact.programKind? "uprobe" = some (some .entry) ∧
    forProgram "uretprobe/f" (some "uprobe") .entry = ⟨"uretprobe/f", "uretprobe/f", .exit, "f"⟩ := by
  decide

end LookupTap.Probe
