import LookupTap.Probe
import Mathlib.Data.List.Basic

/-! From a probe to its raw name and back.

A pass, its log and its faults know a probe by its raw name alone. That is enough if the raw name
says the kind and the target. A raw name is the lead of a kind and a target, and in one way only
(`named?_eq_some_iff`, `lead_append_inj`). The probe of a program is named in one of three ways: for
its section, for the program, or for the loader's kind and the program (`Origin`). Each of them leaves
the lead of the probe's kind with its target behind it. So a raw name reads as its probe again, unless
there is no target in it, and two probes with one raw name are alike but for their programs
(`rawName_round_trip`). -/
namespace LookupTap.Probe

/-! ### Leads -/

theorem after?_eq_some_iff {lead text rest : String} :
    after? lead text = some rest ↔ text = lead ++ rest := by
  rw [after?, Option.map_eq_some_iff]
  constructor
  · rintro ⟨cs, hprefix, rfl⟩
    apply String.toList_inj.mp
    rw [String.toList_append, String.toList_ofList]
    exact (List.isPrefixOf?_eq_some_iff_append_eq.mp hprefix).symm
  · rintro rfl
    refine ⟨rest.toList, List.isPrefixOf?_eq_some_iff_append_eq.mpr ?_, String.ofList_toList⟩
    rw [String.toList_append]

/-- No text has both leads in front: they part at the second letter. -/
theorem after?_entry {target : String} : after? Kind.exit.lead (Kind.entry.lead ++ target) = none := by
  rw [Option.eq_none_iff_forall_ne_some]
  intro rest h
  have hsame := congrArg String.toList (after?_eq_some_iff.mp h)
  simp [Kind.lead] at hsame

theorem named?_eq_some_iff {raw target : String} {kind : Kind} :
    named? raw = some (kind, target) ↔ raw = kind.lead ++ target := by
  constructor
  · intro h
    unfold named? at h
    split at h
    · next found hfound =>
      cases h
      exact after?_eq_some_iff.mp hfound
    · obtain ⟨found, hfound, heq⟩ := Option.map_eq_some_iff.mp h
      cases heq
      exact after?_eq_some_iff.mp hfound
  · rintro rfl
    cases kind with
    | exit =>
      have hexit : after? Kind.exit.lead (Kind.exit.lead ++ target) = some target :=
        after?_eq_some_iff.mpr rfl
      rw [named?, hexit]
    | entry =>
      have hentry : after? Kind.entry.lead (Kind.entry.lead ++ target) = some target :=
        after?_eq_some_iff.mpr rfl
      rw [named?, after?_entry, hentry]
      rfl

/-- A text is a lead and a target in one way at most. -/
theorem lead_append_inj {kind kind' : Kind} {target target' : String}
    (h : kind.lead ++ target = kind'.lead ++ target') : kind = kind' ∧ target = target' := by
  have hsame := (named?_eq_some_iff.mpr h).symm.trans (named?_eq_some_iff.mpr rfl)
  exact Prod.mk.inj (Option.some.inj hsame).symm

/-! ### What is read -/

/-- What is read as a raw name is a lead with a target behind it. -/
theorem parse_eq_some_iff {raw : String} {p : Probe} :
    parse raw = some p ↔
      ∃ kind target, target ≠ "" ∧ raw = kind.lead ++ target ∧ p = ⟨raw, raw, kind, target⟩ := by
  unfold parse
  constructor
  · intro h
    split at h
    · cases h
    · next kind target hnamed =>
      split at h
      · cases h
      · next hnonempty =>
        cases h
        exact ⟨kind, target, by simpa using hnonempty, named?_eq_some_iff.mp hnamed, rfl⟩
  · rintro ⟨kind, target, htarget, hraw, rfl⟩
    rw [named?_eq_some_iff.mpr hraw]
    simp [htarget]

theorem rawName_of_parse {raw : String} {p : Probe} (h : parse raw = some p) :
    p.rawName = p.kind.lead ++ p.target := by
  obtain ⟨_, _, _, hraw, rfl⟩ := parse_eq_some_iff.mp h
  exact hraw

theorem target_ne_of_parse {raw : String} {p : Probe} (h : parse raw = some p) : p.target ≠ "" := by
  obtain ⟨_, _, htarget, _, rfl⟩ := parse_eq_some_iff.mp h
  exact htarget

/-! ### What the probe of a program is named for -/

theorem forProgram_of_unread {program : String} {home : Option String} {kind : Kind}
    (h : home.bind parse = none) :
    forProgram program home kind =
      (parse program).getD ⟨program, kind.lead ++ program, kind, program⟩ := by
  rw [forProgram, h]

/-- Where the probe of a program has its raw name from. -/
inductive Origin (program : String) (home : Option String) (kind : Kind) : Probe → Prop where
  | home {named : Kind} {target : String} (htarget : target ≠ "")
      (hhome : home = some (named.lead ++ target)) :
      Origin program home kind ⟨program, named.lead ++ target, named, target⟩
  | program {named : Kind} {target : String} (hunread : home.bind parse = none)
      (htarget : target ≠ "") (hprogram : program = named.lead ++ target) :
      Origin program home kind ⟨program, program, named, target⟩
  | loader (hunread : home.bind parse = none) (hunnamed : parse program = none) :
      Origin program home kind ⟨program, kind.lead ++ program, kind, program⟩

theorem forProgram_origin (program : String) (home : Option String) (kind : Kind) :
    Origin program home kind (forProgram program home kind) := by
  cases hread : home.bind parse with
  | some found =>
    obtain ⟨place, hplace, hparse⟩ := Option.bind_eq_some_iff.mp hread
    obtain ⟨named, target, htarget, rfl, rfl⟩ := parse_eq_some_iff.mp hparse
    rw [forProgram, hread]
    exact .home htarget hplace
  | none =>
    rw [forProgram_of_unread hread]
    -- the program's own name goes before the loader's kind
    cases hparse : parse program with
    | some found =>
      obtain ⟨named, target, htarget, hprogram, rfl⟩ := parse_eq_some_iff.mp hparse
      exact .program hread htarget hprogram
    | none => exact .loader hread hparse

section Origin
variable {program : String} {home : Option String} {kind : Kind} {p : Probe}

theorem Origin.program_eq (h : Origin program home kind p) : p.program = program := by
  cases h <;> rfl

theorem Origin.rawName_eq (h : Origin program home kind p) :
    p.rawName = p.kind.lead ++ p.target := by
  cases h with
  | home htarget hhome => rfl
  | program hunread htarget hprogram => exact hprogram
  | loader hunread hunnamed => rfl

/-- Only a program without a name, in a section without a target, has a probe without one. -/
theorem Origin.target_eq_empty_iff (h : Origin program home kind p) :
    p.target = "" ↔ program = "" ∧ home.bind parse = none := by
  cases h with
  | @home named target htarget hhome =>
    refine iff_of_false htarget fun ⟨_, hunread⟩ => ?_
    rw [hhome, Option.bind_some, parse_eq_some_iff.mpr ⟨named, target, htarget, rfl, rfl⟩] at hunread
    cases hunread
  | program hunread htarget hprogram =>
    refine iff_of_false htarget fun ⟨hnameless, _⟩ => htarget ?_
    exact (String.append_eq_empty_iff.mp (hprogram.symm.trans hnameless)).2
  | loader hunread hunnamed => exact ⟨fun hnameless => ⟨hnameless, hunread⟩, And.left⟩

end Origin

theorem forProgram_program (program : String) (home : Option String) (kind : Kind) :
    (forProgram program home kind).program = program :=
  (forProgram_origin program home kind).program_eq

/-- The raw name of a probe is the lead of its kind with its target behind it. -/
theorem rawName_forProgram (program : String) (home : Option String) (kind : Kind) :
    let p := forProgram program home kind
    p.rawName = p.kind.lead ++ p.target :=
  (forProgram_origin program home kind).rawName_eq

theorem forProgram_target_ne {program : String} (hprogram : program ≠ "") (home : Option String)
    (kind : Kind) : (forProgram program home kind).target ≠ "" := by
  intro hempty
  exact hprogram ((forProgram_origin program home kind).target_eq_empty_iff.mp hempty).1

/-! ### There and back -/

/-- The probes that there are: read from a raw name, or made for a program. -/
inductive Made : Probe → Prop where
  | read {raw : String} {p : Probe} (h : parse raw = some p) : Made p
  | ofProgram (program : String) (home : Option String) (kind : Kind) :
      Made (forProgram program home kind)

theorem Made.rawName_eq {p : Probe} (h : Made p) : p.rawName = p.kind.lead ++ p.target := by
  cases h with
  | read hparse => exact rawName_of_parse hparse
  | ofProgram program home kind => exact rawName_forProgram program home kind

/-- What the raw name of a probe reads as is the probe, for a program of that name. -/
theorem Made.parse_rawName_iff {p : Probe} (h : Made p) :
    parse p.rawName = some { p with program := p.rawName } ↔ p.target ≠ "" := by
  constructor
  · intro hparse
    exact (target_ne_of_parse hparse :)
  · intro htarget
    exact parse_eq_some_iff.mpr ⟨p.kind, p.target, htarget, h.rawName_eq, rfl⟩

theorem Made.rawName_eq_iff {p q : Probe} (hp : Made p) (hq : Made q) :
    p.rawName = q.rawName ↔ p.kind = q.kind ∧ p.target = q.target := by
  rw [hp.rawName_eq, hq.rawName_eq]
  constructor
  · exact lead_append_inj
  · rintro ⟨hkind, htarget⟩
    rw [hkind, htarget]

/-- **A raw name says the kind and the target of its probe, and reads as that probe again.** The probe
of a program has the program's name, and as its raw name the lead of its kind with its target behind
it. That reads as a probe of the same raw name, kind and target just where there is a target, which is
missing only for a program without a name in a section that says none. What is read is a lead with
something behind it, no less and no more, and there is one way to take it apart. So whatever they
were made from, probes share a raw name if and only if they share kind and target. -/
theorem rawName_round_trip (program : String) (home : Option String) (kind : Kind) :
    let p := forProgram program home kind
    p.program = program ∧ p.rawName = p.kind.lead ++ p.target ∧
    (parse p.rawName = some { p with program := p.rawName } ↔ p.target ≠ "") ∧
    (p.target = "" ↔ program = "" ∧ home.bind parse = none) ∧
    (∀ raw q, parse raw = some q ↔
      ∃ kind target, target ≠ "" ∧ raw = kind.lead ++ target ∧ q = ⟨raw, raw, kind, target⟩) ∧
    (∀ (kind kind' : Kind) (target target' : String),
      kind.lead ++ target = kind'.lead ++ target' → kind = kind' ∧ target = target') ∧
    (∀ q q', Made q → Made q' →
      (q.rawName = q'.rawName ↔ q.kind = q'.kind ∧ q.target = q'.target)) := by
  intro p
  have horigin : Origin program home kind p := forProgram_origin program home kind
  have hmade : Made p := .ofProgram program home kind
  refine ⟨horigin.program_eq, horigin.rawName_eq, hmade.parse_rawName_iff,
    horigin.target_eq_empty_iff, ?_, ?_, ?_⟩
  · intro raw q
    exact parse_eq_some_iff
  · intro kind kind' target target' hsame
    exact lead_append_inj hsame
  · intro q q' hq hq'
    exact hq.rawName_eq_iff hq'

/-- A lead with nothing behind it is a name like any other, and may be a target. -/
example :
    forProgram "uprobe/" (some "uretprobe/") .exit =
      ⟨"uprobe/", "uretprobe/uprobe/", .exit, "uprobe/"⟩ ∧
    parse "uretprobe/uprobe/" = some ⟨"uretprobe/uprobe/", "uretprobe/uprobe/", .exit, "uprobe/"⟩ := by
  decide

end LookupTap.Probe
