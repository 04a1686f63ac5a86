import LookupTap.Artifact.Object

/-! How the sections of probes are spelled, to the loader and to a probe.

The loader takes four first parts for probes: each kind has a plain one and one for programs that
may sleep. A slash and a target may come after it. A probe reads its target behind the plain first
parts only (`parse_home`); in every other section of probes it is what it would be without one. -/
namespace LookupTap

namespace Probe

/-- What the name of a probe's section starts with. -/
structure Spelling where
  kind : Kind
  sleepable : Bool
  deriving DecidableEq, Repr

namespace Spelling

def first : Spelling → String
  | ⟨.entry, false⟩ => "uprobe"
  | ⟨.entry, true⟩ => "uprobe.s"
  | ⟨.exit, false⟩ => "uretprobe"
  | ⟨.exit, true⟩ => "uretprobe.s"

/-- The section for a target. -/
def home (s : Spelling) (target : String) : String := s.first ++ "/" ++ target

def all : List Spelling :=
  [⟨.entry, false⟩, ⟨.entry, true⟩, ⟨.exit, false⟩, ⟨.exit, true⟩]

theorem toList_home (s : Spelling) (target : String) :
    (s.home target).toList = s.first.toList ++ '/' :: target.toList := by
  rw [home, String.toList_append, String.toList_append, List.append_assoc]
  rfl

theorem slash_not_mem_first (s : Spelling) : '/' ∉ s.first.toList := by
  obtain ⟨_ | _, _ | _⟩ := s <;> decide

end Spelling

end Probe

/-! ### What the loader makes of a section -/

namespace Artifact
open Probe (Spelling)

theorem Rest.allows_anything (names : List String) : Rest.anything.allows names = true := by
  cases names <;> rfl

theorem get?_first (s : Spelling) :
    Keyed.get? s.first sectionKinds = some (.anything, some s.kind) := by
  obtain ⟨_ | _, _ | _⟩ := s <;> rfl

theorem probes_spelled : ∀ entry ∈ sectionKinds, entry.2.2 = none ∨
    ∃ s ∈ Spelling.all, s.first = entry.1 ∧ some s.kind = entry.2.2 := by
  decide

/-- The loader takes all spellings for probes of their kinds, whatever the target is. -/
theorem programKind?_home (s : Spelling) (target : String) :
    programKind? (s.home target) = some (some s.kind) := by
  have hparts : (s.home target).toList.splitOn '/' =
      s.first.toList :: target.toList.splitOn '/' := by
    rw [Spelling.toList_home, List.splitOn_eq_splitOnP, List.splitOn_eq_splitOnP]
    refine List.splitOnP_append_cons_of_forall_mem (p := (· == '/')) (fun c hc => ?_) '/'
      (beq_self_eq_true _) _
    exact beq_false_of_ne fun heq => s.slash_not_mem_first (heq ▸ hc)
  rw [programKind?, hparts]
  simp only [List.map_cons, String.ofList_toList, get?_first, Rest.allows_anything, if_true]

/-- A name whose first part is that of a spelling is it, or goes on with a target. -/
theorem spelled_of_splitOn {s : Spelling} {home : String} {rest : List (List Char)}
    (h : home.toList.splitOn '/' = s.first.toList :: rest) :
    home = s.first ∨ ∃ target, home = s.home target := by
  have hjoined : ['/'].intercalate (s.first.toList :: rest) = home.toList :=
    h ▸ List.intercalate_splitOn '/'
  cases rest with
  | nil =>
    refine .inl (String.toList_inj.mp ?_)
    rw [← hjoined]
    exact List.append_nil _
  | cons next later =>
    refine .inr ⟨String.ofList (['/'].intercalate (next :: later)), String.toList_inj.mp ?_⟩
    rw [← hjoined, Spelling.toList_home, String.toList_ofList]
    rfl

/-- A section of probes has one of the four first parts, alone or in front of a target. -/
theorem spelled_of_programKind? {home : String} {kind : Probe.Kind}
    (h : programKind? home = some (some kind)) :
    ∃ s : Spelling, s.kind = kind ∧ (home = s.first ∨ ∃ target, home = s.home target) := by
  unfold programKind? at h
  cases hparts : home.toList.splitOn '/' with
  | nil =>
    rw [hparts] at h
    cases h
  | cons part rest =>
    rw [hparts] at h
    simp only [List.map_cons] at h
    split at h
    · next allowed found hfound =>
      split at h
      · cases h
        obtain hnone | ⟨s, _, hfirst, hkind⟩ := probes_spelled _ (Keyed.mem_of_get? hfound)
        · cases hnone
        · have hpart : part = s.first.toList := by rw [hfirst, String.toList_ofList]
          exact ⟨s, Option.some.inj hkind, spelled_of_splitOn (hpart ▸ hparts)⟩
      · cases h
    · cases h

end Artifact

/-! ### What a probe reads from it -/

namespace Probe

/-- The raw names are the sections with plain spellings. -/
theorem named?_home (s : Spelling) (target : String) :
    named? (s.home target) = if s.sleepable then none else some (s.kind, target) := by
  have hsame : String.ofList target.toList = target := String.ofList_toList
  unfold named? after?
  rw [Spelling.toList_home]
  obtain ⟨_ | _, _ | _⟩ := s
  · exact congrArg (fun t => some (Kind.entry, t)) hsame
  · rfl
  · exact congrArg (fun t => some (Kind.exit, t)) hsame
  · rfl

theorem parse_home (s : Spelling) (target : String) :
    parse (s.home target) =
      if s.sleepable ∨ target = "" then none
      else some ⟨s.home target, s.home target, s.kind, target⟩ := by
  rw [parse, named?_home]
  cases s.sleepable <;> simp

theorem parse_first (s : Spelling) : parse s.first = none := by
  obtain ⟨_ | _, _ | _⟩ := s <;> rfl

end Probe

end LookupTap
