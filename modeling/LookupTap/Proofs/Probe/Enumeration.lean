import LookupTap.Proofs.Probe.Pass
import LookupTap.Proofs.Probe.Target
import Mathlib.Data.List.Nodup

/-! What a pass owes to the order of an artifact's programs.

The loader lists the programs of an artifact in any order. The declared probes are sorted by raw
name, and probes of one raw name stay in the order of their programs (`filter_sorted`). So the
order of the programs shows in the list of probes just where probes share a raw name
(`declared_relisted`); it cannot show anywhere else, since a host finds programs by their names. -/
namespace LookupTap

namespace Probe

/-! ### Sorting by raw name -/

/-- In the order of raw names. -/
def Ordered (ps : List Probe) : Prop := ps.Pairwise fun p q => p.rawName ≤ q.rawName

instance (ps : List Probe) : Decidable (Ordered ps) :=
  inferInstanceAs (Decidable (ps.Pairwise fun p q => p.rawName ≤ q.rawName))

theorem rawName_trans (p q r : Probe) (hpq : decide (p.rawName ≤ q.rawName) = true)
    (hqr : decide (q.rawName ≤ r.rawName) = true) : decide (p.rawName ≤ r.rawName) = true :=
  decide_eq_true (String.le_trans (of_decide_eq_true hpq) (of_decide_eq_true hqr))

theorem rawName_total (p q : Probe) :
    (decide (p.rawName ≤ q.rawName) || decide (q.rawName ≤ p.rawName)) = true := by
  simpa using String.le_total p.rawName q.rawName

theorem sorted_perm (ps : List Probe) : (sorted ps).Perm ps := List.mergeSort_perm ..

theorem sorted_ordered (ps : List Probe) : Ordered (sorted ps) :=
  (List.pairwise_mergeSort rawName_trans rawName_total ps).imp of_decide_eq_true

theorem sorted_of_ordered {ps : List Probe} (h : Ordered ps) : sorted ps = ps :=
  List.mergeSort_of_pairwise (h.imp fun hle => decide_eq_true hle)

/-- Sorting leaves probes of one raw name as they were. -/
theorem filter_sorted (ps : List Probe) (raw : String) :
    (sorted ps).filter (·.rawName = raw) = ps.filter (·.rawName = raw) := by
  have hordered : (ps.filter (·.rawName = raw)).Pairwise
      fun p q => decide (p.rawName ≤ q.rawName) = true := by
    refine List.pairwise_of_forall_mem_list fun p hp q hq => decide_eq_true ?_
    have hraw : p.rawName = q.rawName :=
      (of_decide_eq_true (List.mem_filter.mp hp).2).trans
        (of_decide_eq_true (List.mem_filter.mp hq).2).symm
    exact hraw ▸ String.le_refl _
  have hkept : (ps.filter (·.rawName = raw)).Sublist (sorted ps) :=
    List.sublist_mergeSort rawName_trans rawName_total hordered List.filter_sublist
  have hwithin := hkept.filter (·.rawName = raw)
  simp only [List.filter_filter, Bool.and_self] at hwithin
  exact (hwithin.eq_of_length ((sorted_perm ps).filter _).length_eq.symm).symm

theorem Ordered.head_le {p : Probe} {ps : List Probe} (h : Ordered (p :: ps)) {q : Probe}
    (hq : q ∈ p :: ps) : p.rawName ≤ q.rawName := by
  rcases List.mem_cons.mp hq with rfl | hin
  · exact String.le_refl _
  · exact List.rel_of_pairwise_cons h hin

theorem mem_iff_of_filter_eq {ps qs : List Probe}
    (h : ∀ raw, ps.filter (·.rawName = raw) = qs.filter (·.rawName = raw)) (p : Probe) :
    p ∈ ps ↔ p ∈ qs := by
  have hmem := congrArg (p ∈ ·) (h p.rawName)
  simpa using hmem

/-- Lists in order are told apart by the probes of one raw name. -/
theorem eq_of_filter_eq {ps qs : List Probe} (hps : Ordered ps) (hqs : Ordered qs)
    (h : ∀ raw, ps.filter (·.rawName = raw) = qs.filter (·.rawName = raw)) : ps = qs := by
  have hmem := mem_iff_of_filter_eq h
  induction ps generalizing qs with
  | nil =>
    exact (List.eq_nil_iff_forall_not_mem.mpr fun q hq => List.not_mem_nil ((hmem q).mpr hq)).symm
  | cons p ps ih =>
    cases qs with
    | nil => exact absurd ((hmem p).mp List.mem_cons_self) List.not_mem_nil
    | cons q qs =>
      have hraw : q.rawName = p.rawName := String.le_antisymm
        (hqs.head_le ((hmem p).mp List.mem_cons_self))
        (hps.head_le ((hmem q).mpr List.mem_cons_self))
      have hfirst := h p.rawName
      rw [List.filter_cons_of_pos (by simp), List.filter_cons_of_pos (by simpa using hraw)]
        at hfirst
      obtain ⟨rfl, _⟩ := List.cons.inj hfirst
      have hrest : ∀ raw, ps.filter (·.rawName = raw) = qs.filter (·.rawName = raw) := by
        intro raw
        have hboth := h raw
        simp only [List.filter_cons] at hboth
        split at hboth
        · exact List.tail_eq_of_cons_eq hboth
        · exact hboth
      rw [ih (List.Pairwise.of_cons hps) (List.Pairwise.of_cons hqs) hrest
        (mem_iff_of_filter_eq hrest)]

theorem sorted_eq_iff (ps qs : List Probe) :
    sorted ps = sorted qs ↔
      ∀ raw, ps.filter (·.rawName = raw) = qs.filter (·.rawName = raw) := by
  constructor
  · intro h raw
    rw [← filter_sorted ps, ← filter_sorted qs, h]
  · intro h
    refine eq_of_filter_eq (sorted_ordered ps) (sorted_ordered qs) fun raw => ?_
    rw [filter_sorted, filter_sorted, h raw]

/-- Only a list of one reads the same backwards, if nothing stands in it twice. -/
theorem eq_of_reverse_eq {ps : List Probe} (hnodup : ps.Nodup) (h : ps.reverse = ps) {p q : Probe}
    (hp : p ∈ ps) (hq : q ∈ ps) : p = q := by
  cases ps with
  | nil => cases hp
  | cons first rest =>
    obtain rfl | ⟨init, last, rfl⟩ := rest.eq_nil_or_concat
    · rw [List.mem_singleton.mp hp, List.mem_singleton.mp hq]
    · rw [List.reverse_cons, List.concat_eq_append, List.reverse_append] at h
      have hlast : last = first := (List.cons.inj h).1
      exact absurd (by simp [hlast]) (List.nodup_cons.mp hnodup).1

/-! ### The probes of programs -/

/-- The probes of programs, in the order of the programs. -/
def enumerated (programs : List (String × Kind)) (homes : List (String × String)) : List Probe :=
  (programs.map fun (name, kind) => forProgram name (Keyed.get? name homes) kind).filter
    fun probe => !probe.target.isEmpty

theorem declared_eq_sorted (programs : List (String × Kind)) (homes : List (String × String)) :
    declared programs homes = sorted (enumerated programs homes) := rfl

/-- Everything of a probe but its program. -/
def aim (p : Probe) : String × Kind × String := (p.rawName, p.kind, p.target)

/-- What a raw name says on that. -/
def aimOf? (raw : String) : Option (String × Kind × String) :=
  (named? raw).map fun (kind, target) => (raw, kind, target)

theorem aimOf?_forProgram (name : String) (home : Option String) (kind : Kind) :
    aimOf? (forProgram name home kind).rawName = some (forProgram name home kind).aim := by
  rw [aimOf?, named?_eq_some_iff.mpr (rawName_forProgram name home kind)]
  rfl

/-! ### Programs in another order -/

section Order
variable {ps qs : List (String × Kind)} (homes : List (String × String))

theorem enumerated_perm (h : ps.Perm qs) : (enumerated ps homes).Perm (enumerated qs homes) :=
  (h.map _).filter _

theorem declared_perm (h : ps.Perm qs) : (declared ps homes).Perm (declared qs homes) :=
  (sorted_perm _).trans ((enumerated_perm homes h).trans (sorted_perm _).symm)

/-- At each position the raw name is the same, and with it the kind and the target. -/
theorem declared_aims (h : ps.Perm qs) :
    (declared ps homes).map aim = (declared qs homes).map aim := by
  have hraw : (declared ps homes).map (·.rawName) = (declared qs homes).map (·.rawName) :=
    List.Perm.eq_of_pairwise (fun _ _ _ _ => String.le_antisymm)
      (List.pairwise_map.mpr (sorted_ordered _)) (List.pairwise_map.mpr (sorted_ordered _))
      ((declared_perm homes h).map _)
  have hread : ∀ programs, ((declared programs homes).map aim).map some =
      ((declared programs homes).map (·.rawName)).map aimOf? := by
    intro programs
    rw [List.map_map, List.map_map]
    refine List.map_congr_left fun p hp => ?_
    obtain ⟨⟨name, kind⟩, _, rfl⟩ :=
      List.mem_map.mp (List.mem_filter.mp ((sorted_perm _).mem_iff.mp hp)).1
    exact (aimOf?_forProgram ..).symm
  refine List.map_injective_iff.mpr (fun _ _ => Option.some.inj) ?_
  rw [hread, hread, hraw]

theorem enumerated_reverse (ps : List (String × Kind)) :
    enumerated ps.reverse homes = (enumerated ps homes).reverse := by
  rw [enumerated, enumerated, List.map_reverse, List.filter_reverse]

theorem programs_enumerated (ps : List (String × Kind)) :
    ((enumerated ps homes).map (·.program)).Sublist (ps.map Prod.fst) := by
  have hmap : (ps.map fun (name, kind) => forProgram name (Keyed.get? name homes) kind).map
      (·.program) = ps.map Prod.fst := by
    rw [List.map_map]
    exact List.map_congr_left fun _ _ => forProgram_program ..
  rw [← hmap]
  exact List.filter_sublist.map _

/-- If no two probes share a raw name, their list is the same for all orders of the programs. -/
theorem declared_of_nodup (hdistinct : ((declared ps homes).map (·.rawName)).Nodup)
    (h : qs.Perm ps) : declared qs homes = declared ps homes := by
  refine List.Perm.eq_of_pairwise (fun p q hp hq hpq hqp => ?_) (sorted_ordered _)
    (sorted_ordered _) (declared_perm homes h)
  exact List.inj_on_of_nodup_map hdistinct ((declared_perm homes h).mem_iff.mp hp) hq
    (String.le_antisymm hpq hqp)

/-- If the reverse order of the programs makes no difference, no two probes share a raw name. -/
theorem nodup_of_declared_reverse (hapart : (ps.map Prod.fst).Nodup)
    (h : declared ps.reverse homes = declared ps homes) :
    ((declared ps homes).map (·.rawName)).Nodup := by
  have hnodup : (enumerated ps homes).Nodup :=
    List.Nodup.of_map _ ((programs_enumerated homes ps).nodup hapart)
  refine List.Nodup.map_on (fun p hp q hq hraw => ?_) ((sorted_perm _).nodup_iff.mpr hnodup)
  rw [declared_eq_sorted, declared_eq_sorted, sorted_eq_iff] at h
  have hreversed := h p.rawName
  rw [enumerated_reverse, List.filter_reverse] at hreversed
  exact eq_of_reverse_eq (hnodup.filter _) hreversed
    (List.mem_filter.mpr ⟨(sorted_perm _).mem_iff.mp hp, by simp⟩)
    (List.mem_filter.mpr ⟨(sorted_perm _).mem_iff.mp hq, by simpa using hraw.symm⟩)

end Order

end Probe

namespace Artifact

/-- The artifact with its programs listed in another way. -/
def relisted (programs : List (String × Program)) (a : Artifact) : Artifact := { a with programs }

/-- The probes of one raw name, in the order of the programs. -/
def sharing (a : Artifact) (raw : String) : List Probe :=
  (Probe.enumerated a.probes a.homes).filter (·.rawName = raw)

/-! ### Attaching by name -/

section Relisted
variable {programs : List (String × Program)}

theorem loadProgram_programs (a : Artifact) (k : Kernel) (name : String) :
    (a.loadProgram k name).2.1.programs = a.programs := by
  unfold loadProgram
  split
  · rfl
  · split <;> rfl

theorem loadProgram_relisted (a : Artifact) (k : Kernel) (name : String) :
    (a.relisted programs).loadProgram k name =
      ((a.loadProgram k name).1, (a.loadProgram k name).2.1.relisted programs,
        (a.loadProgram k name).2.2) := by
  have hloaded : (a.relisted programs).loaded = a.loaded := rfl
  simp only [loadProgram, hloaded]
  split
  · rfl
  · rcases k.ask .loadProgram with ⟨_ | e, k'⟩ <;> rfl

/-- A host finds a program by its name, wherever it is listed. -/
theorem host_follows {ps : List (String × Program)} (hapart : (ps.map Prod.fst).Nodup)
    (hperm : programs.Perm ps) (library : String) :
    Probe.Follows host library host (fun s => (s.1.relisted programs, s.2))
      (fun s => s.1.programs = ps) := by
  rintro ⟨a, k⟩ probe offset rfl
  have hfound : Keyed.get? probe.program (a.relisted programs).programs =
      Keyed.get? probe.program a.programs := Keyed.get?_perm hapart hperm probe.program
  have hprograms := loadProgram_programs a k probe.program
  simp only [host, attach, hfound, loadProgram_relisted]
  cases (Keyed.get? probe.program a.programs).bind Program.kind with
  | none => exact ⟨rfl, rfl⟩
  | some kind =>
    rcases hload : a.loadProgram k probe.program with ⟨_ | cause, a', k'⟩ <;>
      rw [hload] at hprograms
    · rcases hask : askSteps k' (attachCalls kind) with ⟨_ | cause, k''⟩ <;>
        simp only [hask] <;> exact ⟨hprograms, trivial⟩
    · exact ⟨hprograms, rfl⟩

theorem probes_perm {a : Artifact} (hperm : programs.Perm a.programs) :
    (a.relisted programs).probes.Perm a.probes := hperm.filterMap _

end Relisted

/-! ### Every order of the programs -/

variable {ρ : Type}

/-- **Where raw names are apart, the order of the programs does not show.** In whatever order the
loader lists the programs, the declared probes are the same ones, in the order of their raw names,
and with the same raw name, kind and target at each position. Which of several probes of one raw
name stands where is up to the order of the programs. So the list of probes is the same for all
orders just when no two of them share a raw name; and if it is, every pass over it does the same. -/
theorem declared_relisted (a : Artifact) (hapart : (a.programs.map Prod.fst).Nodup)
    (resolver : Resolver ρ) (library : String) (k : Kernel) (r : ρ) :
    (∀ programs, programs.Perm a.programs →
      let declared := (a.relisted programs).declared
      let p := Probe.pass host resolver library (a, k) r a.declared
      Probe.Ordered declared ∧ declared.Perm a.declared ∧
      declared.map Probe.aim = a.declared.map Probe.aim ∧
      (declared = a.declared ↔ ∀ raw, (a.relisted programs).sharing raw = a.sharing raw) ∧
      (declared = a.declared →
        Probe.pass host resolver library (a.relisted programs, k) r declared =
          (p.1, p.2.onHost fun s => (s.1.relisted programs, s.2)))) ∧
    ((∀ programs, programs.Perm a.programs → (a.relisted programs).declared = a.declared) ↔
      (a.declared.map (·.rawName)).Nodup) := by
  refine ⟨fun programs hperm => ⟨?_, ?_, ?_, ?_, ?_⟩, ?_, ?_⟩
  · exact Probe.sorted_ordered _
  · exact Probe.declared_perm a.homes (probes_perm hperm)
  · exact Probe.declared_aims a.homes (probes_perm hperm)
  · exact Probe.sorted_eq_iff _ _
  · intro hsame
    rw [hsame]
    have hkept : (a, k).1.programs = a.programs := rfl
    exact Probe.pass_follows resolver (host_follows hapart hperm library) hkept r a.declared
  · intro hfixed
    refine Probe.nodup_of_declared_reverse a.homes (nodup_probes hapart) ?_
    have hreverse := hfixed a.programs.reverse a.programs.reverse_perm
    rwa [declared, probes, relisted, List.filterMap_reverse] at hreverse
  · intro hdistinct programs hperm
    exact Probe.declared_of_nodup a.homes hdistinct (probes_perm hperm)

/-- An artifact with an entry and an exit probe on the function `f`. -/
def pair : Artifact where
  programs := [("enter", ⟨"enter", some .entry, "uprobe/f"⟩),
    ("leave", ⟨"leave", some .exit, "uretprobe/f"⟩)]
  homes := [("enter", "uprobe/f"), ("leave", "uretprobe/f")]

theorem declared_pair : pair.declared =
    [⟨"enter", "uprobe/f", .entry, "f"⟩, ⟨"leave", "uretprobe/f", .exit, "f"⟩] :=
  Probe.sorted_of_ordered (by decide)

/-- Its two probes have two raw names, so a pass that sees the programs the other way round attaches
them in the same order. -/
theorem declared_relisted_pair :
    let table : Resolver Unit := .ofTable ⟨[⟨"f", 16⟩]⟩
    let pair' := pair.relisted pair.programs.reverse
    pair'.declared = [⟨"enter", "uprobe/f", .entry, "f"⟩, ⟨"leave", "uretprobe/f", .exit, "f"⟩] ∧
      (Probe.pass host table "f.so" (pair', {}) () pair'.declared).2.host.2.attachments =
        [⟨.entry, "f.so", 16⟩, ⟨.exit, "f.so", 16⟩] := by
  intro table pair'
  obtain ⟨hevery, hfixed⟩ := declared_relisted pair (by decide) table "f.so" {} ()
  have hsame : pair'.declared = pair.declared := by
    refine hfixed.mpr ?_ pair.programs.reverse pair.programs.reverse_perm
    rw [declared_pair]
    decide
  obtain ⟨_, _, _, _, hpass⟩ := hevery pair.programs.reverse pair.programs.reverse_perm
  refine ⟨hsame.trans declared_pair, ?_⟩
  rw [hpass hsame, declared_pair]
  decide +kernel

/-- An artifact with two programs whose raw names are the same: `leave` by its section, and
`uretprobe/f` by its own name, which is in a section for entry probes without a target. -/
def tied : Artifact where
  programs := [("leave", ⟨"leave", some .exit, "uretprobe/f"⟩),
    ("uretprobe/f", ⟨"uretprobe/f", some .entry, "uprobe"⟩)]
  homes := [("leave", "uretprobe/f"), ("uretprobe/f", "uprobe")]

/-- Where the kernel does not take exit probes, the order of these programs decides whether
anything is attached. -/
theorem tied_relisted :
    let table : Resolver Unit := .ofTable ⟨[⟨"f", 16⟩]⟩
    let k : Kernel := { refusals := [⟨.returnFormat, .notPermitted, none⟩] }
    let tied' := tied.relisted tied.programs.reverse
    (tied.programs.map Prod.fst).Nodup ∧ tied'.programs.Perm tied.programs ∧
      tied.declared.map (·.program) = ["leave", "uretprobe/f"] ∧
      tied'.declared.map (·.program) = ["uretprobe/f", "leave"] ∧
      (Probe.pass host table "f.so" (tied, k) () tied.declared).2.host.2.attachments = [] ∧
      (Probe.pass host table "f.so" (tied', k) () tied'.declared).2.host.2.attachments =
        [⟨.entry, "f.so", 16⟩] := by
  intro table k tied'
  have hlisted : tied.declared =
      [⟨"leave", "uretprobe/f", .exit, "f"⟩, ⟨"uretprobe/f", "uretprobe/f", .exit, "f"⟩] :=
    Probe.sorted_of_ordered (by decide)
  have hreversed : tied'.declared =
      [⟨"uretprobe/f", "uretprobe/f", .exit, "f"⟩, ⟨"leave", "uretprobe/f", .exit, "f"⟩] :=
    Probe.sorted_of_ordered (by decide)
  rw [hlisted, hreversed]
  refine ⟨by decide, tied.programs.reverse_perm, rfl, rfl, ?_, ?_⟩ <;> decide +kernel

end Artifact
end LookupTap
