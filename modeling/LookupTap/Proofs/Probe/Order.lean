import LookupTap.Proofs.Probe.Reading
import LookupTap.Proofs.Probe.Verdict
import Mathlib.Data.Nat.Find

/-! What a pass owes to the order of its probes.

A pass stops at its first fatal probe, so over the same probes in another order it does other
things. How it ends does not depend on the order, though, where a probe is fatal by itself: the
resolver has a table at hand, and the host's answer about a probe is the same whatever it has been
asked before (`Steady`). Then no probe is fatal in one order just when none is in the other
(`Unfailing.perm`), and without a fatal probe everyone has a turn in both. -/
namespace LookupTap.Probe

variable {η : Type}

/-- What the host answers about a probe does not depend on what it has been asked before. -/
def Steady (host : Host η) (library : String) : Prop :=
  ∀ h h' probe offset,
    (host.attach h probe library offset).answer = (host.attach h' probe library offset).answer

/-- An attachment, as the kernel knows it: which program, in which file, at which offset. -/
def Attachment.place (library : String) (a : Attachment) : String × String × Nat :=
  (a.probe.program, library, a.offset)

section Table
variable (host : Host η) (t : SymbolTable) (library : String)

/-- No probe is fatal. -/
def Unfailing (h : η) (probes : List Probe) : Prop :=
  ∀ probe ∈ probes, fatal? host (.ofTable t) library h () probe = none

variable {host t library} in
/-- In whatever order they come. -/
theorem Unfailing.perm {h : η} {probes others : List Probe} (hperm : probes.Perm others)
    (hnone : Unfailing host t library h probes) : Unfailing host t library h others :=
  fun probe hin => hnone probe (hperm.mem_iff.mpr hin)

/-- What a table answers to probes. -/
def answersOf (probes : List Probe) : List (Probe × Except Fault Nat) :=
  probes.map fun probe => (probe, t.resolve library probe.target)

theorem answers_ofTable (probes : List Probe) :
    answers (.ofTable t) library () probes = answersOf t library probes := by
  induction probes with
  | nil => rfl
  | cons probe rest ih => exact congrArg ((probe, t.resolve library probe.target) :: ·) ih

/-! ### One order -/

section Steady
variable {host library} (hsteady : Steady host library)
include hsteady

theorem fatal?_steady (h h' : η) (probe : Probe) :
    fatal? host (.ofTable t) library h () probe = fatal? host (.ofTable t) library h' () probe := by
  unfold fatal?
  split
  · rfl
  · rfl
  · next offset _ => rw [hsteady h h' probe offset]

theorem Unfailing.anywhere {h : η} (h' : η) {probes : List Probe}
    (hnone : Unfailing host t library h probes) : Unfailing host t library h' probes :=
  fun probe hin => (fatal?_steady t hsteady h' h probe).trans (hnone probe hin)

/-- Whether a probe is fatal is up to the probe, not to its turn. -/
theorem faultAt?_steady (h : η) (probes : List Probe) (k : Nat) :
    faultAt? host (.ofTable t) library h () probes k =
      probes[k]?.bind (fatal? host (.ofTable t) library h ()) := by
  unfold faultAt?
  cases probes[k]? with
  | none => rfl
  | some probe => exact fatal?_steady t hsteady _ h probe

/-- With no fatal probe everyone is attached whose target the table has, and the others are
skipped. -/
theorem pass_unfailing {h : η} {probes : List Probe}
    (hnone : Unfailing host t library h probes) :
    let conclusion := (pass host (.ofTable t) library h () probes).1
    let w := (pass host (.ofTable t) library h () probes).2
    w.attached = found (answersOf t library probes) ∧
      w.skipped = missing (answersOf t library probes) ∧ w.refused = none ∧
      Attaches host library h w.attached w.host ∧
      conclusion =
        if 1 ≤ w.attached.length then .ok ⟨probes.length, w.attached.length, w.skipped⟩
        else .error (.noProbesAttached probes.length) := by
  have hnever : ∀ k, faultAt? host (.ofTable t) library h () probes k = none := by
    intro k
    rw [faultAt?_steady t hsteady]
    cases hk : probes[k]? with
    | none => rfl
    | some probe => exact hnone probe (List.mem_of_getElem? hk)
  intro conclusion w
  obtain ⟨hserves, hfault, hrefused, _⟩ :=
    walk_unfailing host (.ofTable t) library h () probes hnever
  obtain ⟨hconclusion, lines, hw⟩ := pass_walk host (.ofTable t) library h () probes
  obtain ⟨reached, hattaches, hstopped⟩ := walk_attaches host (.ofTable t) library h () probes
  rw [Walk.Stopped, hrefused] at hstopped
  have htried := hserves.tried
  rw [hrefused, Option.toList_none, List.append_nil, answers_ofTable] at htried
  have hskipped := hserves.skipped
  rw [answers_ofTable] at hskipped
  simp only [w, conclusion, hconclusion, hw]
  exact ⟨htried, hskipped, hrefused, hstopped ▸ hattaches,
    Walk.result_unfailing hfault probes.length⟩

/-- With a fatal probe the pass ends as the host has answered about one. -/
theorem pass_failing {h : η} {probes : List Probe}
    (hsome : ¬ Unfailing host t library h probes) :
    ∃ e a, (pass host (.ofTable t) library h () probes).1 = .error e ∧
      (pass host (.ofTable t) library h () probes).2.refused = some a ∧
      (host.attach h a.probe library a.offset).answer = .error e := by
  have hreached : ∃ k, (faultAt? host (.ofTable t) library h () probes k).isSome = true := by
    simp only [Unfailing, not_forall] at hsome
    obtain ⟨probe, hin, hfatal⟩ := hsome
    obtain ⟨k, hk⟩ := List.mem_iff_getElem?.mp hin
    refine ⟨k, ?_⟩
    rw [faultAt?_steady t hsteady, hk]
    exact Option.isSome_iff_ne_none.mpr hfatal
  obtain ⟨e, he⟩ := Option.isSome_iff_exists.mp (Nat.find_spec hreached)
  have hfirst : FirstFault host (.ofTable t) library h () probes (Nat.find hreached) e :=
    ⟨he, fun j hj => Option.not_isSome_iff_eq_none.mp (Nat.find_min hreached hj)⟩
  obtain ⟨_, hfault, _⟩ := walk_failing host (.ofTable t) library h () probes _ e hfirst
  obtain ⟨hconclusion, lines, hw⟩ := pass_walk host (.ofTable t) library h () probes
  obtain ⟨reached, _, hstopped⟩ := walk_attaches host (.ofTable t) library h () probes
  have hrefused : (walk host (.ofTable t) library h () probes).fault.isSome =
      (walk host (.ofTable t) library h () probes).refused.isSome :=
    walk_ofTable_fault host library t h probes
  rw [hfault] at hrefused
  obtain ⟨a, ha⟩ := Option.isSome_iff_exists.mp hrefused.symm
  rw [Walk.Stopped, ha] at hstopped
  obtain ⟨e', he', hanswer, _⟩ := hstopped
  obtain rfl : e = e' := Option.some.inj (hfault.symm.trans he')
  refine ⟨e, a, ?_, ?_, ?_⟩
  · rw [hconclusion, Walk.result_fault hfault]
  · rw [hw]
    exact ha
  · rw [hsteady h reached]
    exact hanswer

end Steady

end Table

/-! ### Two orders -/

section Orders
variable {host : Host η} {t : SymbolTable} {library : String} (hsteady : Steady host library)
  {probes others : List Probe} (hperm : probes.Perm others) {h : η} (h' : η)
include hsteady hperm

/-- With no fatal probe the same probes are attached and the same are skipped, so both orders end
well or neither has attached any. -/
theorem permuted_unfailing (hnone : Unfailing host t library h probes) :
    let one := pass host (.ofTable t) library h () probes
    let other := pass host (.ofTable t) library h' () others
    one.2.attached.Perm other.2.attached ∧ one.2.skipped.Perm other.2.skipped ∧
      (one.2.refused = none ∧ other.2.refused = none) ∧
      (Attaches host library h one.2.attached one.2.host ∧
        Attaches host library h' other.2.attached other.2.host) ∧
      ((∃ count, one.1 = .ok ⟨probes.length, count, one.2.skipped⟩ ∧
          other.1 = .ok ⟨probes.length, count, other.2.skipped⟩) ∨
        one.1 = .error (.noProbesAttached probes.length) ∧
          other.1 = .error (.noProbesAttached probes.length)) := by
  intro one other
  have hanswers : (answersOf t library probes).Perm (answersOf t library others) := hperm.map _
  obtain ⟨hattached, hskipped, hrefused, hmade, hone⟩ := pass_unfailing t hsteady hnone
  obtain ⟨hattached', hskipped', hrefused', hmade', hother⟩ :=
    pass_unfailing t hsteady ((hnone.perm hperm).anywhere t hsteady h')
  have hsame : one.2.attached.Perm other.2.attached := by
    rw [hattached, hattached']
    exact hanswers.filterMap _
  have hleft : one.2.skipped.Perm other.2.skipped := by
    rw [hskipped, hskipped']
    exact hanswers.filterMap _
  refine ⟨hsame, hleft, ⟨hrefused, hrefused'⟩, ⟨hmade, hmade'⟩, ?_⟩
  -- both conclusions hang on one number, how many are attached
  rw [hsame.length_eq] at hone
  rw [← hperm.length_eq] at hother
  by_cases hsome : 1 ≤ other.2.attached.length
  · exact .inl ⟨_, hone.trans (if_pos hsome), hother.trans (if_pos hsome)⟩
  · exact .inr ⟨hone.trans (if_neg hsome), hother.trans (if_neg hsome)⟩

/-- With a fatal probe both orders end as the host has answered, each about a probe of its own. -/
theorem permuted_failing (hsome : ¬ Unfailing host t library h probes) :
    ∃ e e', (pass host (.ofTable t) library h () probes).1 = .error e ∧
      (pass host (.ofTable t) library h' () others).1 = .error e' ∧
      (pass host (.ofTable t) library h () probes).2.refused ≠ none ∧
      (pass host (.ofTable t) library h' () others).2.refused ≠ none ∧
      (∃ probe offset, (host.attach h probe library offset).answer = .error e) ∧
      ∃ probe offset, (host.attach h probe library offset).answer = .error e' := by
  have hsome' : ¬ Unfailing host t library h' others := fun hothers =>
    hsome ((hothers.perm hperm.symm).anywhere t hsteady h)
  obtain ⟨e, a, hone, hrefused, hanswer⟩ := pass_failing t hsteady hsome
  obtain ⟨e', a', hother, hrefused', hanswer'⟩ := pass_failing t hsteady hsome'
  rw [hsteady h' h] at hanswer'
  refine ⟨e, e', hone, hother, ?_, ?_, ⟨_, _, hanswer⟩, _, _, hanswer'⟩
  · rw [hrefused]
    exact Option.some_ne_none a
  · rw [hrefused']
    exact Option.some_ne_none a'

end Orders

/-- **How a pass ends does not depend on the order of its probes**, where its resolver has a table
at hand and its host is steady. In every order it ends well or in none. If it ends well, as many
probes are declared and as many attached, the host has made the same attachments, and the same
probes are skipped. It finds nothing to attach in every order or in none, and says so with the
number declared; that this is what it says, and not what the host has said about a probe, is
`refused = none`, so for a host that does not speak of that at all, the answer alone tells. For
any other host it does not (`pass_permuted_refusals`). -/
theorem pass_permuted (host : Host η) (t : SymbolTable) (library : String)
    (hsteady : Steady host library) {probes others : List Probe} (hperm : probes.Perm others)
    (h h' : η) :
    let one := pass host (.ofTable t) library h () probes
    let other := pass host (.ofTable t) library h' () others
    ((∃ outcome, one.1 = .ok outcome) ↔ ∃ outcome, other.1 = .ok outcome) ∧
    (∀ outcome outcome', one.1 = .ok outcome → other.1 = .ok outcome' →
      outcome.declared = outcome'.declared ∧ outcome.attached = outcome'.attached ∧
      outcome.skipped.Perm outcome'.skipped ∧
      Attaches host library h one.2.attached one.2.host ∧
      Attaches host library h' other.2.attached other.2.host ∧
      (one.2.attached.map (·.place library)).Perm (other.2.attached.map (·.place library))) ∧
    (∀ n, one.1 = .error (.noProbesAttached n) ∧ one.2.refused = none ↔
      other.1 = .error (.noProbesAttached n) ∧ other.2.refused = none) ∧
    (∀ n, one.1 = .error (.noProbesAttached n) → one.2.refused = none → n = probes.length) ∧
    ((∀ probe offset n,
        (host.attach h probe library offset).answer ≠ .error (.noProbesAttached n)) →
      ∀ n, one.1 = .error (.noProbesAttached n) ↔ other.1 = .error (.noProbesAttached n)) := by
  intro one other
  by_cases hnone : Unfailing host t library h probes
  · obtain ⟨hsame, hleft, ⟨hrefused, hrefused'⟩, ⟨hmade, hmade'⟩, hends⟩ :=
      permuted_unfailing hsteady hperm h' hnone
    rcases hends with ⟨count, hone, hother⟩ | ⟨hone, hother⟩
    · refine ⟨iff_of_true ⟨_, hone⟩ ⟨_, hother⟩, fun outcome outcome' hok hok' => ?_,
        fun n => ?_, fun n hn => ?_, fun _ n => ?_⟩
      · cases hone.symm.trans hok
        cases hother.symm.trans hok'
        exact ⟨rfl, rfl, hleft, hmade, hmade', hsame.map _⟩
      · rw [hone, hother]
        exact ⟨nofun, nofun⟩
      · cases hone.symm.trans hn
      · rw [hone, hother]
        exact ⟨nofun, nofun⟩
    · refine ⟨?_, fun outcome _ hok => ?_, fun n => ?_, fun n hn _ => ?_, fun _ n => ?_⟩
      · rw [hone, hother]
      · cases hone.symm.trans hok
      · rw [hone, hother, hrefused, hrefused']
      · cases hone.symm.trans hn
        rfl
      · rw [hone, hother]
  · obtain ⟨e, e', hone, hother, hrefused, hrefused', ⟨_, _, hsaid⟩, _, _, hsaid'⟩ :=
      permuted_failing hsteady hperm h' hnone
    refine ⟨?_, fun outcome _ hok => ?_, fun n => ?_, fun n _ hno => absurd hno hrefused,
      fun hnever n => ?_⟩
    · rw [hone, hother]
      exact ⟨nofun, nofun⟩
    · cases hone.symm.trans hok
    · exact iff_of_false (fun hboth => hrefused hboth.2) fun hboth => hrefused' hboth.2
    · -- the host says no such thing of any probe
      rw [hone, hother]
      refine iff_of_false (fun he => ?_) fun he => ?_
      · cases he
        exact hnever _ _ n hsaid
      · cases he
        exact hnever _ _ n hsaid'

theorem journal_steady (refused library : String) : Steady (journal refused) library := by
  intro h h' probe offset
  simp only [journal]
  split <;> rfl

/-- Two probes on functions that the library has, and one on a function that it does not have: in
either order the two are attached. -/
theorem pass_permuted_three :
    let host := journal "uprobe/getipnodebyname"
    let t : SymbolTable := ⟨[⟨"getaddrinfo", 0x1234⟩, ⟨"gethostbyname", 0x5678⟩]⟩
    let enter : Probe := ⟨"enter", "uprobe/getaddrinfo", .entry, "getaddrinfo"⟩
    let query : Probe := ⟨"query", "uprobe/res_query", .entry, "res_query"⟩
    let byName : Probe := ⟨"by_name", "uprobe/gethostbyname", .entry, "gethostbyname"⟩
    Steady host "libc.so" ∧ [enter, query, byName].Perm [byName, enter, query] ∧
      (pass host (.ofTable t) "libc.so" [] () [enter, query, byName]).1 =
        .ok ⟨3, 2, ["uprobe/res_query"]⟩ ∧
      ∃ outcome, (pass host (.ofTable t) "libc.so" [] () [byName, enter, query]).1 = .ok outcome ∧
        outcome.declared = 3 ∧ outcome.attached = 2 := by
  intro host t enter query byName
  have hperm : [enter, query, byName].Perm [byName, enter, query] := by decide
  have hone : (pass host (.ofTable t) "libc.so" [] () [enter, query, byName]).1 =
      .ok ⟨3, 2, ["uprobe/res_query"]⟩ := by rfl
  obtain ⟨hends, hsame, _⟩ :=
    pass_permuted host t "libc.so" (journal_steady _ _) hperm [] []
  obtain ⟨outcome, hother⟩ := hends.mp ⟨_, hone⟩
  obtain ⟨hdeclared, hattached, _⟩ := hsame _ _ hone hother
  exact ⟨journal_steady _ _, hperm, hone, outcome, hother, hdeclared.symm, hattached.symm⟩

/-- A steady host that refuses both probes, one of them with the words of a pass that has attached
nothing: which of the two faults the pass ends with is up to the order. -/
theorem pass_permuted_refusals :
    let a : Probe := ⟨"uprobe/a", "uprobe/a", .entry, "a"⟩
    let b : Probe := ⟨"uprobe/b", "uprobe/b", .entry, "b"⟩
    let host : Host Unit :=
      { attach _ probe _ _ :=
          { answer :=
              .error (if probe = a then .noProbesAttached 7 else .programNotFound probe.program)
            state := () } }
    let t : SymbolTable := ⟨[⟨"a", 16⟩, ⟨"b", 32⟩]⟩
    Steady host "lib.so" ∧ [a, b].Perm [b, a] ∧
      (pass host (.ofTable t) "lib.so" () () [a, b]).1 = .error (.noProbesAttached 7) ∧
      (pass host (.ofTable t) "lib.so" () () [b, a]).1 = .error (.programNotFound "uprobe/b") := by
  intro a b host t
  exact ⟨fun _ _ _ _ => rfl, by decide, rfl, rfl⟩

end LookupTap.Probe
