import LookupTap.Probe.Pass

/-! What a pass asks of its host.

A walk makes its attach calls one after the other, each in the state that the one before left:
those that it lists as attached have all worked (`Attaches`), and one that is refused is the
last (`walk_attaches`). What it asks for are answers of its resolver (`walk_tried_of_answers`). A
pass that ends well has attached something (`pass_ok`). -/
namespace LookupTap.Probe

variable {η ρ : Type}

/-- The attach calls of a list all work, one after the other, and lead from one state of the
host to another. -/
inductive Attaches (host : Host η) (library : String) : η → List Attachment → η → Prop where
  | none {h} : Attaches host library h [] h
  | next {h a rest after} : (host.attach h a.probe library a.offset).answer = .ok () →
      Attaches host library (host.attach h a.probe library a.offset).state rest after →
      Attaches host library h (a :: rest) after

/-- The last call of a walk, if it was refused: the state before it, and what came of it. -/
def Walk.Stopped (host : Host η) (library : String) (before : η) (w : Walk η ρ) : Prop :=
  match w.refused with
  | none => w.host = before
  | some a => ∃ e, w.fault = some e ∧
      (host.attach before a.probe library a.offset).answer = .error e ∧
      w.host = (host.attach before a.probe library a.offset).state

section Walk
variable (host : Host η) (resolver : Resolver ρ) (library : String)

theorem walk_attaches (h : η) (r : ρ) (probes : List Probe) :
    ∃ before, Attaches host library h (walk host resolver library h r probes).attached before ∧
      (walk host resolver library h r probes).Stopped host library before := by
  fun_induction walk host resolver library h r probes with
  | case1 h r => exact ⟨h, .none, rfl⟩
  | case2 h r probe rest looked symbol path hlooked line ih => exact ih
  | case3 h r probe rest looked e hlooked hother => exact ⟨h, .none, rfl⟩
  | case4 h r probe rest looked offset hlooked done e hdone =>
    exact ⟨h, .none, e, rfl, hdone, rfl⟩
  | case5 h r probe rest looked offset hlooked done hdone ih =>
    obtain ⟨before, hattaches, hstopped⟩ := ih
    exact ⟨before, .next hdone hattaches, hstopped⟩

/-- What is true of every answer of a resolver, in all states that it comes to, is true of
everything that a walk asks the host for. -/
theorem walk_tried_of_answers (Kept : ρ → Prop) (Value : String → Nat → Prop)
    (hkept : ∀ r target, Kept r → Kept (resolver.resolve r library target).state)
    (hvalue : ∀ r target offset, Kept r →
      (resolver.resolve r library target).answer = .ok offset → Value target offset)
    (h : η) (r : ρ) (hr : Kept r) (probes : List Probe) :
    let w := walk host resolver library h r probes
    ∀ x ∈ w.attached ++ w.refused.toList, Value x.probe.target x.offset := by
  fun_induction walk host resolver library h r probes with
  | case1 h r => exact fun x hx => absurd hx List.not_mem_nil
  | case2 h r probe rest looked symbol path hlooked line ih =>
    exact ih (hkept r probe.target hr)
  | case3 h r probe rest looked e hother hlooked => exact fun x hx => absurd hx List.not_mem_nil
  | case4 h r probe rest looked offset hlooked done e hdone =>
    intro w x hx
    obtain rfl := List.mem_singleton.mp hx
    exact hvalue r probe.target offset hr hlooked
  | case5 h r probe rest looked offset hlooked done hdone ih =>
    rintro w x (_ | ⟨_, hx⟩)
    · exact hvalue r probe.target offset hr hlooked
    · exact ih (hkept r probe.target hr) x hx

/-- A pass concludes from its walk, and only adds a line to it. -/
theorem pass_walk (h : η) (r : ρ) (declared : List Probe) :
    (pass host resolver library h r declared).1 =
        (walk host resolver library h r declared).result declared.length ∧
      ∃ lines, (pass host resolver library h r declared).2 =
        { walk host resolver library h r declared with lines } := by
  cases hresult : (walk host resolver library h r declared).result declared.length with
  | error e =>
    simp only [pass, hresult, true_and]
    exact ⟨_, rfl⟩
  | ok outcome =>
    simp only [pass, hresult, true_and]
    exact ⟨_, rfl⟩

theorem pass_attaches (h : η) (r : ρ) (declared : List Probe) :
    ∃ before, Attaches host library h (pass host resolver library h r declared).2.attached before ∧
      (pass host resolver library h r declared).2.Stopped host library before := by
  obtain ⟨_, lines, hwalk⟩ := pass_walk host resolver library h r declared
  rw [hwalk]
  exact walk_attaches host resolver library h r declared

theorem Walk.result_ok {declared : Nat} {w : Walk η ρ} {outcome : Outcome}
    (h : w.result declared = .ok outcome) : w.fault = none ∧ w.attached ≠ [] := by
  unfold Walk.result at h
  cases hfault : w.fault with
  | some e =>
    rw [hfault] at h
    cases h
  | none =>
    refine ⟨rfl, fun hnone => ?_⟩
    rw [hfault, hnone] at h
    cases h

/-- A pass that ends well has attached something, and nothing has been refused. -/
theorem pass_ok {h : η} {r : ρ} {declared : List Probe} {outcome : Outcome}
    (hpass : (pass host resolver library h r declared).1 = .ok outcome) :
    (pass host resolver library h r declared).2.attached ≠ [] ∧
      (pass host resolver library h r declared).2.refused = none := by
  obtain ⟨hresult, lines, hwalk⟩ := pass_walk host resolver library h r declared
  obtain ⟨hfault, hattached⟩ := Walk.result_ok (hresult.symm.trans hpass)
  obtain ⟨before, _, hstopped⟩ := walk_attaches host resolver library h r declared
  rw [hwalk]
  refine ⟨hattached, ?_⟩
  cases hrefused : (walk host resolver library h r declared).refused with
  | none => rfl
  | some a =>
    rw [Walk.Stopped, hrefused] at hstopped
    obtain ⟨e, he, _, _⟩ := hstopped
    rw [hfault] at he
    cases he

/-! ### A host seen through a map -/

variable {host library} {η' : Type} {host' : Host η'}

/-- The walk with its host replaced. -/
def Walk.onHost (f : η → η') (w : Walk η ρ) : Walk η' ρ := { w with host := f w.host }

/-- Another host does the same as a host, by what `f` makes of its states, as long as these keep
`Kept`. -/
def Follows (host : Host η) (library : String) (host' : Host η') (f : η → η') (Kept : η → Prop) :
    Prop :=
  ∀ h probe offset, Kept h →
    let done := host.attach h probe library offset
    Kept done.state ∧ host'.attach (f h) probe library offset =
      { answer := done.answer, state := f done.state, lines := done.lines }

variable {f : η → η'} {Kept : η → Prop}

theorem walk_follows (hfollows : Follows host library host' f Kept) {h : η} (hkept : Kept h) (r : ρ)
    (probes : List Probe) :
    walk host' resolver library (f h) r probes =
      (walk host resolver library h r probes).onHost f := by
  induction probes generalizing h r with
  | nil => rfl
  | cons probe rest ih =>
    simp only [walk]
    split
    · rw [ih hkept]
      rfl
    · rfl
    · next offset _ =>
      obtain ⟨hstate, hattach⟩ := hfollows h probe offset hkept
      simp only [hattach, ih hstate]
      cases (host.attach h probe library offset).answer <;> rfl

theorem pass_follows (hfollows : Follows host library host' f Kept) {h : η} (hkept : Kept h) (r : ρ)
    (probes : List Probe) :
    pass host' resolver library (f h) r probes =
      ((pass host resolver library h r probes).1,
        (pass host resolver library h r probes).2.onHost f) := by
  have hwalk := walk_follows resolver hfollows hkept r probes
  have hresult : (walk host' resolver library (f h) r probes).result probes.length =
      (walk host resolver library h r probes).result probes.length := by
    rw [hwalk]
    rfl
  unfold pass
  simp only [hresult]
  split
  · rw [hwalk]
  · rw [hwalk]
    rfl

end Walk

end LookupTap.Probe
