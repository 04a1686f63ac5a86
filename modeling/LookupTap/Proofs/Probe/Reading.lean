import LookupTap.Proofs.Probe.Pass
import LookupTap.Proofs.Resolver.Snapshot

/-! How often a pass reads its library.

The files may change while a pass runs. A fresh resolver reads the library for the first probe; if
that gives a table, the rest of the pass is the pass over that table (`walk_loaded`), and if it does
not, the pass is over before anything was attached (`walk_failed`). So the offsets of a pass never
come from two versions of a library (`pass_one_reading`). -/
namespace LookupTap.Probe

variable {η ρ : Type}

/-- The walk with further lines at its start, and another resolver's state at its end. -/
def Walk.told {ρ' : Type} (lines : List Line) (r : ρ') (w : Walk η ρ) : Walk η ρ' :=
  { w with lines := lines ++ w.lines, resolver := r }

/-! ### Walks over a table -/

section Table
variable (host : Host η) (library : String) (t : SymbolTable)

/-- What a walk over a table asks the host for are values of the table. -/
theorem walk_ofTable_tried (h : η) (probes : List Probe) :
    let w := walk host (.ofTable t) library h () probes
    ∀ x ∈ w.attached ++ w.refused.toList,
      ∃ s, t.find? x.probe.target = some s ∧ x.offset = s.value := by
  refine walk_tried_of_answers host (.ofTable t) library (fun _ => True)
    (fun target offset => ∃ s, t.find? target = some s ∧ offset = s.value)
    (fun _ _ _ => trivial) ?_ h () trivial probes
  intro _ target offset _ hanswer
  have hresolve : t.resolve library target = .ok offset := hanswer
  unfold SymbolTable.resolve at hresolve
  split at hresolve
  · next s hfind =>
    cases hresolve
    exact ⟨s, hfind, rfl⟩
  · cases hresolve

/-- Only the host can end a walk over a table. -/
theorem walk_ofTable_fault (h : η) (probes : List Probe) :
    let w := walk host (.ofTable t) library h () probes
    w.fault.isSome = w.refused.isSome := by
  fun_induction walk host (.ofTable t) library h () probes with
  | case1 h _ => rfl
  | case2 h _ probe rest looked symbol path hlooked line ih => exact ih
  | case3 h _ probe rest looked e hother hlooked =>
    have hresolve : t.resolve library probe.target = .error e := hlooked
    unfold SymbolTable.resolve at hresolve
    split at hresolve
    · cases hresolve
    · cases hresolve
      exact absurd rfl (hother _ _)
  | case4 h _ probe rest looked offset hlooked done e hdone => rfl
  | case5 h _ probe rest looked offset hlooked done hdone ih => exact ih

end Table

/-! ### Walks with a resolver that reads -/

section Reading
variable {host : Host η} {resolver : Resolver ρ} {library : String} {t : SymbolTable}

/-- A turn is the turn over a table if the answer is the table's, and the rest of the walk is the
walk over the table. -/
theorem walk_cons_ofTable {r r₁ : ρ} {lines : List Line} {probe : Probe} {rest : List Probe}
    (hlooked : resolver.resolve r library probe.target =
      { answer := t.resolve library probe.target, state := r₁, lines })
    (hrest : ∀ h, ∃ r', walk host resolver library h r₁ rest =
      (walk host (.ofTable t) library h () rest).told [] r') (h : η) :
    ∃ r', walk host resolver library h r (probe :: rest) =
      (walk host (.ofTable t) library h () (probe :: rest)).told lines r' := by
  have htable : (Resolver.ofTable t).resolve () library probe.target =
      { answer := t.resolve library probe.target, state := () } := rfl
  simp only [walk, hlooked, htable]
  split
  · obtain ⟨r', hwalk⟩ := hrest h
    refine ⟨r', ?_⟩
    rw [hwalk]
    simp [Walk.told, Walk.afterSkip]
  · exact ⟨_, by simp [Walk.told]; rfl⟩
  · next offset _ =>
    split
    · exact ⟨_, by simp [Walk.told]; rfl⟩
    · obtain ⟨r', hwalk⟩ := hrest (host.attach h probe library offset).state
      refine ⟨r', ?_⟩
      rw [hwalk]
      simp [Walk.told, Walk.afterAttach]

variable {reads : Nat → Reading} {n : Nat}

/-- While the table of the library is kept, a walk is the walk over it. -/
theorem walk_kept {c : SymbolCache} (hkept : Keyed.get? (Path.parts library) c.tables = some t)
    (h : η) (n : Nat) (probes : List Probe) :
    ∃ r', walk host (.caching reads) library h (n, c) probes =
      (walk host (.ofTable t) library h () probes).told [] r' := by
  induction probes generalizing h n with
  | nil => exact ⟨(n, c), rfl⟩
  | cons probe rest ih =>
    have hlooked : (Resolver.caching reads).resolve (n, c) library probe.target =
        { answer := t.resolve library probe.target, state := (n + 1, c), lines := [] } := by
      simp only [Resolver.caching, SymbolCache.resolve_kept hkept]
    exact walk_cons_ofTable hlooked (fun h => ih h (n + 1)) h

theorem get?_fresh (path : String) :
    Keyed.get? (Path.parts path) ({} : SymbolCache).tables = none := rfl

variable (host) in
/-- A fresh resolver that can read the library answers the whole walk from that reading. -/
theorem walk_loaded (hload : SymbolCache.load (reads n) library = .ok t) (h : η) (probe : Probe)
    (rest : List Probe) :
    ∃ r', walk host (.caching reads) library h (n, {}) (probe :: rest) =
      (walk host (.ofTable t) library h () (probe :: rest)).told
        [SymbolCache.sizeLine library t] r' := by
  let kept : SymbolCache := ⟨Keyed.put (Path.parts library) t []⟩
  have hlooked : (Resolver.caching reads).resolve (n, {}) library probe.target =
      { answer := t.resolve library probe.target, state := (n + 1, kept)
        lines := [SymbolCache.sizeLine library t] } := by
    simp only [Resolver.caching, SymbolCache.resolve_loaded (get?_fresh library) hload]
    rfl
  have hkept : Keyed.get? (Path.parts library) kept.tables = some t := by
    rw [Keyed.get?_put, if_pos rfl]
  exact walk_cons_ofTable hlooked (fun h => walk_kept hkept h (n + 1) rest) h

/-- A fresh resolver that cannot read the library ends the walk with its first probe. -/
theorem walk_failed {e : Fault} (hload : SymbolCache.load (reads n) library = .error e) (h : η)
    (probe : Probe) (rest : List Probe) :
    walk host (.caching reads) library h (n, {}) (probe :: rest) =
      { fault := some e, asked := [probe.target], host := h, resolver := (n + 1, {}) } := by
  have hlooked : (Resolver.caching reads).resolve (n, {}) library probe.target =
      { answer := .error e, state := (n + 1, {}) } := by
    simp only [Resolver.caching, SymbolCache.resolve_failed (get?_fresh library) hload]
  obtain ⟨reason, rfl⟩ := SymbolCache.load_fault hload
  simp only [walk, hlooked]

/-- A pass concludes the same from the same walk. -/
theorem pass_told {r : ρ} {h : η} {probes : List Probe} {lines : List Line} {r' : ρ}
    (hwalk : walk host resolver library h r probes =
      (walk host (.ofTable t) library h () probes).told lines r') :
    (pass host resolver library h r probes).1 = (pass host (.ofTable t) library h () probes).1 ∧
      (pass host resolver library h r probes).2 =
        (pass host (.ofTable t) library h () probes).2.told lines r' := by
  have hresult : (walk host resolver library h r probes).result probes.length =
      (walk host (.ofTable t) library h () probes).result probes.length := by
    rw [hwalk]
    rfl
  unfold pass
  simp only [hresult]
  split
  · exact ⟨rfl, hwalk⟩
  · refine ⟨rfl, ?_⟩
    rw [hwalk]
    simp [Walk.told]

variable (host) in
/-- With a library that can be read, a pass is the pass over its table. -/
theorem pass_loaded (hload : SymbolCache.load (reads n) library = .ok t) (h : η) (first : Probe)
    (rest : List Probe) :
    let w := (pass host (.caching reads) library h (n, {}) (first :: rest)).2
    (pass host (.caching reads) library h (n, {}) (first :: rest)).1 =
        (pass host (.ofTable t) library h () (first :: rest)).1 ∧
      (∃ r, w = (pass host (.ofTable t) library h () (first :: rest)).2.told
        [SymbolCache.sizeLine library t] r) ∧
      (∀ x ∈ w.attached ++ w.refused.toList,
        ∃ s, t.find? x.probe.target = some s ∧ x.offset = s.value) ∧
      w.fault.isSome = w.refused.isSome := by
  intro w
  obtain ⟨r, hwalk⟩ := walk_loaded host hload h first rest
  obtain ⟨hconclusion, hw⟩ := pass_told hwalk
  obtain ⟨_, lines, htable⟩ := pass_walk host (.ofTable t) library h () (first :: rest)
  rw [htable] at hw
  refine ⟨hconclusion, ⟨r, ?_⟩, ?_, ?_⟩
  · rw [htable]
    exact hw
  · rw [show w = _ from hw]
    exact walk_ofTable_tried host library t h (first :: rest)
  · rw [show w = _ from hw]
    exact walk_ofTable_fault host library t h (first :: rest)

variable (host) in
theorem pass_failed {e : Fault} (hload : SymbolCache.load (reads n) library = .error e) (h : η)
    (first : Probe) (rest : List Probe) :
    pass host (.caching reads) library h (n, {}) (first :: rest) =
      (.error e,
        { fault := some e, asked := [first.target], host := h, resolver := (n + 1, {}) }) := by
  rw [pass, walk_failed hload]
  rfl

end Reading

/-! ### Every pass -/

section Pass
variable (host : Host η) (reads : Nat → Reading) (library : String) (h : η) (n : Nat)

/-- **A pass reads its library once.** Only the reading that the first probe finds matters,
whatever becomes of the files while the pass runs. If it gives a table, all offsets that the host
is asked for are values of that table, the pass is the one over that table, and nothing but a
refusal of the host can end it early. If it does not, the pass ends with that fault at the first
probe, and the host has not been asked for anything. With no probes nothing is read at all. -/
theorem pass_one_reading (declared : List Probe) :
    let conclusion := (pass host (.caching reads) library h (n, {}) declared).1
    let w := (pass host (.caching reads) library h (n, {}) declared).2
    (∃ before, Attaches host library h w.attached before ∧ w.Stopped host library before) ∧
    match declared, SymbolCache.load (reads n) library with
    | [], _ =>
      conclusion = .error (.noProbesAttached 0) ∧ w = { host := h, resolver := (n, {}) }
    | first :: _, .error e =>
      (∃ reason, e = .badBinary library reason) ∧ conclusion = .error e ∧
        w = { fault := some e, asked := [first.target], host := h, resolver := (n + 1, {}) }
    | _ :: _, .ok t =>
      (∀ x ∈ w.attached ++ w.refused.toList,
        ∃ s, t.find? x.probe.target = some s ∧ x.offset = s.value) ∧
      w.fault.isSome = w.refused.isSome ∧
      conclusion = (pass host (.ofTable t) library h () declared).1 ∧
      ∃ r, w = (pass host (.ofTable t) library h () declared).2.told
        [SymbolCache.sizeLine library t] r := by
  intro conclusion w
  refine ⟨pass_attaches host (.caching reads) library h (n, {}) declared, ?_⟩
  cases declared with
  | nil => exact ⟨rfl, rfl⟩
  | cons first rest =>
    cases hload : SymbolCache.load (reads n) library with
    | error e =>
      have hpass := pass_failed host hload h first rest
      exact ⟨SymbolCache.load_fault hload, congrArg Prod.fst hpass, congrArg Prod.snd hpass⟩
    | ok t =>
      obtain ⟨hconclusion, hw, htried, hfault⟩ := pass_loaded host hload h first rest
      exact ⟨htried, hfault, hconclusion, hw⟩

end Pass

/-- A host that puts down what it is asked for. -/
def record : Host (List Attachment) where
  attach h probe _ offset := { answer := .ok (), state := h ++ [⟨probe, offset⟩] }

/-- A library that is there for the first question, and is replaced before the second. -/
def replacing : Nat → Reading
  | 0 => fun _ => .ok (Elf.library 0x66 16)
  | _ => fun _ => .ok (Elf.library 0x66 32)

/-- A library that is put there only after the first question. -/
def late : Nat → Reading
  | 0 => fun _ => .error (.os .noSuchFile)
  | _ => fun _ => .ok (Elf.library 0x66 16)

set_option maxRecDepth 20000 in
/-- Two probes on one function go to the value it has first, and if the library comes too late
none goes anywhere. -/
theorem pass_one_reading_replaced :
    let enter : Probe := ⟨"enter", "uprobe/f", .entry, "f"⟩
    let leave : Probe := ⟨"leave", "uretprobe/f", .exit, "f"⟩
    (pass record (.caching replacing) "f.so" [] (0, {}) [enter, leave]).1 = .ok ⟨2, 2, []⟩ ∧
      (pass record (.caching replacing) "f.so" [] (0, {}) [enter, leave]).2.host =
        [⟨enter, 16⟩, ⟨leave, 16⟩] ∧
      (pass record (.caching late) "f.so" [] (0, {}) [enter, leave]).1 =
        .error (.badBinary "f.so" (Files.ReadFault.os .noSuchFile).message) ∧
      (pass record (.caching late) "f.so" [] (0, {}) [enter, leave]).2.host = [] ∧
      (pass record (.caching late) "f.so" [] (0, {}) []).1 = .error (.noProbesAttached 0) := by
  intro enter leave
  obtain ⟨_, _, _, hconclusion, r, hw⟩ :=
    pass_one_reading record replacing "f.so" [] 0 [enter, leave]
  obtain ⟨_, _, hblamed, hnothing⟩ := pass_one_reading record late "f.so" [] 0 [enter, leave]
  refine ⟨hconclusion.trans rfl, ?_, hblamed, ?_, (pass_one_reading record late "f.so" [] 0 []).2.1⟩
  · rw [hw]
    rfl
  · rw [hnothing]

end LookupTap.Probe
