import LookupTap.Proofs.Probe.Pass

/-! What a pass makes of its probes.

Whether a probe is fatal shows when its turn comes: the resolver has then been asked for the
targets before it, and the host for those of them that were found (`faultAt?`).
`pass_reference` says what a pass does in these terms, for every host and every resolver. With
no fatal probe everyone is served, who is not found is skipped, and the pass ends well if it has
attached anything. The first fatal probe is the last one served, and its fault is what the pass
answers.

That the host and the resolver are left in the state of exactly these calls (`Walk.Serves`)
holds whatever they keep in it, so also where it is a journal of the calls. -/
namespace LookupTap

variable {η ρ : Type}

/-- The state of a resolver that has been asked for symbols of one binary, in order. -/
def Resolver.after (resolver : Resolver ρ) (r : ρ) (path : String) (symbols : List String) : ρ :=
  symbols.foldl (fun r symbol => (resolver.resolve r path symbol).state) r

namespace Probe

/-- The state of a host that has been asked for attachments, in order. -/
def Host.after (host : Host η) (h : η) (library : String) (tried : List Attachment) : η :=
  tried.foldl (fun h a => (host.attach h a.probe library a.offset).state) h

theorem Host.after_append (host : Host η) (h : η) (library : String) (a b : List Attachment) :
    host.after h library (a ++ b) = host.after (host.after h library a) library b :=
  List.foldl_append

/-! ### What the resolver answers -/

/-- The answers to the targets of probes, asked for in order. -/
def answers (resolver : Resolver ρ) (library : String) (r : ρ) :
    List Probe → List (Probe × Except Fault Nat)
  | [] => []
  | probe :: rest =>
    let looked := resolver.resolve r library probe.target
    (probe, looked.answer) :: answers resolver library looked.state rest

/-- The probes that were found, each with the offset of its target. -/
def found (answered : List (Probe × Except Fault Nat)) : List Attachment :=
  answered.filterMap fun
    | (probe, .ok offset) => some ⟨probe, offset⟩
    | _ => none

/-- The raw names of the probes whose target the library does not have. -/
def missing (answered : List (Probe × Except Fault Nat)) : List String :=
  answered.filterMap fun
    | (probe, .error (.symbolNotFound _ _)) => some probe.rawName
    | _ => none

theorem found_append (a b : List (Probe × Except Fault Nat)) :
    found (a ++ b) = found a ++ found b := List.filterMap_append

section Walk
variable (host : Host η) (resolver : Resolver ρ) (library : String)

/-! ### Fatal probes -/

/-- Why a probe ends the pass, if it does: its look-up fails, and not for want of the symbol, or
the host refuses it for any reason. -/
def fatal? (h : η) (r : ρ) (probe : Probe) : Option Fault :=
  match (resolver.resolve r library probe.target).answer with
  | .error (.symbolNotFound _ _) => none
  | .error e => some e
  | .ok offset =>
    match (host.attach h probe library offset).answer with
    | .error e => some e
    | .ok () => none

section
variable {host resolver library} {h : η} {r : ρ} {probe : Probe}

theorem fatal?_missing {symbol path : String}
    (hlooked : (resolver.resolve r library probe.target).answer =
      .error (.symbolNotFound symbol path)) :
    fatal? host resolver library h r probe = none := by
  rw [fatal?, hlooked]

theorem fatal?_unresolved {e : Fault}
    (hlooked : (resolver.resolve r library probe.target).answer = .error e)
    (hother : ∀ symbol path, e ≠ .symbolNotFound symbol path) :
    fatal? host resolver library h r probe = some e := by
  rw [fatal?, hlooked]
  cases e with
  | symbolNotFound symbol path => exact absurd rfl (hother symbol path)
  | _ => rfl

theorem fatal?_refused {offset : Nat} {e : Fault}
    (hlooked : (resolver.resolve r library probe.target).answer = .ok offset)
    (hdone : (host.attach h probe library offset).answer = .error e) :
    fatal? host resolver library h r probe = some e := by
  simp only [fatal?, hlooked, hdone]

theorem fatal?_attached {offset : Nat}
    (hlooked : (resolver.resolve r library probe.target).answer = .ok offset)
    (hdone : (host.attach h probe library offset).answer = .ok ()) :
    fatal? host resolver library h r probe = none := by
  simp only [fatal?, hlooked, hdone]

end

/-- The same of probe number `k`, when those before it have had their turns. -/
def faultAt? (h : η) (r : ρ) (probes : List Probe) (k : Nat) : Option Fault :=
  let earlier := probes.take k
  let h := host.after h library (found (answers resolver library r earlier))
  let r := resolver.after r library (earlier.map Probe.target)
  probes[k]?.bind (fatal? host resolver library h r)

theorem faultAt?_zero (h : η) (r : ρ) (probe : Probe) (rest : List Probe) :
    faultAt? host resolver library h r (probe :: rest) 0 = fatal? host resolver library h r probe :=
  rfl

/-- The later probes see what the first turn has left. -/
theorem faultAt?_succ (h : η) (r : ρ) (probe : Probe) (rest : List Probe) (k : Nat) :
    let looked := resolver.resolve r library probe.target
    faultAt? host resolver library h r (probe :: rest) (k + 1) =
      faultAt? host resolver library (host.after h library (found [(probe, looked.answer)]))
        looked.state rest k := by
  intro looked
  have hfound : found (answers resolver library r (probe :: rest.take k)) =
      found [(probe, looked.answer)] ++
        found (answers resolver library looked.state (rest.take k)) :=
    found_append [_] _
  simp only [faultAt?, List.take_succ_cons, List.getElem?_cons_succ, hfound, Host.after_append]
  rfl

/-- Probe number `k` is the first fatal one. -/
structure FirstFault (h : η) (r : ρ) (probes : List Probe) (k : Nat) (e : Fault) : Prop where
  fault : faultAt? host resolver library h r probes k = some e
  earlier : ∀ j < k, faultAt? host resolver library h r probes j = none

variable {host resolver library} in
theorem FirstFault.rest {h : η} {r : ρ} {probe : Probe} {rest : List Probe} {k : Nat} {e : Fault}
    (hfirst : FirstFault host resolver library h r (probe :: rest) (k + 1) e) :
    FirstFault host resolver library
      (host.after h library (found [(probe, (resolver.resolve r library probe.target).answer)]))
      (resolver.resolve r library probe.target).state rest k e where
  fault := (faultAt?_succ ..).symm.trans hfirst.fault
  earlier j hj := (faultAt?_succ ..).symm.trans (hfirst.earlier (j + 1) (Nat.succ_lt_succ hj))

variable {host resolver library} in
/-- If the first probe is fatal, it is the first fatal one. -/
theorem FirstFault.head {h : η} {r : ρ} {probe : Probe} {rest : List Probe} {k : Nat} {e e' : Fault}
    (hfirst : FirstFault host resolver library h r (probe :: rest) k e)
    (hfatal : fatal? host resolver library h r probe = some e') : k = 0 ∧ e = e' := by
  cases k with
  | zero => exact ⟨rfl, Option.some.inj (hfirst.fault.symm.trans hfatal)⟩
  | succ k => cases (hfirst.earlier 0 (Nat.succ_pos k)).symm.trans hfatal

/-! ### Who has been served -/

/-- The walk has given these probes their turns, in order, and nobody else: the resolver has been
asked for their targets, the host for those that were found, and those that the library does not
have are skipped. -/
structure Walk.Serves (h : η) (r : ρ) (w : Walk η ρ) (served : List Probe) : Prop where
  asked : w.asked = served.map Probe.target
  lookedUp : w.resolver = resolver.after r library (served.map Probe.target)
  tried : w.attached ++ w.refused.toList = found (answers resolver library r served)
  called : w.host = host.after h library (w.attached ++ w.refused.toList)
  skipped : w.skipped = missing (answers resolver library r served)

variable {host resolver library}

theorem Walk.Serves.withLines {h : η} {r : ρ} {w : Walk η ρ} {served : List Probe}
    (hw : w.Serves host resolver library h r served) (lines : List Line) :
    { w with lines }.Serves host resolver library h r served :=
  ⟨hw.asked, hw.lookedUp, hw.tried, hw.called, hw.skipped⟩

theorem Walk.Serves.skip {h : η} {r : ρ} {w : Walk η ρ} {served : List Probe} {probe : Probe}
    {symbol path : String}
    (hlooked : (resolver.resolve r library probe.target).answer = .error (.symbolNotFound symbol path))
    (hw : w.Serves host resolver library h (resolver.resolve r library probe.target).state served)
    (lines : List Line) :
    (w.afterSkip probe lines).Serves host resolver library h r (probe :: served) where
  asked := congrArg (probe.target :: ·) hw.asked
  lookedUp := hw.lookedUp
  tried := by
    rw [answers, hlooked]
    exact hw.tried
  called := hw.called
  skipped := by
    rw [answers, hlooked]
    exact congrArg (probe.rawName :: ·) hw.skipped

theorem Walk.Serves.attach {h : η} {r : ρ} {w : Walk η ρ} {served : List Probe} {probe : Probe}
    {offset : Nat} (hlooked : (resolver.resolve r library probe.target).answer = .ok offset)
    (hw : w.Serves host resolver library (host.attach h probe library offset).state
      (resolver.resolve r library probe.target).state served) (lines : List Line) :
    (w.afterAttach probe offset lines).Serves host resolver library h r (probe :: served) where
  asked := congrArg (probe.target :: ·) hw.asked
  lookedUp := hw.lookedUp
  tried := by
    rw [answers, hlooked]
    exact congrArg (⟨probe, offset⟩ :: ·) hw.tried
  called := hw.called
  skipped := by
    rw [answers, hlooked]
    exact hw.skipped

/-- A look-up that fails is the end, and the host is not asked. -/
theorem Walk.serves_unresolved {h : η} {r : ρ} {probe : Probe} {e : Fault}
    (hlooked : (resolver.resolve r library probe.target).answer = .error e)
    (hother : ∀ symbol path, e ≠ .symbolNotFound symbol path) (lines : List Line) :
    Walk.Serves host resolver library h r
      { fault := some e, asked := [probe.target], lines, host := h
        resolver := (resolver.resolve r library probe.target).state } [probe] where
  asked := rfl
  lookedUp := rfl
  tried := by
    rw [answers, hlooked]
    rfl
  called := rfl
  skipped := by
    rw [answers, hlooked]
    cases e with
    | symbolNotFound symbol path => exact absurd rfl (hother symbol path)
    | _ => rfl

/-- So is a refusal of the host. -/
theorem Walk.serves_refused {h : η} {r : ρ} {probe : Probe} {offset : Nat}
    (hlooked : (resolver.resolve r library probe.target).answer = .ok offset) (e : Fault)
    (lines : List Line) :
    Walk.Serves host resolver library h r
      { fault := some e, asked := [probe.target], refused := some ⟨probe, offset⟩, lines
        host := (host.attach h probe library offset).state
        resolver := (resolver.resolve r library probe.target).state } [probe] where
  asked := rfl
  lookedUp := rfl
  tried := by
    rw [answers, hlooked]
    rfl
  called := rfl
  skipped := by
    rw [answers, hlooked]
    rfl

/-! ### Every walk -/

variable (host resolver library)

/-- With no fatal probe everyone is served. -/
theorem walk_unfailing (h : η) (r : ρ) (probes : List Probe)
    (hnone : ∀ k, faultAt? host resolver library h r probes k = none) :
    let w := walk host resolver library h r probes
    w.Serves host resolver library h r probes ∧ w.fault = none ∧ w.refused = none ∧
      probes.length = w.attached.length + w.skipped.length := by
  fun_induction walk host resolver library h r probes with
  | case1 h r => exact ⟨⟨rfl, rfl, rfl, rfl, rfl⟩, rfl, rfl, rfl⟩
  | case2 h r probe rest looked symbol path hlooked line ih =>
    have hrest : ∀ k, faultAt? host resolver library h looked.state rest k = none := by
      intro k
      have hk := hnone (k + 1)
      rwa [faultAt?_succ, hlooked] at hk
    obtain ⟨hserves, hfault, hrefused, hlength⟩ := ih hrest
    refine ⟨hserves.skip hlooked _, hfault, hrefused, ?_⟩
    simp only [Walk.afterSkip, List.length_cons]
    omega
  | case3 h r probe rest looked e hother hlooked =>
    have hzero := hnone 0
    rw [faultAt?_zero, fatal?_unresolved hlooked hother] at hzero
    cases hzero
  | case4 h r probe rest looked offset hlooked done e hdone =>
    have hzero := hnone 0
    rw [faultAt?_zero, fatal?_refused hlooked hdone] at hzero
    cases hzero
  | case5 h r probe rest looked offset hlooked done hdone ih =>
    have hrest : ∀ k, faultAt? host resolver library done.state looked.state rest k = none := by
      intro k
      have hk := hnone (k + 1)
      rwa [faultAt?_succ, hlooked] at hk
    obtain ⟨hserves, hfault, hrefused, hlength⟩ := ih hrest
    refine ⟨hserves.attach hlooked _, hfault, hrefused, ?_⟩
    simp only [Walk.afterAttach, List.length_cons]
    omega

/-- The first fatal probe is the last one served. -/
theorem walk_failing (h : η) (r : ρ) (probes : List Probe) (k : Nat) (e : Fault)
    (hfirst : FirstFault host resolver library h r probes k e) :
    let w := walk host resolver library h r probes
    w.Serves host resolver library h r (probes.take (k + 1)) ∧ w.fault = some e ∧
      w.attached = found (answers resolver library r (probes.take k)) := by
  fun_induction walk host resolver library h r probes generalizing k with
  | case1 h r => cases hfirst.fault
  | case2 h r probe rest looked symbol path hlooked line ih =>
    cases k with
    | zero => cases hfirst.fault.symm.trans (fatal?_missing hlooked)
    | succ k =>
      have hrest := hfirst.rest
      rw [hlooked] at hrest
      obtain ⟨hserves, hfault, hattached⟩ := ih k hrest
      refine ⟨hserves.skip hlooked _, hfault, ?_⟩
      rw [List.take_succ_cons, answers, hlooked]
      exact hattached
  | case3 h r probe rest looked e' hother hlooked =>
    obtain ⟨rfl, rfl⟩ := hfirst.head (fatal?_unresolved hlooked hother)
    exact ⟨Walk.serves_unresolved hlooked hother _, rfl, rfl⟩
  | case4 h r probe rest looked offset hlooked done e' hdone =>
    obtain ⟨rfl, rfl⟩ := hfirst.head (fatal?_refused hlooked hdone)
    exact ⟨Walk.serves_refused hlooked _ _, rfl, rfl⟩
  | case5 h r probe rest looked offset hlooked done hdone ih =>
    cases k with
    | zero => cases hfirst.fault.symm.trans (fatal?_attached hlooked hdone)
    | succ k =>
      have hrest := hfirst.rest
      rw [hlooked] at hrest
      obtain ⟨hserves, hfault, hattached⟩ := ih k hrest
      refine ⟨hserves.attach hlooked _, hfault, ?_⟩
      rw [List.take_succ_cons, answers, hlooked]
      exact congrArg (⟨probe, offset⟩ :: ·) hattached

/-! ### Every pass -/

/-- Without a fault it depends on what was attached how a pass ends. -/
theorem Walk.result_unfailing {w : Walk η ρ} (hfault : w.fault = none) (declared : Nat) :
    w.result declared =
      if 1 ≤ w.attached.length then .ok ⟨declared, w.attached.length, w.skipped⟩
      else .error (.noProbesAttached declared) := by
  rw [Walk.result, hfault]
  cases w.attached with
  | nil => rfl
  | cons a rest => exact (if_pos (Nat.le_add_left 1 rest.length)).symm

theorem Walk.result_fault {w : Walk η ρ} {e : Fault} (hfault : w.fault = some e)
    (declared : Nat) : w.result declared = .error e := by
  rw [Walk.result, hfault]

/-- **A pass does what the verdicts on its probes say.** If no probe is fatal, it attaches exactly
those that are found, in order, and skips the others, and it ends well just when it has attached
something. Otherwise it ends with the fault of the first fatal probe, whatever was attached
before it, and nobody after that probe has a turn. -/
theorem pass_reference (h : η) (r : ρ) (probes : List Probe) :
    let conclusion := (pass host resolver library h r probes).1
    let w := (pass host resolver library h r probes).2
    ((∀ k, faultAt? host resolver library h r probes k = none) →
      w.Serves host resolver library h r probes ∧ w.refused = none ∧
      Attaches host library h w.attached w.host ∧
      probes.length = w.attached.length + w.skipped.length ∧
      conclusion =
        if 1 ≤ w.attached.length then .ok ⟨probes.length, w.attached.length, w.skipped⟩
        else .error (.noProbesAttached probes.length)) ∧
    ∀ k e, FirstFault host resolver library h r probes k e →
      w.Serves host resolver library h r (probes.take (k + 1)) ∧
      w.attached = found (answers resolver library r (probes.take k)) ∧
      (∃ reached, Attaches host library h w.attached reached) ∧
      conclusion = .error e := by
  intro conclusion w
  obtain ⟨hconclusion, lines, hw⟩ := pass_walk host resolver library h r probes
  obtain ⟨reached, hattaches, hstopped⟩ := walk_attaches host resolver library h r probes
  constructor
  · intro hnone
    obtain ⟨hserves, hfault, hrefused, hlength⟩ := walk_unfailing host resolver library h r probes hnone
    rw [Walk.Stopped, hrefused] at hstopped
    simp only [w, conclusion, hconclusion, hw]
    exact ⟨hserves.withLines lines, hrefused, hstopped ▸ hattaches, hlength,
      Walk.result_unfailing hfault probes.length⟩
  · intro k e hfirst
    obtain ⟨hserves, hfault, hattached⟩ := walk_failing host resolver library h r probes k e hfirst
    simp only [w, conclusion, hconclusion, hw]
    exact ⟨hserves.withLines lines, hattached, ⟨reached, hattaches⟩,
      Walk.result_fault hfault probes.length⟩

end Walk

/-- A host that keeps a journal, and refuses the probes with one raw name. -/
def journal (refused : String) : Host (List Attachment) where
  attach h probe _ offset :=
    if probe.rawName = refused then
      { answer := .error (.programNotFound probe.program), state := h }
    else { answer := .ok (), state := h ++ [⟨probe, offset⟩] }

/-- Of four probes the first is attached, the second is skipped, the third is refused, and the
fourth has no turn. The first two alone are a pass that ends well. -/
theorem pass_reference_four :
    let host := journal "uprobe/gethostbyname"
    let resolver := Resolver.ofTable ⟨[⟨"getaddrinfo", 0x1234⟩, ⟨"gethostbyname", 0x5678⟩]⟩
    let enter : Probe := ⟨"enter", "uprobe/getaddrinfo", .entry, "getaddrinfo"⟩
    let query : Probe := ⟨"query", "uprobe/res_query", .entry, "res_query"⟩
    let byName : Probe := ⟨"by_name", "uprobe/gethostbyname", .entry, "gethostbyname"⟩
    let leave : Probe := ⟨"leave", "uretprobe/gethostbyname", .exit, "gethostbyname"⟩
    (∀ k, faultAt? host resolver "libc.so" [] () [enter, query] k = none) ∧
      (pass host resolver "libc.so" [] () [enter, query]).1 =
        .ok ⟨2, 1, ["uprobe/res_query"]⟩ ∧
      FirstFault host resolver "libc.so" [] () [enter, query, byName, leave] 2
        (.programNotFound "by_name") ∧
      (pass host resolver "libc.so" [] () [enter, query, byName, leave]).1 =
        .error (.programNotFound "by_name") ∧
      (pass host resolver "libc.so" [] () [enter, query, byName, leave]).2.host =
        [⟨enter, 0x1234⟩] := by
  intro host resolver enter query byName leave
  have hnone : ∀ k, faultAt? host resolver "libc.so" [] () [enter, query] k = none
    | 0 => by decide
    | 1 => by decide
    | k + 2 => rfl
  have hfirst : FirstFault host resolver "libc.so" [] () [enter, query, byName, leave] 2
      (.programNotFound "by_name") := ⟨by decide, by decide⟩
  obtain ⟨hserves, hrefused, _, _, hwell⟩ :=
    (pass_reference host resolver "libc.so" [] () [enter, query]).1 hnone
  have hattached : (pass host resolver "libc.so" [] () [enter, query]).2.attached =
      [⟨enter, 0x1234⟩] := by
    have htried := hserves.tried
    rw [hrefused, Option.toList_none, List.append_nil] at htried
    exact htried.trans (by decide)
  obtain ⟨hserved, _, _, hends⟩ :=
    (pass_reference host resolver "libc.so" [] () [enter, query, byName, leave]).2 2 _ hfirst
  refine ⟨hnone, ?_, hfirst, hends, ?_⟩
  · rw [hwell, hattached, hserves.skipped]
    rfl
  · rw [hserved.called, hserved.tried]
    decide

end Probe

end LookupTap
