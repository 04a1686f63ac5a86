import LookupTap.Proofs.Lifecycle.Announced
import LookupTap.Proofs.Pump.Control
import LookupTap.Proofs.Pump.Progress

/-! The order of a run.

A run is the part before the pool and a run of the pool (`run_opened`), or that part alone when
something in it fails (`run_failed`). From both, `run_order`: the artifact is released once and
last, its channel is asked for once and after every attach call, and the stages are the first
two or all of them, and so are the lines in the log. -/
namespace LookupTap.Lifecycle

open Pump

variable {η σ ρ τ α : Type}

/-- All the stages of a run. -/
def allStages : List Stage := [.loaded, .attaching, .polling, .stopping, .unloaded]

/-- The sources of a channel that has been opened. -/
def Begun.sources (b : Begun η σ) : List σ :=
  match b.answer with
  | .ok sources => sources
  | .error _ => []

/-- The artifact is released once. Nothing of a consumer comes after it, and all sources have
been released before, once each. -/
def ReleasedOnce (sources : Nat) (trace : List Event) : Prop :=
  ∃ before after, trace = before ++ .artifactReleased :: after ∧ .artifactReleased ∉ before ∧
    .artifactReleased ∉ after ∧ (∀ e ∈ after, e.owner? = none) ∧
    ∀ i < sources, before.count (.sourceReleased i) = 1

/-- The channel is asked for once, or never and then nothing follows but the release. Before
that, nothing has happened of any consumer, the probes have been attached, one at least, and
the stages are the first two; after it, nothing more is asked of the artifact. -/
def OpenedOnce (channel : String) (trace : List Event) : Prop :=
  ∃ before after, trace = before ++ after ∧ (∀ e ∈ before, e.owner? = none) ∧
    Trace.stages before = [.loaded, .attaching] ∧ (∀ name, .askedFor name ∉ before) ∧
    (after = [.artifactReleased] ∨ ∃ later, after = .askedFor channel :: later ∧
      Trace.requests later = [] ∧ ∃ probe library offset, .attached probe library offset ∈ before)

/-- A run that has ended before the pool. -/
structure Halted (e : Fault) (state : η) (requests : List Event) (R : Run η) : Prop where
  result : R.result = some (.error e)
  state : R.state = state
  requests : Trace.requests R.trace = requests
  stages : Trace.stages R.trace = [.loaded, .attaching]
  owner : ∀ ev ∈ R.trace, ev.owner? = none

/-! ### The log of the stages -/

theorem Halted.lifecycle {e : Fault} {state : η} {requests : List Event} {R : Run η}
    (h : Halted e state requests R) (hlog : Trace.Announced R.trace) :
    Trace.lifecycle R.trace = ["INFO Lifecycle: loaded", "INFO Lifecycle: attaching"] := by
  rw [hlog, h.stages]
  decide

/-- What the log says of all the stages. -/
theorem allStages_lines : allStages.map (·.line.plain) =
    ["INFO Lifecycle: loaded", "INFO Lifecycle: attaching", "INFO Lifecycle: polling",
      "INFO Lifecycle: stopping", "INFO Lifecycle: unloaded"] := by
  decide

section Run
variable {artifact : Instrumentation η σ} {resolver : Resolver ρ}
  {located : Logged (Except Fault String)} {channel : String} {h : η} {r : ρ}
  {source : Source σ α} {tracker : Tracker τ} {t : τ} {moves : List (Move α)}

section Failed
variable {e : Fault} (hfailed : (begin artifact resolver located channel h r).answer = .error e)
include hfailed

theorem run_failed : run artifact resolver source tracker located channel h r t moves =
    { trace := (begin artifact resolver located channel h r).trace ++ [.artifactReleased]
      result := some (.error e)
      state := (begin artifact resolver located channel h r).state } := by
  simp only [run, Begun.finish, hfailed]

/-- What is said of a run that ends before the pool. -/
theorem run_halted {state : η} {requests : List Event}
    (hstate : (begin artifact resolver located channel h r).state = state)
    (hprepared : Prepared requests (begin artifact resolver located channel h r).trace) :
    let R := run artifact resolver source tracker located channel h r t moves
    ReleasedOnce 0 R.trace ∧ Trace.Logged R.trace ∧
      Halted e state requests R := by
  intro R
  have hR : R = _ := run_failed hfailed
  refine ⟨⟨_, [], by rw [hR], hprepared.released, by simp, by simp, by simp⟩, ?_, ?_⟩
  · rw [hR]
    exact hprepared.logged.append trivial
  · refine ⟨by rw [hR], by rw [hR, hstate], ?_, ?_, fun ev hev => ?_⟩
    · rw [hR, Trace.requests_append, hprepared.requests]
      exact List.append_nil _
    · rw [hR, Trace.stages_append, hprepared.stages]
      rfl
    · rw [hR] at hev
      rcases List.mem_append.mp hev with hev | hev
      · exact hprepared.owner ev hev
      · rw [List.mem_singleton.mp hev]
        rfl

/-- A run that fails before the channel is asked for never asks for it. -/
theorem not_opened {requests : List Event}
    (hprepared : Prepared requests (begin artifact resolver located channel h r).trace)
    (hnone : ∀ name, .askedFor name ∉ requests) :
    OpenedOnce channel (run artifact resolver source tracker located channel h r t moves).trace := by
  rw [run_failed hfailed]
  exact ⟨_, _, rfl, hprepared.owner, hprepared.stages, fun name => hprepared.not_asked (hnone name),
    .inl rfl⟩

end Failed

section Opened
variable {sources : List σ}
  (hopened : (begin artifact resolver located channel h r).answer = .ok sources)
include hopened

variable (source tracker t moves) in
/-- A run whose channel has been opened is what came before and a run of the pool. -/
theorem run_opened :
    let R := run artifact resolver source tracker located channel h r t moves
    let p := (Pool.start channel sources t []).run source tracker moves
    R.trace = (begin artifact resolver located channel h r).trace ++ p.trace ∧
    R.result = p.result? ∧ R.state = (begin artifact resolver located channel h r).state := by
  intro R p
  have hp : (Pool.start channel sources t (begin artifact resolver located channel h r).trace).run
      source tracker moves = p.behind (begin artifact resolver located channel h r).trace :=
    Pool.run_fresh _ moves
  simp only [R, run, Begun.finish, hopened, hp, and_true]
  exact ⟨rfl, rfl⟩

/-- When the pool is done, all its sources have been released, and then the artifact. -/
theorem opened_released {requests : List Event}
    (hprepared : Prepared requests (begin artifact resolver located channel h r).trace) :
    let R := run artifact resolver source tracker located channel h r t moves
    (R.result = none → .artifactReleased ∉ R.trace) ∧
      (R.result.isSome = true → ReleasedOnce sources.length R.trace) := by
  intro R
  obtain ⟨htrace, hresult, _⟩ := run_opened source tracker t moves hopened
  have hgoverned := Pool.run_governed source tracker channel sources t moves
  have hlength : ((Pool.start channel sources t []).run source tracker moves).consumers.length =
      sources.length := by
    rw [Pool.run_length]
    exact List.length_map _
  refine ⟨fun hnone hm => ?_, fun hsome => ?_⟩
  · rw [htrace] at hm
    refine (List.mem_append.mp hm).elim hprepared.released (hgoverned.controlled.kept ?_)
    intro failure hp
    have hsome := Pool.result?_isSome.mpr ⟨failure, hp⟩
    rw [← hresult, hnone] at hsome
    cases hsome
  · rw [hresult] at hsome
    obtain ⟨failure, hp⟩ := Pool.result?_isSome.mp hsome
    obtain ⟨_, before, hbefore, hleft, hcount⟩ := hgoverned.done hp
    refine ⟨(begin artifact resolver located channel h r).trace ++ before ++
      [.controller Pool.stoppedLine], Event.enter .unloaded, ?_, fun hm => ?_, ?_, ?_, fun i hi => ?_⟩
    · rw [htrace, hbefore]
      simp only [Pool.lastEvents, List.append_assoc, List.cons_append, List.nil_append]
    · rcases List.mem_append.mp hm with hm | hm
      · exact (List.mem_append.mp hm).elim hprepared.released hleft.kept
      · simp [Event.controller] at hm
    · simp [Event.enter, Event.controller]
    · intro e he
      simp only [Event.enter, List.mem_cons, List.not_mem_nil, or_false] at he
      rcases he with rfl | rfl <;> rfl
    · have hfirst : (begin artifact resolver located channel h r).trace.count (.sourceReleased i) = 0 :=
        List.count_eq_zero.mpr fun hm => Option.some_ne_none i (hprepared.owner _ hm)
      rw [List.count_append, List.count_append, hfirst, hcount i (hlength ▸ hi)]
      simp [Event.controller]

/-- What is said of a run whose channel has been opened. -/
theorem run_staged {state : η} {requests : List Event}
    (hstate : (begin artifact resolver located channel h r).state = state)
    (hprepared : Prepared requests (begin artifact resolver located channel h r).trace) :
    let R := run artifact resolver source tracker located channel h r t moves
    R.state = state ∧ Trace.requests R.trace = requests ∧ Trace.stages R.trace <+: allStages ∧
      (R.result.isSome = true → Trace.stages R.trace = allStages) := by
  intro R
  obtain ⟨htrace, hresult, hsame⟩ := run_opened source tracker t moves hopened
  have hgoverned := Pool.run_governed source tracker channel sources t moves
  have hstages : Trace.stages R.trace = [.loaded, .attaching] ++
      ((Pool.start channel sources t []).run source tracker moves).phase.stages := by
    rw [htrace, Trace.stages_append, hprepared.stages, hgoverned.controlled.stages]
  refine ⟨hsame.trans hstate, ?_, ?_, fun hsome => ?_⟩
  · rw [htrace, Trace.requests_append, hprepared.requests, hgoverned.requests, List.append_nil]
  · rw [hstages]
    exact (List.prefix_append_right_inj _).mpr (Phase.stages_prefix _)
  · rw [hresult] at hsome
    obtain ⟨failure, hp⟩ := Pool.result?_isSome.mp hsome
    rw [hstages, hp]
    rfl

end Opened

end Run

section Order
variable (artifact : Instrumentation η σ) (resolver : Resolver ρ)
  (source : Source σ α) (tracker : Tracker τ) (located : Logged (Except Fault String))
  (channel : String) (h : η) (r : ρ) (t : τ) (moves : List (Move α))

theorem run_released :
    let R := run artifact resolver source tracker located channel h r t moves
    (R.result = none → .artifactReleased ∉ R.trace) ∧ (R.result.isSome = true →
      ReleasedOnce (begin artifact resolver located channel h r).sources.length R.trace) := by
  intro R
  obtain ⟨requests, hprepared⟩ := begin_prepared artifact resolver located channel h r
  cases hanswer : (begin artifact resolver located channel h r).answer with
  | error e =>
    obtain ⟨hreleased, _, hhalted⟩ := run_halted hanswer rfl hprepared
    simp only [Begun.sources, hanswer, List.length_nil]
    refine ⟨fun hnone => ?_, fun _ => hreleased⟩
    rw [show R.result = _ from hhalted.result] at hnone
    cases hnone
  | ok sources =>
    simp only [Begun.sources, hanswer]
    exact opened_released hanswer hprepared

theorem run_logged :
    Trace.Logged (run artifact resolver source tracker located channel h r t moves).trace := by
  obtain ⟨requests, hprepared⟩ := begin_prepared artifact resolver located channel h r
  cases hanswer : (begin artifact resolver located channel h r).answer with
  | error e => exact (run_halted hanswer rfl hprepared).2.1
  | ok sources =>
    rw [(run_opened source tracker t _ hanswer).1]
    exact hprepared.logged.append (Pool.run_governed source tracker channel sources t moves).logged

theorem run_announced (hdiscreet : Discreet artifact resolver located) :
    Trace.Announced (run artifact resolver source tracker located channel h r t moves).trace := by
  have hbegin := begin_announced hdiscreet channel h r
  cases hanswer : (begin artifact resolver located channel h r).answer with
  | error e =>
    rw [run_failed hanswer]
    exact hbegin.append rfl
  | ok sources =>
    rw [(run_opened source tracker t _ hanswer).1]
    exact hbegin.append (Pool.run_keeps (fun _ _ _ hm h => hm.announced h) _ moves rfl)

/-- After the channel has been asked for, nothing more is asked of the artifact. -/
theorem run_asked {library : String} {outcome : Probe.Outcome}
    (hlocated : located.answer = .ok library)
    (hpass : (Probe.pass artifact.host resolver library h r (artifact.declared h)).1 =
      .ok outcome) :
    ∃ before later, (run artifact resolver source tracker located channel h r t moves).trace =
        before ++ .askedFor channel :: later ∧
      Prepared (attachCalls library
        (Probe.pass artifact.host resolver library h r (artifact.declared h)).2) before ∧
      Trace.requests later = [] := by
  obtain ⟨_, _, before, hbefore, htrace⟩ := begin_asked artifact resolver channel h r hlocated hpass
  cases hanswer : (begin artifact resolver located channel h r).answer with
  | error e =>
    rw [run_failed hanswer, htrace]
    refine ⟨before, _, List.append_assoc .., hbefore, ?_⟩
    show Trace.requests (List.map Event.controller _ ++ [.artifactReleased]) = []
    rw [Trace.requests_append, requests_lines]
    rfl
  | ok sources =>
    have hpool := (Pool.run_governed source tracker channel sources t moves).requests
    rw [(run_opened source tracker t _ hanswer).1, htrace]
    refine ⟨before, _, List.append_assoc .., hbefore, ?_⟩
    show Trace.requests (List.map Event.controller _ ++ Pool.trace _) = []
    rw [Trace.requests_append, requests_lines, hpool]
    rfl

theorem run_opens_once :
    OpenedOnce channel (run artifact resolver source tracker located channel h r t moves).trace := by
  cases hlocated : located.answer with
  | error e =>
    obtain ⟨hanswer, _, hprepared⟩ := begin_unlocated artifact resolver channel h r hlocated
    exact not_opened hanswer hprepared
      nofun
  | ok library =>
    cases hpass : (Probe.pass artifact.host resolver library h r (artifact.declared h)).1 with
    | error e =>
      obtain ⟨hanswer, _, hprepared⟩ := begin_unattached artifact resolver channel h r hlocated hpass
      exact not_opened hanswer hprepared
        (attachCalls_not_asked _ _)
    | ok outcome =>
      obtain ⟨before, later, htrace, hbefore, hlater⟩ :=
        run_asked artifact resolver source tracker located channel h r t moves hlocated hpass
      refine ⟨before, _, htrace, hbefore.owner, hbefore.stages,
        fun name => hbefore.not_asked (attachCalls_not_asked _ _ name), .inr ⟨later, rfl, hlater, ?_⟩⟩
      obtain ⟨a, ha⟩ := List.exists_mem_of_ne_nil _ (Probe.pass_ok _ _ _ hpass).1
      have hcall : .attached a.probe library a.offset ∈ Trace.requests before := by
        rw [hbefore.requests]
        exact List.mem_append_left _ (List.mem_map.mpr ⟨a, ha, rfl⟩)
      exact ⟨_, _, _, (List.mem_filter.mp hcall).1⟩

/-- Unless drains go on for ever, every run can be brought to an end. -/
theorem run_can_finish (hbounded : Bounded source) :
    ∃ more, (run artifact resolver source tracker located channel h r t
      (moves ++ more)).result.isSome = true := by
  cases hanswer : (begin artifact resolver located channel h r).answer with
  | error e =>
    refine ⟨[], ?_⟩
    rw [run_failed hanswer]
    rfl
  | ok sources =>
    obtain ⟨more, hmore⟩ := Pool.can_finish tracker hbounded
      ((Pool.start channel sources t []).run source tracker moves)
    refine ⟨more, ?_⟩
    rw [(run_opened source tracker t _ hanswer).2.1, Pool.run_append]
    exact hmore

end Order

/-- **The order of every run**, whatever the artifact, the locator, the sources, the shutdown
and the schedule. The artifact is released when the run is over, once, after every source and
every call of the tracker. The channel is asked for once at most, after the attach calls. Every
stage entered is in the log: the first two if the library is not located, the pass fails or the
channel does not open, and then the run's result is that failure, nothing more is asked of the
artifact and the tracker is never called; all five otherwise. Where the parts that the run is given
write no such lines themselves, these are all the lines about the lifecycle that the controller
writes. If the sources' drains come to an end, no schedule is a dead end. -/
theorem run_order (artifact : Instrumentation η σ) (resolver : Resolver ρ)
    (source : Source σ α) (tracker : Tracker τ) (located : Logged (Except Fault String))
    (channel : String) (h : η) (r : ρ) (t : τ) (moves : List (Move α)) :
    let b := begin artifact resolver located channel h r
    let R := run artifact resolver source tracker located channel h r t moves
    let discreet := Discreet artifact resolver located
    let early := ["INFO Lifecycle: loaded", "INFO Lifecycle: attaching"]
    let all := ["INFO Lifecycle: loaded", "INFO Lifecycle: attaching", "INFO Lifecycle: polling",
      "INFO Lifecycle: stopping", "INFO Lifecycle: unloaded"]
    (R.result = none → .artifactReleased ∉ R.trace) ∧
    (R.result.isSome = true → ReleasedOnce b.sources.length R.trace) ∧
    OpenedOnce channel R.trace ∧
    Trace.Logged R.trace ∧
    (match located.answer with
    | .error e => Halted e h [] R ∧ (discreet → Trace.lifecycle R.trace = early)
    | .ok library =>
      let pass := Probe.pass artifact.host resolver library h r (artifact.declared h)
      (∃ before, Probe.Attaches artifact.host library h pass.2.attached before ∧
        pass.2.Stopped artifact.host library before) ∧
      match pass.1 with
      | .error e => Halted e pass.2.host (attachCalls library pass.2) R ∧
          (discreet → Trace.lifecycle R.trace = early)
      | .ok _ =>
        let opened := artifact.openChannel pass.2.host channel
        match opened.answer with
        | .error e => Halted e opened.state (attachCalls library pass.2 ++ [.askedFor channel]) R ∧
            (discreet → Trace.lifecycle R.trace = early)
        | .ok _ =>
          R.state = opened.state ∧
          Trace.requests R.trace = attachCalls library pass.2 ++ [.askedFor channel] ∧
          Trace.stages R.trace <+: allStages ∧
          (R.result.isSome = true → Trace.stages R.trace = allStages) ∧
          (discreet → Trace.lifecycle R.trace <+: all ∧
            (R.result.isSome = true → Trace.lifecycle R.trace = all))) ∧
    (Bounded source → ∃ more, (run artifact resolver source tracker located channel h r t
      (moves ++ more)).result.isSome = true) := by
  intro b R discreet early all
  obtain ⟨hkept, hreleased⟩ :=
    run_released artifact resolver source tracker located channel h r t moves
  have hlog := run_announced artifact resolver source tracker located channel h r t moves
  have hends : ∀ {e state requests}, Halted e state requests R →
      Halted e state requests R ∧ (discreet → Trace.lifecycle R.trace = early) :=
    fun hhalted => ⟨hhalted, fun hdiscreet => hhalted.lifecycle (hlog hdiscreet)⟩
  refine ⟨hkept, hreleased,
    run_opens_once artifact resolver source tracker located channel h r t moves,
    run_logged artifact resolver source tracker located channel h r t moves, ?_,
    run_can_finish artifact resolver source tracker located channel h r t moves⟩
  cases hlocated : located.answer with
  | error e =>
    obtain ⟨hanswer, hstate, hprepared⟩ := begin_unlocated artifact resolver channel h r hlocated
    exact hends (run_halted hanswer hstate hprepared).2.2
  | ok library =>
    refine ⟨Probe.pass_attaches artifact.host resolver library h r _, ?_⟩
    cases hpass : (Probe.pass artifact.host resolver library h r (artifact.declared h)).1 with
    | error e =>
      obtain ⟨hanswer, hstate, hprepared⟩ :=
        begin_unattached artifact resolver channel h r hlocated hpass
      exact hends (run_halted hanswer hstate hprepared).2.2
    | ok outcome =>
      obtain ⟨hanswer, hstate, before, hbefore, htrace⟩ :=
        begin_asked artifact resolver channel h r hlocated hpass
      have hprepared := asked_prepared hbefore channel
        (artifact.openChannel (Probe.pass artifact.host resolver library h r
          (artifact.declared h)).2.host channel).lines
      rw [← htrace] at hprepared
      cases hopened : (artifact.openChannel (Probe.pass artifact.host resolver library h r
          (artifact.declared h)).2.host channel).answer with
      | error e =>
        simp only [hopened]
        exact hends (run_halted (hanswer.trans hopened) hstate hprepared).2.2
      | ok sources =>
        simp only [hopened]
        obtain ⟨hsame, hrequests, hprefix, hover⟩ :=
          run_staged (hanswer.trans hopened) hstate hprepared
        refine ⟨hsame, hrequests, hprefix, hover, fun hdiscreet => ?_⟩
        have hlines : Trace.lifecycle R.trace = (Trace.stages R.trace).map (·.line.plain) :=
          hlog hdiscreet
        refine ⟨?_, fun hsome => ?_⟩
        · rw [hlines, show all = _ from allStages_lines.symm]
          exact hprefix.map _
        · rw [hlines, hover hsome, allStages_lines]

/-! ### One run -/

/-- An artifact with one probe, which attaches it anywhere and opens the sources given. -/
def Instrumentation.willing (sources : List σ) : Instrumentation Unit σ where
  declared _ := [⟨"enter", "uprobe/lookup", .entry, "lookup"⟩]
  host := { attach := fun _ _ _ _ => { answer := .ok (), state := () } }
  openChannel _ _ := { answer := .ok sources, state := () }

/-- Every function is at the start of its library. -/
def atStart : Resolver Unit where
  resolve s _ _ := { answer := .ok 0, state := s }

/-- A run with one source, up to the shutdown and the release, after a locator that has written a
line. -/
theorem run_order_shutdown :
    let located : Logged (Except Fault String) :=
      { answer := .ok "libc.so.6"
        lines := [⟨.debug, .library, "Found runtime library in memory maps: libc.so.6"⟩] }
    let R := run (.willing [({} : Queue)]) atStart Queue.source Tracker.recorder located "events"
      () () [] [.advance, .shutdown, .advance, .work 0, .join 0, .advance]
    ReleasedOnce 1 R.trace ∧ Trace.stages R.trace = allStages ∧
      Trace.lifecycle R.trace = ["INFO Lifecycle: loaded", "INFO Lifecycle: attaching",
        "INFO Lifecycle: polling", "INFO Lifecycle: stopping", "INFO Lifecycle: unloaded"] := by
  intro located R
  obtain ⟨_, hreleased, _, _, ⟨_, _, _, _, hstages, hlifecycle⟩, _⟩ :=
    run_order (.willing [({} : Queue)]) atStart Queue.source Tracker.recorder located "events"
      () () [] [.advance, .shutdown, .advance, .work 0, .join 0, .advance]
  have hdiscreet : Discreet (.willing [({} : Queue)]) atStart located :=
    ⟨by decide, nofun, nofun, nofun⟩
  exact ⟨hreleased rfl, hstages rfl, (hlifecycle hdiscreet).2 rfl⟩

end LookupTap.Lifecycle
