import LookupTap.Proofs.Pump.Ending

/-! Control: what the controller does, by where it is.

Until it leaves the polling stage the controller joins nobody and warns of nothing (`Early`).
It leaves for one reason, the shutdown or the first consumer that it joins (`Departure`), and
from then on joins consumers and warns of each that did not stop as it was told to
(`Collection`). `Controlled` says so of a pool; every move keeps it, given what else is known
of every pool (`Governed`). -/
namespace LookupTap.Pump

variable {σ τ α : Type}

/-! ### Three parts of a trace -/

/-- Events of a controller that has not left the polling stage. -/
structure Early (stages : List Stage) (events : List Event) : Prop where
  stages : Trace.stages events = stages
  joins : Trace.joins events = []
  warnings : Trace.warnings events = []
  shutdown : .shutdown ∉ events
  released : .artifactReleased ∉ events

/-- The one reason why a controller leaves the polling stage: the shutdown, or the first
consumer that it has joined, which did not stop as it was told to. -/
def Reason (channel : String) (first : List Event) : Option Fault → Prop
  | none => Trace.joins first = [] ∧ .shutdown ∈ first
  | some fault => .shutdown ∉ first ∧ ∃ i how, Trace.joins first = [(i, how)] ∧ how ≠ .stopped ∧
      fault = how.fault channel

/-- Events up to the moment when the controller leaves. -/
structure Departure (channel : String) (failure : Option Fault) (first : List Event) : Prop where
  stages : Trace.stages first = [.polling]
  warnings : Trace.warnings first = []
  released : .artifactReleased ∉ first
  reason : Reason channel first failure

/-- Events of a controller that stops the pool: whom it joins it may have to warn of. -/
structure Collection (last : List Event) : Prop where
  stages : Trace.stages last = []
  warnings : Trace.warnings last = (Trace.joins last).filterMap (·.2.line?)
  shutdown : .shutdown ∉ last
  released : .artifactReleased ∉ last

theorem Early.append {stages : List Stage} {events more : List Event} (h : Early stages events)
    (hm : Trace.Silent more) : Early stages (events ++ more) where
  stages := by rw [Trace.stages_append, h.stages, hm.stages, List.append_nil]
  joins := by rw [Trace.joins_append, h.joins, hm.joins, List.append_nil]
  warnings := by rw [Trace.warnings_append, h.warnings, hm.warnings, List.append_nil]
  shutdown hmem := (List.mem_append.mp hmem).elim h.shutdown hm.shutdown
  released hmem := (List.mem_append.mp hmem).elim h.released hm.released

theorem Collection.append {last more : List Event} (h : Collection last) (hm : Collection more) :
    Collection (last ++ more) where
  stages := by rw [Trace.stages_append, h.stages, hm.stages, List.append_nil]
  warnings := by
    rw [Trace.warnings_append, Trace.joins_append, h.warnings, hm.warnings, List.filterMap_append]
  shutdown hmem := (List.mem_append.mp hmem).elim h.shutdown hm.shutdown
  released hmem := (List.mem_append.mp hmem).elim h.released hm.released

theorem Collection.silent {events : List Event} (h : Trace.Silent events) : Collection events where
  stages := h.stages
  warnings := by rw [h.warnings, h.joins, List.filterMap_nil]
  shutdown := h.shutdown
  released := h.released

/-- A warning for each consumer that is joined and did not stop as it was told to. -/
theorem collection_joined (i : Nat) (how : Ending) :
    Collection (.joined i how :: how.line?.toList.map .controller) := by
  cases how with
  | stopped => exact ⟨rfl, rfl, by simp [Ending.line?], by simp [Ending.line?]⟩
  | failed fault =>
    exact ⟨rfl, rfl, by simp [Ending.line?, Event.controller], by simp [Ending.line?, Event.controller]⟩
  | crashed message =>
    exact ⟨rfl, rfl, by simp [Ending.line?, Event.controller], by simp [Ending.line?, Event.controller]⟩

theorem collection_entered : Collection [.controller Stage.stopping.line] :=
  ⟨rfl, rfl, by simp [Event.controller], by simp [Event.controller]⟩

/-- The controller starts to poll. -/
theorem Early.start {events : List Event} (h : Early [] events) (count : Nat) :
    Early [.polling] (events ++ Pool.firstEvents count) where
  stages := by rw [Trace.stages_append, h.stages]; rfl
  joins := by rw [Trace.joins_append, h.joins]; rfl
  warnings := by rw [Trace.warnings_append, h.warnings]; rfl
  shutdown hmem := (List.mem_append.mp hmem).elim h.shutdown
    (by simp [Pool.firstEvents, Event.enter, Event.controller])
  released hmem := (List.mem_append.mp hmem).elim h.released
    (by simp [Pool.firstEvents, Event.enter, Event.controller])

/-- The controller leaves at the shutdown. -/
theorem Early.shut {channel : String} {events : List Event} (h : Early [.polling] events) :
    Departure channel none (events ++ [.shutdown]) where
  stages := by rw [Trace.stages_append, h.stages]; rfl
  warnings := by rw [Trace.warnings_append, h.warnings]; rfl
  released hmem := (List.mem_append.mp hmem).elim h.released (by simp)
  reason := ⟨by rw [Trace.joins_append, h.joins]; rfl, by simp⟩

/-- The controller leaves with the first consumer that it joins. -/
theorem Early.fail {channel : String} {events : List Event} (h : Early [.polling] events)
    (i : Nat) {how : Ending} (hhow : how ≠ .stopped) :
    Departure channel (some (how.fault channel)) (events ++ [.joined i how]) where
  stages := by rw [Trace.stages_append, h.stages]; rfl
  warnings := by rw [Trace.warnings_append, h.warnings]; rfl
  released hmem := (List.mem_append.mp hmem).elim h.released (by simp)
  reason := ⟨fun hmem => (List.mem_append.mp hmem).elim h.shutdown (by simp), i, how,
    by rw [Trace.joins_append, h.joins]; rfl, hhow, rfl⟩

/-- Events of a controller that has left, for one reason. -/
def Left (channel : String) (failure : Option Fault) (events : List Event) : Prop :=
  ∃ first last, events = first ++ .entered .stopping :: last ∧ Departure channel failure first ∧
    Collection last

section Left
variable {channel : String} {failure : Option Fault} {events : List Event}

theorem Left.append (h : Left channel failure events) {more : List Event} (hm : Collection more) :
    Left channel failure (events ++ more) := by
  obtain ⟨first, last, hevents, hfirst, hlast⟩ := h
  exact ⟨first, last ++ more, by rw [hevents, List.append_assoc, List.cons_append], hfirst,
    hlast.append hm⟩

theorem Left.stages (h : Left channel failure events) :
    Trace.stages events = [.polling, .stopping] := by
  obtain ⟨first, last, hevents, hfirst, hlast⟩ := h
  rw [hevents, List.append_cons, Trace.stages_append, Trace.stages_append, hfirst.stages,
    hlast.stages]
  rfl

/-- The artifact is kept while the controller stops the pool. -/
theorem Left.kept (h : Left channel failure events) : .artifactReleased ∉ events := by
  obtain ⟨first, last, hevents, hfirst, hlast⟩ := h
  intro hm
  rw [hevents] at hm
  refine (List.mem_append.mp hm).elim hfirst.released fun hm => ?_
  exact (List.mem_cons.mp hm).elim nofun hlast.released

end Left

/-- The stages that the controller of a pool has entered, by where it is. -/
def Phase.stages : Phase → List Stage
  | starting => []
  | polling => [.polling]
  | leaving _ => [.polling, .stopping]
  | stopping _ => [.polling, .stopping]
  | finished _ => [.polling, .stopping, .unloaded]

theorem Phase.stages_prefix (p : Phase) : p.stages <+: [.polling, .stopping, .unloaded] := by
  cases p with
  | starting => exact ⟨_, rfl⟩
  | polling => exact ⟨_, rfl⟩
  | leaving _ => exact ⟨_, rfl⟩
  | stopping _ => exact ⟨_, rfl⟩
  | finished _ => exact ⟨[], rfl⟩

namespace Pool

/-! ### The controller's part -/

/-- What the controller has done, by where it is. -/
def Controlled (p : Pool σ τ) : Prop :=
  match p.phase with
  | .starting => Early [] p.trace
  | .polling => Early [.polling] p.trace
  | .leaving failure => Left p.channel failure p.trace
  | .stopping failure => Left p.channel failure p.trace
  | .finished failure => ∃ before, p.trace = before ++ lastEvents ∧ Left p.channel failure before

/-- What is known of every pool at every time. -/
structure Governed (p : Pool σ τ) : Prop where
  recorded : Recorded p
  held : Held p
  requests : Trace.requests p.trace = []
  logged : Trace.Logged p.trace
  unasked : p.phase.told = false → ∀ i, .ended i .stopped ∉ p.trace
  controlled : Controlled p

theorem Controlled.finished {p : Pool σ τ} (h : Controlled p) {failure : Option Fault}
    (hp : p.phase = .finished failure) :
    ∃ before, p.trace = before ++ lastEvents ∧ Left p.channel failure before := by
  simp only [Controlled, hp] at h
  exact h

theorem Controlled.released {p : Pool σ τ} (h : Controlled p) {failure : Option Fault}
    (hp : p.phase = .finished failure) : .artifactReleased ∈ p.trace := by
  obtain ⟨before, htrace, _⟩ := h.finished hp
  rw [htrace]
  exact List.mem_append_right _ (by simp [lastEvents])

theorem Controlled.stages {p : Pool σ τ} (h : Controlled p) :
    Trace.stages p.trace = p.phase.stages := by
  unfold Controlled at h
  cases hp : p.phase <;> simp only [hp] at h
  case starting => exact h.stages
  case polling => exact h.stages
  case leaving failure => exact h.stages
  case stopping failure => exact h.stages
  case finished failure =>
    obtain ⟨before, htrace, hleft⟩ := h
    rw [htrace, Trace.stages_append, hleft.stages]
    rfl

theorem Controlled.kept {p : Pool σ τ} (h : Controlled p)
    (hp : ∀ failure, p.phase ≠ .finished failure) : .artifactReleased ∉ p.trace := by
  unfold Controlled at h
  cases hphase : p.phase <;> simp only [hphase] at h
  case starting => exact h.released
  case polling => exact h.released
  case leaving failure => exact h.kept
  case stopping failure => exact h.kept
  case finished failure => exact absurd hphase (hp failure)

variable {source : Source σ α} {tracker : Tracker τ}

/-- Events that say nothing about the controller keep its part. -/
theorem Controlled.keep {p p' : Pool σ τ} (h : Controlled p) {events : List Event}
    (htrace : p'.trace = p.trace ++ events) (hphase : p'.phase = p.phase)
    (hchannel : p'.channel = p.channel) (hsilent : Trace.Silent events)
    (hkept : events ≠ [] → .artifactReleased ∉ p.trace) : Controlled p' := by
  have hfinished : ∀ failure, p.phase = .finished failure → events = [] := fun failure hp =>
    Decidable.byContradiction fun hne => hkept hne (h.released hp)
  unfold Controlled at h ⊢
  rw [hphase, hchannel, htrace]
  cases hp : p.phase <;> simp only [hp] at h ⊢
  case starting => exact h.append hsilent
  case polling => exact h.append hsilent
  case leaving failure => exact h.append (.silent hsilent)
  case stopping failure => exact h.append (.silent hsilent)
  case finished failure =>
    rw [hfinished failure hp, List.append_nil]
    exact h

/-- Nobody has stopped before being told to, so the first consumer joined has failed. -/
theorem Recorded.not_stopped {p : Pool σ τ} (h : Recorded p)
    (hunasked : ∀ i, .ended i .stopped ∉ p.trace) {i : Nat} {how : Ending}
    (hc : p.consumers[i]? = some (.ended how)) : how ≠ .stopped := by
  intro hhow
  have hcount := h.joins i how
  rw [unjoined_of hc, if_pos (show Consumer.ended? (.ended how) = some how from rfl)] at hcount
  have hmem : (i, how) ∈ Trace.endings p.trace := List.count_pos_iff.mp (by omega)
  rw [hhow] at hmem
  exact hunasked i (Trace.mem_endings.mp hmem)

theorem Moved.controlled {p p' : Pool σ τ} {m : Move α} (hm : Moved source tracker p m p')
    (h : Governed p) : Controlled p' := by
  have hcontrolled := h.controlled
  cases hm with
  | idle _ => exact hcontrolled
  | arrived hc =>
    exact hcontrolled.keep rfl rfl rfl (Trace.silent nofun) fun _ => h.held.kept hc rfl
  | worked hc ht =>
    exact hcontrolled.keep rfl rfl rfl ht.silent fun _ => h.held.kept hc rfl
  | shutdown hp =>
    simp only [Controlled, hp] at hcontrolled
    exact ⟨p.trace ++ [.shutdown], _, rfl, hcontrolled.shut, collection_entered⟩
  | @failed i how hc hp =>
    simp only [Controlled, hp] at hcontrolled
    have hhow := h.recorded.not_stopped (h.unasked (by rw [hp]; rfl)) hc
    refine ⟨p.trace ++ [.joined i how], _, ?_, hcontrolled.fail i hhow, collection_entered⟩
    rw [joined_leave_trace, List.append_assoc]
    rfl
  | joined hc hp =>
    simp only [Controlled, hp] at hcontrolled
    simp only [Controlled, update_phase, hp, update_trace]
    exact hcontrolled.append (collection_joined _ _)
  | started hp =>
    simp only [Controlled, hp] at hcontrolled
    exact hcontrolled.start p.consumers.length
  | told hp =>
    simp only [Controlled, hp] at hcontrolled
    exact hcontrolled
  | finished hp _ =>
    simp only [Controlled, hp] at hcontrolled
    exact ⟨p.trace, rfl, hcontrolled⟩

/-- Nobody stops before being told to. -/
theorem Moved.unasked {p p' : Pool σ τ} {m : Move α} (hm : Moved source tracker p m p')
    (h : p.phase.told = false → ∀ i, .ended i .stopped ∉ p.trace) :
    p'.phase.told = false → ∀ i, .ended i .stopped ∉ p'.trace := by
  intro htold i hmem
  have hold : p.phase.told = false := by
    cases hp : p.phase.told with
    | false => rfl
    | true =>
      rw [hm.keeps_told hp] at htold
      cases htold
  by_cases hwork : m = .work i
  · subst hwork
    cases hm with
    | idle _ => exact h hold i hmem
    | worked _ ht =>
      refine (List.mem_append.mp hmem).elim (h hold i) fun hnew => ?_
      cases ht.outcome with
      | running hnone _ => exact Trace.ended_not_mem hnone i _ hnew
      | ended hnone _ hstopped =>
        refine (List.mem_append.mp hnew).elim (Trace.ended_not_mem hnone i _) fun hend => ?_
        rw [hstopped ((ended_mem_ending i).mp hend).2.symm] at hold
        cases hold
  · obtain ⟨events, htrace, hforeign⟩ := hm.foreign hwork
    rw [htrace] at hmem
    exact (List.mem_append.mp hmem).elim (h hold i) (hforeign.ended _)

theorem Moved.logged {p p' : Pool σ τ} {m : Move α} (hm : Moved source tracker p m p')
    (h : Trace.Logged p.trace) : Trace.Logged p'.trace := by
  cases hm with
  | idle _ => exact h
  | arrived _ => exact h.append trivial
  | worked _ ht =>
    exact h.append (Trace.logged_of_stages ht.silent.stages)
  | shutdown _ =>
    have hshutdown : Trace.Logged [.shutdown] := trivial
    exact (h.append hshutdown).append (Trace.logged_enter .stopping)
  | @failed i how _ _ =>
    rw [joined_leave_trace]
    exact h.append (Trace.logged_enter .stopping)
  | @joined i how _ _ _ => exact h.append (Trace.logged_of_stages (collection_joined i how).stages)
  | started _ => exact h.append ⟨rfl, trivial⟩
  | told _ => exact h
  | finished _ _ => exact h.append ⟨rfl, trivial⟩

theorem Moved.governed {p p' : Pool σ τ} {m : Move α} (hm : Moved source tracker p m p')
    (h : Governed p) : Governed p' :=
  ⟨hm.recorded h.recorded, hm.held h.held, hm.requests h.requests, hm.logged h.logged,
    hm.unasked h.unasked, hm.controlled h⟩

/-- Every run of a pool is governed. -/
theorem run_governed (source : Source σ α) (tracker : Tracker τ) (channel : String)
    (sources : List σ) (t : τ) (moves : List (Move α)) :
    Governed ((start channel sources t []).run source tracker moves) := by
  refine run_keeps (fun _ _ _ hm h => hm.governed h) _ moves ?_
  exact ⟨start_recorded channel sources t, nofun, rfl, trivial, fun _ _ => nofun,
    ⟨rfl, rfl, rfl, nofun, nofun⟩⟩

/-! ### The result -/

theorem result?_isSome {p : Pool σ τ} :
    p.result?.isSome = true ↔ ∃ failure, p.phase = .finished failure := by
  unfold result?
  cases hp : p.phase with
  | finished failure => cases failure <;> simp
  | _ => simp

/-- What the trace of a pool that is done consists of. -/
theorem Governed.done {p : Pool σ τ} (h : Governed p) {failure : Option Fault}
    (hp : p.phase = .finished failure) :
    p.consumers.all Consumer.isJoined = true ∧
      ∃ before, p.trace = before ++ lastEvents ∧ Left p.channel failure before ∧
        ∀ i < p.consumers.length, before.count (.sourceReleased i) = 1 := by
  have hall := h.held (h.controlled.released hp)
  obtain ⟨before, htrace, hleft⟩ := h.controlled.finished hp
  refine ⟨hall, before, htrace, hleft, fun i hi => ?_⟩
  have hcount := h.recorded.released i
  rw [htrace, List.count_append, gone_of_joined hall, decide_eq_true hi, if_pos rfl] at hcount
  have hlast : lastEvents.count (.sourceReleased i) = 0 := by
    simp [lastEvents, Event.enter, Event.controller]
  omega

/-- A pool that is done has left for one reason, and has joined everybody, each of whom has
ended once; its warnings are about those whom it joined after it left. -/
theorem Governed.reported {p : Pool σ τ} (h : Governed p) {failure : Option Fault}
    (hp : p.phase = .finished failure) :
    ∃ first last, p.trace = first ++ .entered .stopping :: last ∧
      ((Trace.endings (first ++ last)).map Prod.fst).Perm (List.range p.consumers.length) ∧
      (Trace.joins (first ++ last)).Perm (Trace.endings (first ++ last)) ∧
      Reason p.channel first failure ∧ .shutdown ∉ last ∧ Trace.warnings first = [] ∧
      Trace.warnings last = (Trace.joins last).filterMap (·.2.line?) := by
  obtain ⟨hall, before, hbefore, ⟨first, last, rfl, hfirst, hlast⟩, _⟩ := h.done hp
  rw [List.append_assoc, List.cons_append] at hbefore
  have hendings : Trace.endings p.trace = Trace.endings (first ++ (last ++ lastEvents)) := by
    rw [hbefore, Trace.endings_append, Trace.endings_append]
    rfl
  have hjoins : Trace.joins p.trace = Trace.joins (first ++ (last ++ lastEvents)) := by
    rw [hbefore, Trace.joins_append, Trace.joins_append]
    rfl
  refine ⟨first, last ++ lastEvents, hbefore, ?_, ?_, hfirst.reason, ?_, hfirst.warnings, ?_⟩
  · rw [← hendings]
    exact endings_perm hall h.recorded
  · rw [← hendings, ← hjoins]
    exact joins_perm hall h.recorded
  · intro hm
    exact (List.mem_append.mp hm).elim hlast.shutdown
      (by simp [lastEvents, Event.enter, Event.controller])
  · rw [Trace.warnings_append, Trace.joins_append, List.filterMap_append, hlast.warnings]
    rfl

end Pool

end LookupTap.Pump
