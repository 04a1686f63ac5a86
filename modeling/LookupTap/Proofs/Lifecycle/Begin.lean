import LookupTap.Lifecycle
import LookupTap.Proofs.Probe.Pass
import LookupTap.Proofs.Pump.Trace

/-! The part of a run before the pool.

It leaves two stages on the trace, the requests that were made of the artifact, and nothing of
any consumer (`Prepared`): no request when the library is not located, the attach calls of the
pass when that fails, and these and the opening of the channel otherwise. -/
namespace LookupTap.Lifecycle

open Pump

/-! ### Lines and requests -/

/-- The events of the part before the pool, with the requests made of the artifact. -/
structure Prepared (requests events : List Event) : Prop where
  owner : ∀ e ∈ events, e.owner? = none
  stages : Trace.stages events = [.loaded, .attaching]
  logged : Trace.Logged events
  released : .artifactReleased ∉ events
  requests : Trace.requests events = requests

/-- Lines and requests are all there is to getting ready. -/
def prepares : Event → Bool
  | .wrote .controller _ => true
  | e => e.isRequest

theorem Prepared.append {requests events more : List Event} (h : Prepared requests events)
    (hmore : ∀ e ∈ more, prepares e = true) :
    Prepared (requests ++ Trace.requests more) (events ++ more) := by
  have howner : ∀ e ∈ more, e.owner? = none := by
    intro e he
    have := hmore e he
    cases e with
    | wrote author line => cases author <;> first | rfl | cases this
    | _ => first | rfl | cases this
  have hstages : Trace.stages more = [] := by
    refine List.filterMap_eq_nil_iff.mpr fun e he => ?_
    have := hmore e he
    cases e with
    | entered stage => cases this
    | _ => rfl
  refine ⟨fun e he => (List.mem_append.mp he).elim (h.owner e) (howner e), ?_,
    h.logged.append (Trace.logged_of_stages hstages), fun hm => ?_, ?_⟩
  · rw [Trace.stages_append, h.stages, hstages]
    rfl
  · exact (List.mem_append.mp hm).elim h.released fun hm => by cases hmore _ hm
  · rw [Trace.requests_append, h.requests]

theorem prepares_lines (lines : List Line) :
    ∀ e ∈ lines.map Event.controller, prepares e = true := by
  intro e he
  obtain ⟨line, _, rfl⟩ := List.mem_map.mp he
  rfl

theorem requests_lines (lines : List Line) : Trace.requests (lines.map .controller) = [] := by
  refine Trace.requests_eq_nil.mpr fun e he => ?_
  obtain ⟨line, _, rfl⟩ := List.mem_map.mp he
  rfl

theorem Prepared.lines {requests events : List Event} (h : Prepared requests events)
    (lines : List Line) : Prepared requests (events ++ lines.map .controller) := by
  have := h.append (prepares_lines lines)
  rwa [requests_lines, List.append_nil] at this

section Run
variable {η σ ρ : Type} {artifact : Instrumentation η σ} {resolver : Resolver ρ}

/-- The attach calls of a pass, the last of them refused perhaps. -/
def attachCalls (library : String) (w : Probe.Walk η ρ) : List Event :=
  (w.attached.map fun a => .attached a.probe library a.offset) ++
    w.refused.toList.map fun a => .refused a.probe library a.offset

theorem attachCalls_requests (library : String) (w : Probe.Walk η ρ) :
    ∀ e ∈ attachCalls library w, e.isRequest = true := by
  intro e he
  rcases List.mem_append.mp he with he | he
  · obtain ⟨a, _, rfl⟩ := List.mem_map.mp he
    rfl
  · obtain ⟨a, _, rfl⟩ := List.mem_map.mp he
    rfl

theorem Prepared.pass {requests events : List Event} (h : Prepared requests events)
    (library : String) (w : Probe.Walk η ρ) :
    Prepared (requests ++ attachCalls library w) (events ++ passEvents library w) := by
  have hcalls := attachCalls_requests library w
  have hprepares : ∀ e ∈ attachCalls library w, prepares e = true := by
    intro e he
    have := hcalls e he
    cases e <;> first | rfl | cases this
  have heq : passEvents library w = w.lines.map .controller ++ attachCalls library w :=
    List.append_assoc ..
  have happend := (h.lines w.lines).append hprepares
  rw [show Trace.requests (attachCalls library w) = attachCalls library w from
    List.filter_eq_self.mpr hcalls] at happend
  rwa [heq, ← List.append_assoc]

/-- The two stages before the pool, and what the locator writes. -/
theorem prepared_located (lines : List Line) :
    Prepared [] (Event.enter .loaded ++ Event.enter .attaching ++ lines.map .controller) := by
  have hfirst : Prepared [] (Event.enter .loaded ++ Event.enter .attaching) := by
    refine ⟨?_, rfl, ⟨rfl, rfl, trivial⟩, by simp [Event.enter, Event.controller], rfl⟩
    intro e he
    simp only [Event.enter, List.cons_append, List.nil_append, List.mem_cons, List.not_mem_nil,
      or_false] at he
    rcases he with rfl | rfl | rfl | rfl <;> rfl
  exact hfirst.lines lines

variable (artifact) (resolver) {located : Logged (Except Fault String)} (channel : String) (h : η)
  (r : ρ)

theorem begin_unlocated {e : Fault} (hlocated : located.answer = .error e) :
    (begin artifact resolver located channel h r).answer = .error e ∧
    (begin artifact resolver located channel h r).state = h ∧
    Prepared [] (begin artifact resolver located channel h r).trace := by
  simp only [begin, hlocated, true_and]
  exact prepared_located located.lines

section Located
variable {library : String} (hlocated : located.answer = .ok library)
include hlocated

theorem begin_unattached {e : Fault}
    (hpass : (Probe.pass artifact.host resolver library h r (artifact.declared h)).1 = .error e) :
    let w := (Probe.pass artifact.host resolver library h r (artifact.declared h)).2
    (begin artifact resolver located channel h r).answer = .error e ∧
    (begin artifact resolver located channel h r).state = w.host ∧
    Prepared (attachCalls library w) (begin artifact resolver located channel h r).trace := by
  intro w
  simp only [begin, hlocated, attachThenOpen, hpass, true_and]
  exact ⟨rfl, ((prepared_located located.lines).lines [libraryLine library]).pass library w⟩

theorem begin_asked {outcome : Probe.Outcome}
    (hpass : (Probe.pass artifact.host resolver library h r (artifact.declared h)).1 =
      .ok outcome) :
    let w := (Probe.pass artifact.host resolver library h r (artifact.declared h)).2
    let opened := artifact.openChannel w.host channel
    (begin artifact resolver located channel h r).answer = opened.answer ∧
    (begin artifact resolver located channel h r).state = opened.state ∧
    ∃ before, Prepared (attachCalls library w) before ∧
      (begin artifact resolver located channel h r).trace =
        before ++ .askedFor channel :: opened.lines.map .controller := by
  intro w opened
  simp only [begin, hlocated, attachThenOpen, hpass, openAfter]
  refine ⟨rfl, rfl, _, (((prepared_located located.lines).lines [libraryLine library]).pass
    library w).lines (skippedLine? outcome.skipped).toList, ?_⟩
  rw [List.append_assoc _ [Event.askedFor channel]]
  rfl

end Located

theorem asked_prepared {requests before : List Event} (h : Prepared requests before)
    (channel : String) (lines : List Line) :
    Prepared (requests ++ [.askedFor channel])
      (before ++ .askedFor channel :: lines.map .controller) := by
  have hmore : ∀ e ∈ Event.askedFor channel :: lines.map .controller, prepares e = true := by
    intro e he
    rcases List.mem_cons.mp he with rfl | he
    · rfl
    · exact prepares_lines lines e he
  have happend := h.append hmore
  rwa [show Trace.requests (.askedFor channel :: lines.map .controller) = [.askedFor channel] from
    congrArg (Event.askedFor channel :: ·) (requests_lines lines)] at happend

theorem Prepared.not_asked {requests events : List Event} (h : Prepared requests events)
    {name : String} (hnone : .askedFor name ∉ requests) : .askedFor name ∉ events := by
  intro hm
  have hrequest : .askedFor name ∈ Trace.requests events := List.mem_filter.mpr ⟨hm, rfl⟩
  rw [h.requests] at hrequest
  exact hnone hrequest

theorem attachCalls_not_asked (library : String) (w : Probe.Walk η ρ) (name : String) :
    .askedFor name ∉ attachCalls library w := by
  simp [attachCalls]

theorem begin_prepared (artifact : Instrumentation η σ) (resolver : Resolver ρ)
    (located : Logged (Except Fault String)) (channel : String) (h : η) (r : ρ) :
    ∃ requests, Prepared requests (begin artifact resolver located channel h r).trace := by
  cases hlocated : located.answer with
  | error e => exact ⟨_, (begin_unlocated artifact resolver channel h r hlocated).2.2⟩
  | ok library =>
    cases hpass : (Probe.pass artifact.host resolver library h r (artifact.declared h)).1 with
    | error e => exact ⟨_, (begin_unattached artifact resolver channel h r hlocated hpass).2.2⟩
    | ok outcome =>
      obtain ⟨_, _, before, hbefore, htrace⟩ := begin_asked artifact resolver channel h r hlocated hpass
      rw [htrace]
      exact ⟨_, asked_prepared hbefore channel _⟩

end Run

end LookupTap.Lifecycle
