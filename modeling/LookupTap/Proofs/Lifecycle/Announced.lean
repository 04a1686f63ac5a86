import LookupTap.Proofs.Lifecycle.Begin
import LookupTap.Proofs.Pump.Moves

/-! What the log says of the lifecycle.

The controller writes a line when it enters a stage, and no other line of its own starts with the
same word (`Line.OfLifecycle`). The locator, the resolver, the host and the channel write lines of
theirs; where these keep off that word too (`Discreet`), what the log says of the lifecycle is what
it says of the stages entered, and nothing else (`Announced`). -/
namespace LookupTap

/-- A line about the lifecycle, by its text. -/
def Line.OfLifecycle (line : Line) : Prop := "Lifecycle: ".toList <+: line.text.toList

instance (line : Line) : Decidable line.OfLifecycle := inferInstanceAs (Decidable (_ <+: _))

/-- A text starts as its lead does. -/
theorem head?_append {lead : String} {c : Char} (h : lead.toList.head? = some c) (rest : String) :
    (lead ++ rest).toList.head? = some c := by
  rw [String.toList_append, List.head?_append, h]
  rfl

theorem Line.not_ofLifecycle {line : Line} {c : Char} (h : line.text.toList.head? = some c)
    (hc : c ≠ 'L') : ¬ line.OfLifecycle := by
  rintro ⟨rest, hrest⟩
  rw [← hrest] at h
  exact hc (Option.some.inj h).symm

namespace Pump

/-- What the log shows of a line of the controller, if that is about the lifecycle. -/
def Event.lifecycle? : Event → Option String
  | .wrote .controller line => if line.OfLifecycle then some line.plain else none
  | _ => none

namespace Trace

def lifecycle (events : List Event) : List String := events.filterMap Event.lifecycle?

@[simp] theorem lifecycle_append (first second : List Event) :
    lifecycle (first ++ second) = lifecycle first ++ lifecycle second :=
  List.filterMap_append

/-- The lines about the lifecycle are those about the stages entered. -/
def Announced (events : List Event) : Prop :=
  lifecycle events = (stages events).map (·.line.plain)

instance (events : List Event) : Decidable (Announced events) :=
  inferInstanceAs (Decidable (_ = _))

theorem Announced.append {first second : List Event} (h : Announced first)
    (hs : Announced second) : Announced (first ++ second) := by
  unfold Announced at *
  rw [lifecycle_append, stages_append, List.map_append, h, hs]

theorem announced_enter (stage : Stage) : Announced (Event.enter stage) := by
  cases stage <;> decide

/-- An event that has no place among the stages, nor in the log of them. -/
def Unspoken (e : Event) : Prop := e.stage? = none ∧ e.lifecycle? = none

theorem announced_of_unspoken {events : List Event} (h : ∀ e ∈ events, Unspoken e) :
    Announced events := by
  have hlifecycle : lifecycle events = [] := List.filterMap_eq_nil_iff.mpr fun e he => (h e he).2
  have hstages : stages events = [] := List.filterMap_eq_nil_iff.mpr fun e he => (h e he).1
  rw [Announced, hlifecycle, hstages]
  rfl

theorem unspoken_of_owner {e : Event} (h : e.owner? ≠ none) : Unspoken e := by
  cases e with
  | wrote author line =>
    cases author with
    | controller => exact absurd rfl h
    | consumer i => exact ⟨rfl, rfl⟩
  | entered stage => exact absurd rfl h
  | _ => exact ⟨rfl, rfl⟩

theorem unspoken_of_request {e : Event} (h : e.isRequest = true) : Unspoken e := by
  cases e with
  | wrote author line => cases h
  | entered stage => cases h
  | _ => exact ⟨rfl, rfl⟩

theorem unspoken_line {line : Line} (h : ¬ line.OfLifecycle) : Unspoken (.controller line) :=
  ⟨rfl, if_neg h⟩

theorem announced_lines {lines : List Line} (h : ∀ line ∈ lines, ¬ line.OfLifecycle) :
    Announced (lines.map .controller) := by
  refine announced_of_unspoken fun e he => ?_
  obtain ⟨line, hline, rfl⟩ := List.mem_map.mp he
  exact unspoken_line (h line hline)

theorem announced_line {line : Line} (h : ¬ line.OfLifecycle) : Announced [.controller line] :=
  announced_of_unspoken (List.forall_mem_singleton.mpr (unspoken_line h))

end Trace

/-! ### The pool's lines -/

theorem Ending.line?_other {how : Ending} {line : Line} (h : how.line? = some line) :
    ¬ line.OfLifecycle := by
  cases how with
  | stopped => cases h
  | failed fault =>
    cases h
    exact Line.not_ofLifecycle (c := 'E') (head?_append rfl _) (by decide)
  | crashed message =>
    cases h
    exact Line.not_ofLifecycle (c := 'E') (head?_append rfl _) (by decide)

namespace Pool

theorem startedLine_other (count : Nat) : ¬ (startedLine count).OfLifecycle :=
  Line.not_ofLifecycle (c := 'E') (head?_append (head?_append rfl _) _) (by decide)

theorem announced_firstEvents (count : Nat) : Trace.Announced (firstEvents count) := by
  have hstarted : Trace.Announced [.controller (startedLine count)] :=
    Trace.announced_line (startedLine_other count)
  have hactive : Trace.Announced [.controller activeLine] := by decide
  exact (hstarted.append (Trace.announced_enter .polling)).append hactive

variable {σ τ α : Type} {source : Source σ α} {tracker : Tracker τ}

theorem Moved.announced {p p' : Pool σ τ} {m : Move α} (hm : Moved source tracker p m p')
    (h : Trace.Announced p.trace) : Trace.Announced p'.trace := by
  cases hm with
  | idle _ => exact h
  | arrived _ =>
    rw [update_trace, List.append_nil]
    exact h
  | @worked i _ _ _ _ _ _ ht =>
    refine h.append (Trace.announced_of_unspoken fun e he => Trace.unspoken_of_owner ?_)
    rw [ht.owned e he]
    exact Option.some_ne_none i
  | shutdown _ =>
    have hshutdown : Trace.Announced [.shutdown] := by decide
    exact (h.append hshutdown).append (Trace.announced_enter .stopping)
  | @failed i how _ _ =>
    rw [joined_leave_trace]
    have hjoined : Trace.Announced [.joined i how] := rfl
    exact h.append (hjoined.append (Trace.announced_enter .stopping))
  | @joined i how _ _ _ =>
    have hjoined : Trace.Announced [.joined i how] := rfl
    refine h.append (hjoined.append (Trace.announced_lines fun line hline => ?_))
    exact Ending.line?_other (Option.mem_toList.mp hline)
  | started _ => exact h.append (announced_firstEvents _)
  | told _ => exact h
  | finished _ _ =>
    have hlast : Trace.Announced lastEvents := by decide
    exact h.append hlast

end Pool

end Pump

/-! ### The lines before the pool -/

namespace Probe

/-- The lines of a pass keep off the lifecycle if those of its resolver and its host do. -/
theorem pass_other {η ρ : Type} (host : Host η) (resolver : Resolver ρ) (library : String)
    (hresolver : ∀ r target, ∀ line ∈ (resolver.resolve r library target).lines,
      ¬ line.OfLifecycle)
    (hhost : ∀ h probe offset, ∀ line ∈ (host.attach h probe library offset).lines,
      ¬ line.OfLifecycle)
    (h : η) (r : ρ) (declared : List Probe) :
    ∀ line ∈ (pass host resolver library h r declared).2.lines, ¬ line.OfLifecycle := by
  have hskip : ∀ probe reason, ¬ (skipLine probe reason).OfLifecycle := fun probe reason =>
    Line.not_ofLifecycle (c := 'S') (head?_append (head?_append (head?_append rfl _) _) _)
      (by decide)
  have hwalk : ∀ line ∈ (walk host resolver library h r declared).lines, ¬ line.OfLifecycle := by
    fun_induction walk host resolver library h r declared with
    | case1 h r => exact fun other hother => absurd hother List.not_mem_nil
    | case2 h r probe rest looked symbol path hlooked line ih =>
      simp only [Walk.afterSkip, List.mem_append, List.mem_singleton]
      rintro other ((hother | rfl) | hother)
      · exact hresolver r probe.target other hother
      · exact hskip probe _
      · exact ih other hother
    | case3 h r probe rest looked e hother hlooked => exact hresolver r probe.target
    | case4 h r probe rest looked offset hlooked done e hdone =>
      simp only [List.mem_append]
      rintro other (hother | hother)
      · exact hresolver r probe.target other hother
      · exact hhost h probe offset other hother
    | case5 h r probe rest looked offset hlooked done hdone ih =>
      simp only [Walk.afterAttach, List.mem_append]
      rintro other ((hother | hother) | hother)
      · exact hresolver r probe.target other hother
      · exact hhost h probe offset other hother
      · exact ih other hother
  cases hresult : (walk host resolver library h r declared).result declared.length with
  | error e =>
    simp only [pass, hresult]
    exact hwalk
  | ok outcome =>
    simp only [pass, hresult, List.mem_append, List.mem_singleton]
    rintro line (hline | rfl)
    · exact hwalk line hline
    · exact Line.not_ofLifecycle (c := 'A') (head?_append (head?_append (head?_append
        (head?_append (head?_append rfl _) _) _) _) _) (by decide)

end Probe

namespace Lifecycle

open Pump

variable {η σ ρ τ α : Type}

/-- What a run is given keeps off the lines about the lifecycle. -/
structure Discreet (artifact : Instrumentation η σ) (resolver : Resolver ρ)
    (located : Logged (Except Fault String)) : Prop where
  locator : ∀ line ∈ located.lines, ¬ line.OfLifecycle
  resolver : ∀ r library target, ∀ line ∈ (resolver.resolve r library target).lines,
    ¬ line.OfLifecycle
  host : ∀ h probe library offset, ∀ line ∈ (artifact.host.attach h probe library offset).lines,
    ¬ line.OfLifecycle
  opener : ∀ h channel, ∀ line ∈ (artifact.openChannel h channel).lines, ¬ line.OfLifecycle

/-- The line about skipped probes starts with their number. -/
theorem skippedLine?_other {skipped : List String} {line : Line}
    (h : skippedLine? skipped = some line) : ¬ line.OfLifecycle := by
  unfold skippedLine? at h
  split at h
  · cases h
  · cases h
    obtain ⟨c, rest, hnumber⟩ := List.exists_cons_of_ne_nil
      (Nat.toDigits_ne_nil (n := skipped.length) (b := 10))
    have hdigit : c.isDigit = true :=
      Nat.isDigit_of_mem_toDigits (by decide) (by decide) (hnumber ▸ List.mem_cons_self)
    have hhead : (toString skipped.length).toList.head? = some c := by
      rw [Nat.toString_eq_repr, Nat.toList_repr, hnumber]
      rfl
    refine Line.not_ofLifecycle (head?_append (head?_append hhead _) _) ?_
    rintro rfl
    cases hdigit

section Run
variable {artifact : Instrumentation η σ} {resolver : Resolver ρ}
  {located : Logged (Except Fault String)} (hdiscreet : Discreet artifact resolver located)
  (channel : String) (h : η) (r : ρ)
include hdiscreet

theorem announced_pass (library : String) (h : η) (r : ρ) :
    Trace.Announced (passEvents library
      (Probe.pass artifact.host resolver library h r (artifact.declared h)).2) := by
  have hlines := Probe.pass_other artifact.host resolver library
    (fun r target => hdiscreet.resolver r library target)
    (fun h probe offset => hdiscreet.host h probe library offset) h r (artifact.declared h)
  have hcalls := fun e he => Trace.unspoken_of_request (attachCalls_requests library
    (Probe.pass artifact.host resolver library h r (artifact.declared h)).2 e he)
  rw [passEvents, List.append_assoc]
  exact (Trace.announced_lines hlines).append (Trace.announced_of_unspoken hcalls)

theorem begin_announced :
    Trace.Announced (begin artifact resolver located channel h r).trace := by
  have hfirst : Trace.Announced
      (Event.enter .loaded ++ Event.enter .attaching ++ located.lines.map .controller) :=
    ((Trace.announced_enter .loaded).append (Trace.announced_enter .attaching)).append
      (Trace.announced_lines hdiscreet.locator)
  cases hlocated : located.answer with
  | error e =>
    simp only [begin, hlocated]
    exact hfirst
  | ok library =>
    have hlibrary : Trace.Announced [.controller (libraryLine library)] :=
      Trace.announced_line (Line.not_ofLifecycle (c := 'R') (head?_append rfl _) (by decide))
    have hwalk := announced_pass hdiscreet library h r
    cases hpass : (Probe.pass artifact.host resolver library h r (artifact.declared h)).1 with
    | error e =>
      simp only [begin, hlocated, attachThenOpen, hpass]
      exact (hfirst.append hlibrary).append hwalk
    | ok outcome =>
      have hskipped : Trace.Announced ((skippedLine? outcome.skipped).toList.map .controller) :=
        Trace.announced_lines fun line hline => skippedLine?_other (Option.mem_toList.mp hline)
      have hasked : Trace.Announced [.askedFor channel] := rfl
      simp only [begin, hlocated, attachThenOpen, hpass, openAfter]
      exact ((((hfirst.append hlibrary).append hwalk).append hskipped).append hasked).append
        (Trace.announced_lines (hdiscreet.opener _ channel))

end Run

end Lifecycle

end LookupTap
