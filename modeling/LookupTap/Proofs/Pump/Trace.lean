import LookupTap.Pump.Pool

/-! What a trace tells.

A view of a trace is what one kind of event says, in order: the records that a consumer
handed over, the calls it made of the tracker, how consumers ended and were joined, the
stages entered, the controller's warnings. Each event belongs to one consumer or to none
(`Event.owner?`), and what belongs to others says nothing about a consumer. -/
namespace LookupTap.Pump

namespace Event

/-- The record that consumer `i` handed over. -/
def record? (i : Nat) : Event → Option Bytes
  | handled k record => if k = i then some record else none
  | _ => none

/-- The resolution that consumer `i` called the tracker with, whether the call returned or
crashed. -/
def call? (i : Nat) : Event → Option Resolution
  | called k r _ => if k = i then some r else none
  | _ => none

/-- The resolution that the tracker was called with, by whichever consumer. -/
def anyCall? : Event → Option Resolution
  | called _ r _ => some r
  | _ => none

def ending? : Event → Option (Nat × Ending)
  | ended i how => some (i, how)
  | _ => none

def joining? : Event → Option (Nat × Ending)
  | joined i how => some (i, how)
  | _ => none

def stage? : Event → Option Stage
  | entered stage => some stage
  | _ => none

/-- What the controller warns of. -/
def warning? : Event → Option Line
  | wrote .controller line => if line.level = .warn then some line else none
  | _ => none

/-- The consumer that an event is of. -/
def owner? : Event → Option Nat
  | wrote (.consumer i) _ => some i
  | handled i _ => some i
  | called i .. => some i
  | sourceReleased i => some i
  | ended i _ => some i
  | _ => none

/-- What is asked of the artifact: to attach a probe, whether it is done or refused, or to open
a channel. -/
def isRequest : Event → Bool
  | attached .. => true
  | refused .. => true
  | askedFor _ => true
  | _ => false

theorem not_request_of_owner {e : Event} (h : e.owner? ≠ none) : e.isRequest = false := by
  cases e with
  | attached _ _ _ => exact absurd rfl h
  | refused _ _ _ => exact absurd rfl h
  | askedFor _ => exact absurd rfl h
  | _ => rfl

end Event

namespace Trace

def records (i : Nat) (events : List Event) : List Bytes := events.filterMap (Event.record? i)

def calls (i : Nat) (events : List Event) : List Resolution := events.filterMap (Event.call? i)

/-- The calls of all the consumers, in the order in which the tracker was called. -/
def allCalls (events : List Event) : List Resolution := events.filterMap Event.anyCall?

def endings (events : List Event) : List (Nat × Ending) := events.filterMap Event.ending?

def joins (events : List Event) : List (Nat × Ending) := events.filterMap Event.joining?

def stages (events : List Event) : List Stage := events.filterMap Event.stage?

def warnings (events : List Event) : List Line := events.filterMap Event.warning?

def requests (events : List Event) : List Event := events.filter Event.isRequest

/-! ### Views are taken piece by piece -/

section Append
variable (i : Nat) (first second : List Event)

@[simp] theorem records_append : records i (first ++ second) = records i first ++ records i second :=
  List.filterMap_append

@[simp] theorem calls_append : calls i (first ++ second) = calls i first ++ calls i second :=
  List.filterMap_append

@[simp] theorem allCalls_append : allCalls (first ++ second) = allCalls first ++ allCalls second :=
  List.filterMap_append

@[simp] theorem endings_append : endings (first ++ second) = endings first ++ endings second :=
  List.filterMap_append

@[simp] theorem joins_append : joins (first ++ second) = joins first ++ joins second :=
  List.filterMap_append

@[simp] theorem stages_append : stages (first ++ second) = stages first ++ stages second :=
  List.filterMap_append

@[simp] theorem warnings_append : warnings (first ++ second) = warnings first ++ warnings second :=
  List.filterMap_append

@[simp] theorem requests_append : requests (first ++ second) = requests first ++ requests second :=
  List.filter_append ..

end Append

theorem requests_eq_nil {events : List Event} :
    requests events = [] ↔ ∀ e ∈ events, e.isRequest = false := by
  simp [requests, List.filter_eq_nil_iff]

/-- Events of others say nothing about consumer `i`. -/
structure Foreign (i : Nat) (events : List Event) : Prop where
  records : records i events = []
  calls : calls i events = []
  released : .sourceReleased i ∉ events
  ended : ∀ how, .ended i how ∉ events

theorem foreign {i : Nat} {events : List Event} (h : ∀ e ∈ events, e.owner? ≠ some i) :
    Foreign i events := by
  refine ⟨?_, ?_, fun hm => h _ hm rfl, fun how hm => h _ hm rfl⟩
  · refine List.filterMap_eq_nil_iff.mpr fun e he => ?_
    have := h e he
    cases e <;> simp_all [Event.record?, Event.owner?]
  · refine List.filterMap_eq_nil_iff.mpr fun e he => ?_
    have := h e he
    cases e <;> simp_all [Event.call?, Event.owner?]

/-- Events of consumers say nothing about the controller. -/
structure Silent (events : List Event) : Prop where
  joins : joins events = []
  stages : stages events = []
  warnings : warnings events = []
  shutdown : .shutdown ∉ events
  released : .artifactReleased ∉ events

theorem silent {events : List Event} (h : ∀ e ∈ events, e.owner? ≠ none) : Silent events := by
  refine ⟨?_, ?_, ?_, fun hm => h _ hm rfl, fun hm => h _ hm rfl⟩
  · refine List.filterMap_eq_nil_iff.mpr fun e he => ?_
    have := h e he
    cases e <;> simp_all [Event.joining?, Event.owner?]
  · refine List.filterMap_eq_nil_iff.mpr fun e he => ?_
    have := h e he
    cases e <;> simp_all [Event.stage?, Event.owner?]
  · refine List.filterMap_eq_nil_iff.mpr fun e he => ?_
    have := h e he
    cases e with
    | wrote author line => cases author <;> simp_all [Event.warning?, Event.owner?]
    | _ => simp_all [Event.warning?, Event.owner?]

/-- Nobody but a consumer calls the tracker. -/
theorem allCalls_of_unowned {events : List Event} (h : ∀ e ∈ events, e.owner? = none) :
    allCalls events = [] := by
  refine List.filterMap_eq_nil_iff.mpr fun e he => ?_
  cases e with
  | called k r returned => cases h _ he
  | _ => rfl

theorem mem_endings {i : Nat} {how : Ending} {events : List Event} :
    (i, how) ∈ endings events ↔ .ended i how ∈ events := by
  refine List.mem_filterMap.trans ⟨fun ⟨e, he, hview⟩ => ?_, fun h => ⟨_, h, rfl⟩⟩
  cases e with
  | ended k how' =>
    cases hview
    exact he
  | _ => cases hview

theorem ended_not_mem {events : List Event} (h : endings events = []) (i : Nat) (how : Ending) :
    .ended i how ∉ events := by
  intro hm
  have hmem := mem_endings.mpr hm
  rw [h] at hmem
  cases hmem

/-- Each stage that is entered is in the log at once. -/
def Logged : List Event → Prop
  | [] => True
  | .entered stage :: rest => rest.head? = some (.controller stage.line) ∧ Logged rest
  | _ :: rest => Logged rest

theorem Logged.append {first second : List Event} (h : Logged first) (hs : Logged second) :
    Logged (first ++ second) := by
  induction first with
  | nil => exact hs
  | cons e rest ih =>
    cases e with
    | entered stage =>
      obtain ⟨hhead, hrest⟩ := h
      refine ⟨?_, ih hrest⟩
      show (rest ++ second).head? = _
      rw [List.head?_append, hhead]
      rfl
    | _ => exact ih h

theorem logged_of_stages {events : List Event} (h : stages events = []) : Logged events := by
  induction events with
  | nil => trivial
  | cons e rest ih =>
    cases e with
    | entered stage => cases h
    | _ => exact ih h

theorem logged_enter (stage : Stage) : Logged (Event.enter stage) := ⟨rfl, trivial⟩

end Trace

/-! ### What a consumer leaves -/

/-- The events of an ending. -/
def endingEvents (i : Nat) (how : Ending) : List Event := [.sourceReleased i, .ended i how]

/-- The events of a record that was taken after some lines. -/
def takenEvents {τ : Type} (i : Nat) (record : Bytes) (lines : List Line) (h : Handled τ) :
    List Event :=
  lines.map (.wrote (.consumer i)) ++ handledEvents i record h

section Taken
variable {τ : Type} (i : Nat) (record : Bytes) (lines : List Line) (h : Handled τ)

/-- A consumer's lines are in none of the views. -/
theorem filterMap_lines {β : Type} (view : Event → Option β)
    (blind : ∀ line, view (.wrote (.consumer i) line) = none) :
    (lines.map (Event.wrote (.consumer i))).filterMap view = [] := by
  refine List.filterMap_eq_nil_iff.mpr fun e he => ?_
  obtain ⟨line, _, rfl⟩ := List.mem_map.mp he
  exact blind line

theorem records_taken : Trace.records i (takenEvents i record lines h) = [record] := by
  have hl : ∀ ls : List Line, (ls.map (Event.wrote (.consumer i))).filterMap (Event.record? i) = [] :=
    fun ls => filterMap_lines i ls _ fun _ => rfl
  cases hr : h.resolution <;>
    simp [Trace.records, takenEvents, handledEvents, List.filterMap_append, List.filterMap_cons,
      hl, hr, Event.record?]

theorem calls_taken : Trace.calls i (takenEvents i record lines h) = h.resolution.toList := by
  have hl : ∀ ls : List Line, (ls.map (Event.wrote (.consumer i))).filterMap (Event.call? i) = [] :=
    fun ls => filterMap_lines i ls _ fun _ => rfl
  cases hr : h.resolution <;>
    simp [Trace.calls, takenEvents, handledEvents, List.filterMap_append, List.filterMap_cons,
      hl, hr, Event.call?]

theorem allCalls_taken : Trace.allCalls (takenEvents i record lines h) = h.resolution.toList := by
  have hl : ∀ ls : List Line, (ls.map (Event.wrote (.consumer i))).filterMap Event.anyCall? = [] :=
    fun ls => filterMap_lines i ls _ fun _ => rfl
  cases hr : h.resolution <;>
    simp [Trace.allCalls, takenEvents, handledEvents, List.filterMap_append, List.filterMap_cons,
      hl, hr, Event.anyCall?]

theorem owner?_taken : ∀ e ∈ takenEvents i record lines h, e.owner? = some i := by
  intro e he
  simp only [takenEvents, handledEvents, List.mem_append, List.mem_cons, List.mem_map] at he
  rcases he with ⟨line, _, rfl⟩ | (rfl | ⟨line, _, rfl⟩) | he
  · rfl
  · rfl
  · rfl
  · cases hr : h.resolution with
    | none => simp [hr] at he
    | some r =>
      simp only [hr, Option.map_some, Option.toList_some, List.mem_singleton] at he
      rw [he]
      rfl

theorem ended_not_mem_taken (k : Nat) (how : Ending) :
    .ended k how ∉ takenEvents i record lines h := by
  intro hm
  cases hr : h.resolution <;> simp [takenEvents, handledEvents, hr] at hm

theorem ended_mem_ending {k : Nat} {how how' : Ending} :
    .ended k how ∈ endingEvents i how' ↔ k = i ∧ how = how' := by
  simp [endingEvents]

theorem endings_taken : Trace.endings (takenEvents i record lines h) = [] := by
  refine List.eq_nil_iff_forall_not_mem.mpr fun ⟨k, how⟩ hm => ?_
  exact ended_not_mem_taken i record lines h k how (Trace.mem_endings.mp hm)

theorem endings_lines : Trace.endings (lines.map (.wrote (.consumer i))) = [] :=
  filterMap_lines i lines _ fun _ => rfl

theorem released_not_mem_taken (k : Nat) : .sourceReleased k ∉ takenEvents i record lines h := by
  intro hm
  cases hr : h.resolution <;> simp [takenEvents, handledEvents, hr] at hm

theorem records_ending (k : Nat) (how : Ending) : Trace.records k (endingEvents i how) = [] := rfl

theorem calls_ending (k : Nat) (how : Ending) : Trace.calls k (endingEvents i how) = [] := rfl

theorem records_lines (k : Nat) : Trace.records k (lines.map (.wrote (.consumer i))) = [] :=
  filterMap_lines i lines _ fun _ => rfl

theorem allCalls_lines : Trace.allCalls (lines.map (.wrote (.consumer i))) = [] :=
  filterMap_lines i lines _ fun _ => rfl

theorem calls_lines (k : Nat) : Trace.calls k (lines.map (.wrote (.consumer i))) = [] :=
  filterMap_lines i lines _ fun _ => rfl

end Taken

end LookupTap.Pump
