import LookupTap.Proofs.Pump.Moves

/-! Endings: each consumer ends once, releases its source once, and is joined once.

`Recorded` relates a pool to its trace: a consumer has left exactly one release and one
ending when it does not run any more, none before, and an ending is on the trace as joined
unless its consumer still waits for that. Every move keeps it. So when all consumers are
joined, the endings joined are the endings there were (`joins_perm`). -/
namespace LookupTap.Pump

variable {σ τ α : Type}

namespace Consumer

def ended? : Consumer σ → Option Ending
  | ended how => some how
  | _ => none

def gone : Consumer σ → Bool
  | running .. => false
  | _ => true

end Consumer

/-- A step leaves a consumer running and says nothing of an ending, or it is the consumer's
ending. A consumer stops only when it is told to. -/
inductive Turn.Outcome (told : Bool) (i : Nat) : Consumer σ → List Event → Prop where
  | running {s batch events} : Trace.endings events = [] → (∀ k, .sourceReleased k ∉ events) →
      Outcome told i (.running s batch) events
  | ended {how before} : Trace.endings before = [] → (∀ k, .sourceReleased k ∉ before) →
      (how = .stopped → told = true) →
      Outcome told i (.ended how) (before ++ endingEvents i how)

theorem Turn.outcome {source : Source σ α} {tracker : Tracker τ} {told : Bool} {i : Nat} {t t' : τ}
    {s : σ} {batch : List Bytes} {c : Consumer σ} {events : List Event}
    (h : Turn source tracker told i t s batch t' c events) : Turn.Outcome told i c events := by
  cases h with
  | handed _ _ => exact .running (endings_taken i _ _ _) (released_not_mem_taken i _ _ _)
  | crashed _ _ => exact .ended (endings_taken i _ _ _) (released_not_mem_taken i _ _ _) nofun
  | rested _ _ => exact .running (endings_lines i _) (by simp)
  | failed _ _ =>
    rw [← List.nil_append (endingEvents i _)]
    exact .ended rfl (by simp) nofun
  | stopped htold _ =>
    rw [← List.nil_append (endingEvents i _)]
    exact .ended rfl (by simp) fun _ => htold

theorem count_released_ending (i k : Nat) (how : Ending) :
    (endingEvents i how).count (.sourceReleased k) = if k = i then 1 else 0 := by
  by_cases h : k = i
  · simp [endingEvents, h]
  · have h' : ¬ i = k := fun e => h e.symm
    simp [endingEvents, h, h']

namespace Pool

/-- The ending of consumer `i`, while nobody has joined it. -/
def unjoined (p : Pool σ τ) (i : Nat) : Option Ending := p.consumers[i]?.bind Consumer.ended?

/-- Consumer `i` does not run any more. -/
def gone (p : Pool σ τ) (i : Nat) : Bool := (p.consumers[i]?.map Consumer.gone).getD false

/-- The trace tells how every consumer ended, and who has been joined. -/
structure Recorded (p : Pool σ τ) : Prop where
  joins : ∀ i how, (Trace.endings p.trace).count (i, how) =
    (Trace.joins p.trace).count (i, how) + if p.unjoined i = some how then 1 else 0
  endings : ∀ i, ((Trace.endings p.trace).map Prod.fst).count i = if p.gone i then 1 else 0
  released : ∀ i, p.trace.count (.sourceReleased i) = if p.gone i then 1 else 0

section Change
variable {p p' : Pool σ τ} {k : Nat} {c d : Consumer σ}

theorem unjoined_set (hc : p.consumers[k]? = some c) (hp : p'.consumers = p.consumers.set k d)
    (i : Nat) : p'.unjoined i = if i = k then d.ended? else p.unjoined i := by
  unfold unjoined
  rw [hp]
  by_cases h : i = k
  · rw [if_pos h, h, getElem?_changed hc]
    rfl
  · rw [if_neg h, List.getElem?_set_ne (Ne.symm h)]

theorem gone_set (hc : p.consumers[k]? = some c) (hp : p'.consumers = p.consumers.set k d)
    (i : Nat) : p'.gone i = if i = k then d.gone else p.gone i := by
  unfold gone
  rw [hp]
  by_cases h : i = k
  · rw [if_pos h, h, getElem?_changed hc]
    rfl
  · rw [if_neg h, List.getElem?_set_ne (Ne.symm h)]

theorem unjoined_of (hc : p.consumers[k]? = some c) : p.unjoined k = c.ended? := by
  unfold unjoined
  rw [hc]
  rfl

theorem gone_of (hc : p.consumers[k]? = some c) : p.gone k = c.gone := by
  unfold gone
  rw [hc]
  rfl

end Change

/-- Nothing is recorded anew while no consumer ends and none is joined. -/
theorem Recorded.keep {p p' : Pool σ τ} (h : Recorded p) {events : List Event}
    (htrace : p'.trace = p.trace ++ events) (hunjoined : ∀ i, p'.unjoined i = p.unjoined i)
    (hgone : ∀ i, p'.gone i = p.gone i) (hendings : Trace.endings events = [])
    (hjoins : Trace.joins events = []) (hreleased : ∀ k, .sourceReleased k ∉ events) :
    Recorded p' := by
  refine ⟨fun i how => ?_, fun i => ?_, fun i => ?_⟩
  · rw [htrace, Trace.endings_append, Trace.joins_append, hendings, hjoins, List.append_nil,
      List.append_nil, hunjoined]
    exact h.joins i how
  · rw [htrace, Trace.endings_append, hendings, List.append_nil, hgone]
    exact h.endings i
  · rw [htrace, List.count_append, List.count_eq_zero.mpr (hreleased i), hgone]
    exact h.released i

/-- A running consumer ends. -/
theorem Recorded.end {p p' : Pool σ τ} (h : Recorded p) {k : Nat} {s : σ} {batch : List Bytes}
    {how : Ending} {before : List Event} (hc : p.consumers[k]? = some (.running s batch))
    (hp : p'.consumers = p.consumers.set k (.ended how))
    (htrace : p'.trace = p.trace ++ (before ++ endingEvents k how))
    (hnone : Trace.endings before = []) (hjoins : Trace.joins (before ++ endingEvents k how) = [])
    (hkept : ∀ i, .sourceReleased i ∉ before) : Recorded p' := by
  have hun := unjoined_of hc
  have hgo := gone_of hc
  have hendings : Trace.endings (before ++ endingEvents k how) = [(k, how)] := by
    rw [Trace.endings_append, hnone]
    rfl
  have hreleased : ∀ i, (before ++ endingEvents k how).count (.sourceReleased i) =
      if i = k then 1 else 0 := fun i => by
    rw [List.count_append, List.count_eq_zero.mpr (hkept i), count_released_ending, Nat.zero_add]
  refine ⟨fun i how' => ?_, fun i => ?_, fun i => ?_⟩
  · rw [htrace, Trace.endings_append, Trace.joins_append, hendings, hjoins, List.append_nil,
      List.count_append, List.count_singleton, h.joins, unjoined_set hc hp]
    by_cases hik : i = k
    · subst hik
      simp [hun, Consumer.ended?]
    · simp [hik, Ne.symm hik]
  · rw [htrace, Trace.endings_append, hendings, List.map_append, List.count_append, h.endings,
      gone_set hc hp]
    by_cases hik : i = k
    · subst hik
      simp [hgo, Consumer.gone]
    · simp [hik, Ne.symm hik]
  · rw [htrace, List.count_append, hreleased, h.released, gone_set hc hp]
    by_cases hik : i = k
    · subst hik
      simp [hgo, Consumer.gone]
    · simp [hik]

/-- A consumer that has ended is joined. -/
theorem Recorded.join {p p' : Pool σ τ} (h : Recorded p) {k : Nat} {how : Ending}
    {events : List Event} (hc : p.consumers[k]? = some (.ended how))
    (hp : p'.consumers = p.consumers.set k .joined) (htrace : p'.trace = p.trace ++ events)
    (hendings : Trace.endings events = []) (hjoins : Trace.joins events = [(k, how)])
    (hreleased : ∀ i, .sourceReleased i ∉ events) : Recorded p' := by
  have hun := unjoined_of hc
  have hgo := gone_of hc
  refine ⟨fun i how' => ?_, fun i => ?_, fun i => ?_⟩
  · rw [htrace, Trace.endings_append, Trace.joins_append, hendings, hjoins, List.append_nil,
      List.count_append, List.count_singleton, h.joins, unjoined_set hc hp]
    by_cases hik : i = k
    · subst hik
      simp [hun, Consumer.ended?]
    · simp [hik, Ne.symm hik]
  · rw [htrace, Trace.endings_append, hendings, List.append_nil, h.endings, gone_set hc hp]
    by_cases hik : i = k
    · subst hik
      simp [hgo, Consumer.gone]
    · simp [hik]
  · rw [htrace, List.count_append, List.count_eq_zero.mpr (hreleased i), h.released,
      gone_set hc hp]
    by_cases hik : i = k
    · subst hik
      simp [hgo, Consumer.gone]
    · simp [hik]

/-- A consumer goes on running. -/
theorem Recorded.run {p p' : Pool σ τ} (h : Recorded p) {k : Nat} {s s' : σ}
    {batch batch' : List Bytes} {events : List Event}
    (hc : p.consumers[k]? = some (.running s batch))
    (hp : p'.consumers = p.consumers.set k (.running s' batch'))
    (htrace : p'.trace = p.trace ++ events) (hendings : Trace.endings events = [])
    (hjoins : Trace.joins events = []) (hreleased : ∀ i, .sourceReleased i ∉ events) :
    Recorded p' := by
  refine h.keep htrace (fun i => ?_) (fun i => ?_) hendings hjoins hreleased
  · rw [unjoined_set hc hp]
    by_cases hik : i = k
    · rw [if_pos hik, hik, unjoined_of hc]
      rfl
    · rw [if_neg hik]
  · rw [gone_set hc hp]
    by_cases hik : i = k
    · rw [if_pos hik, hik, gone_of hc]
      rfl
    · rw [if_neg hik]

theorem Moved.recorded {source : Source σ α} {tracker : Tracker τ} {p p' : Pool σ τ} {m : Move α}
    (hm : Moved source tracker p m p') (h : Recorded p) : Recorded p' := by
  cases hm with
  | idle _ => exact h
  | arrived hc => exact h.run hc rfl rfl rfl rfl (by simp)
  | worked hc ht =>
    cases ht.outcome with
    | running hendings hreleased => exact h.run hc rfl rfl hendings ht.silent.joins hreleased
    | ended hnone hkept _ => exact h.end hc rfl rfl hnone ht.silent.joins hkept
  | shutdown _ =>
    exact h.keep (List.append_assoc ..) (fun _ => rfl) (fun _ => rfl) rfl rfl
      (by simp [Event.enter, Event.controller])
  | failed hc _ =>
    exact h.join hc rfl (joined_leave_trace ..) rfl rfl (by simp [Event.enter, Event.controller])
  | @joined _ how _ hc _ =>
    refine h.join hc rfl rfl ?_ ?_ ?_
    · cases how <;> rfl
    · cases how <;> rfl
    · cases how <;> simp [Ending.line?, Event.controller]
  | started _ =>
    exact h.keep rfl (fun _ => rfl) (fun _ => rfl) rfl rfl
      (by simp [firstEvents, Event.enter, Event.controller])
  | told _ => exact h.keep (List.append_nil _).symm (fun _ => rfl) (fun _ => rfl) rfl rfl (by simp)
  | finished _ _ =>
    exact h.keep rfl (fun _ => rfl) (fun _ => rfl) rfl rfl
      (by simp [lastEvents, Event.enter, Event.controller])

/-- Before anybody has moved there is nothing to tell. -/
theorem start_recorded (channel : String) (sources : List σ) (t : τ) :
    Recorded (start channel sources t []) := by
  have hgone : ∀ i, (start channel sources t []).gone i = false := by
    intro i
    simp only [gone, start, List.getElem?_map]
    cases sources[i]? <;> rfl
  have hunjoined : ∀ i, (start channel sources t []).unjoined i = none := by
    intro i
    simp only [unjoined, start, List.getElem?_map]
    cases sources[i]? <;> rfl
  refine ⟨fun i how => ?_, fun i => ?_, fun i => ?_⟩
  · rw [hunjoined]
    rfl
  · rw [hgone]
    rfl
  · rw [hgone]
    rfl

theorem run_recorded {source : Source σ α} {tracker : Tracker τ} {p : Pool σ τ} (h : Recorded p)
    (moves : List (Move α)) : Recorded (p.run source tracker moves) :=
  run_keeps (fun _ _ _ hm h => hm.recorded h) p moves h

/-- A consumer that does not run any more has ended somehow. -/
theorem Recorded.ended {p : Pool σ τ} (h : Recorded p) {i : Nat} (hgone : p.gone i = true) :
    ∃ how, .ended i how ∈ p.trace := by
  have hcount := h.endings i
  rw [hgone, if_pos rfl] at hcount
  have hmem : i ∈ (Trace.endings p.trace).map Prod.fst :=
    List.count_pos_iff.mp (hcount ▸ Nat.one_pos)
  obtain ⟨⟨k, how⟩, hm, rfl⟩ := List.mem_map.mp hmem
  exact ⟨how, Trace.mem_endings.mp hm⟩

/-! ### All consumers joined -/

section Joined
variable {p : Pool σ τ} (hall : p.consumers.all Consumer.isJoined = true)
include hall

theorem joined_consumer {i : Nat} {c : Consumer σ} (hc : p.consumers[i]? = some c) :
    c = .joined := by
  have := List.all_eq_true.mp hall c (List.mem_of_getElem? hc)
  cases c <;> simp_all [Consumer.isJoined]

theorem gone_of_joined (i : Nat) : p.gone i = decide (i < p.consumers.length) := by
  unfold gone
  by_cases hi : i < p.consumers.length
  · obtain ⟨c, hc⟩ : ∃ c, p.consumers[i]? = some c := ⟨_, List.getElem?_eq_getElem hi⟩
    rw [hc, joined_consumer hall hc]
    simp [Consumer.gone, hi]
  · simp [hi]

/-- What has been joined is what has ended. -/
theorem joins_perm (h : Recorded p) : (Trace.joins p.trace).Perm (Trace.endings p.trace) := by
  refine List.perm_iff_count.mpr fun ⟨i, how⟩ => ?_
  have hun : p.unjoined i = none := by
    unfold unjoined
    cases hc : p.consumers[i]? with
    | none => rfl
    | some c =>
      rw [joined_consumer hall hc]
      rfl
  rw [h.joins, hun]
  rfl

/-- Each consumer has ended once. -/
theorem endings_perm (h : Recorded p) :
    ((Trace.endings p.trace).map Prod.fst).Perm (List.range p.consumers.length) := by
  refine List.perm_iff_count.mpr fun i => ?_
  rw [h.endings, gone_of_joined hall, List.count_range]
  simp

end Joined

/-! ### Nothing after the end -/

/-- The artifact is released when all consumers are joined, not before. -/
def Held (p : Pool σ τ) : Prop :=
  .artifactReleased ∈ p.trace → p.consumers.all Consumer.isJoined = true

theorem Held.kept {p : Pool σ τ} (h : Held p) {i : Nat} {c : Consumer σ}
    (hc : p.consumers[i]? = some c) (hne : c.isJoined = false) : .artifactReleased ∉ p.trace := by
  intro hm
  rw [joined_consumer (h hm) hc] at hne
  cases hne

theorem Held.keep {p p' : Pool σ τ} (h : Held p) {events : List Event}
    (htrace : p'.trace = p.trace ++ events) (hevents : .artifactReleased ∉ events)
    (hc : p'.consumers = p.consumers ∨ .artifactReleased ∉ p.trace) : Held p' := by
  intro hm
  rw [htrace] at hm
  have hold := (List.mem_append.mp hm).resolve_right hevents
  rw [hc.resolve_right (not_not_intro hold)]
  exact h hold

theorem Moved.held {source : Source σ α} {tracker : Tracker τ} {p p' : Pool σ τ} {m : Move α}
    (hm : Moved source tracker p m p') (h : Held p) : Held p' := by
  cases hm with
  | idle _ => exact h
  | arrived hc => exact h.keep rfl (by simp) (.inr (h.kept hc rfl))
  | worked hc ht =>
    exact h.keep rfl ht.silent.released (.inr (h.kept hc rfl))
  | shutdown _ =>
    exact h.keep (List.append_assoc ..) (by simp [Event.enter, Event.controller]) (.inl rfl)
  | failed hc _ =>
    exact h.keep (joined_leave_trace ..) (by simp [Event.enter, Event.controller])
      (.inr (h.kept hc rfl))
  | joined hc _ =>
    exact h.keep rfl (by simp [Event.controller]) (.inr (h.kept hc rfl))
  | started _ =>
    exact h.keep rfl (by simp [firstEvents, Event.enter, Event.controller]) (.inl rfl)
  | told _ => exact h.keep (List.append_nil _).symm (by simp) (.inl rfl)
  | finished _ hall => exact fun _ => hall

/-- A consumer that does not run any more left one ending behind before the artifact was
released, and nothing after it. -/
structure Retired (i : Nat) (p : Pool σ τ) : Prop where
  held : Held p
  running : p.gone i = false → ∀ how, .ended i how ∉ p.trace
  left : p.gone i = true → ∃ before how after, p.trace = before ++ endingEvents i how ++ after ∧
    (.artifactReleased ∉ before ∧ ∀ how, .ended i how ∉ before) ∧ ∀ e ∈ after, e.owner? ≠ some i

theorem Retired.keep {i : Nat} {p p' : Pool σ τ} (h : Retired i p) (hheld : Held p')
    {events : List Event} (htrace : p'.trace = p.trace ++ events) (hgone : p'.gone i = p.gone i)
    (hothers : ∀ e ∈ events, e.owner? ≠ some i) : Retired i p' := by
  refine ⟨hheld, fun hg how hm => ?_, fun hg => ?_⟩
  · rw [hgone] at hg
    rw [htrace] at hm
    exact (List.mem_append.mp hm).elim (h.running hg how) fun hm => hothers _ hm rfl
  · rw [hgone] at hg
    obtain ⟨before, how, after, hp, hfirst, hafter⟩ := h.left hg
    refine ⟨before, how, after ++ events, by rw [htrace, hp, List.append_assoc], hfirst,
      fun e he => ?_⟩
    exact (List.mem_append.mp he).elim (hafter e) (hothers e)

theorem Retired.ended {i : Nat} {p : Pool σ τ} (h : Retired i p) (hgone : p.gone i = true) :
    ∃ how, .ended i how ∈ p.trace := by
  obtain ⟨before, how, after, hp, _, _⟩ := h.left hgone
  exact ⟨how, by rw [hp]; simp [endingEvents]⟩

/-- The one ending of a consumer that has ended. -/
theorem Retired.ending {i : Nat} {p : Pool σ τ} (h : Retired i p) {how : Ending}
    (hm : .ended i how ∈ p.trace) :
    ∃ before after, p.trace = before ++ endingEvents i how ++ after ∧ .artifactReleased ∉ before ∧
      ∀ e ∈ after, e.owner? ≠ some i := by
  have hgone : p.gone i = true := by
    cases hg : p.gone i with
    | true => rfl
    | false => exact absurd hm (h.running hg how)
  obtain ⟨before, how', after, hp, ⟨hkept, hfirst⟩, hafter⟩ := h.left hgone
  have hhow : how = how' := by
    rw [hp, List.append_assoc] at hm
    rcases List.mem_append.mp hm with hm | hm
    · exact absurd hm (hfirst how)
    · rcases List.mem_append.mp hm with hm | hm
      · exact ((ended_mem_ending i).mp hm).2
      · exact absurd rfl (hafter _ hm)
  rw [hhow]
  exact ⟨before, after, hp, hkept, hafter⟩

/-- Only the ending of a consumer makes it gone. -/
theorem gone_of_set {p p' : Pool σ τ} {i k : Nat} {c d : Consumer σ}
    (hc : p.consumers[k]? = some c) (hp : p'.consumers = p.consumers.set k d)
    (hd : i = k → d.gone = c.gone) : p'.gone i = p.gone i := by
  rw [gone_set hc hp]
  by_cases hik : i = k
  · rw [if_pos hik, hik, gone_of hc]
    exact hd hik
  · rw [if_neg hik]

theorem Moved.retired {source : Source σ α} {tracker : Tracker τ} {i : Nat} {p p' : Pool σ τ}
    {m : Move α} (hm : Moved source tracker p m p') (h : Retired i p) : Retired i p' := by
  have hheld := hm.held h.held
  by_cases hwork : m = .work i
  · subst hwork
    cases hm with
    | idle _ => exact h
    | worked hc ht =>
      have hrunning := h.running (gone_of hc)
      cases ht.outcome with
      | running hnone _ =>
        refine ⟨hheld, fun _ how hm => ?_, fun hg => ?_⟩
        · exact (List.mem_append.mp hm).elim (hrunning how) (Trace.ended_not_mem hnone i how)
        · rw [gone_set hc rfl, if_pos rfl] at hg
          cases hg
      | @ended how before hnone _ _ =>
        refine ⟨hheld, fun hg => ?_, fun _ => ?_⟩
        · rw [gone_set hc rfl, if_pos rfl] at hg
          cases hg
        · refine ⟨p.trace ++ before, how, [], by simp, ⟨fun hm => ?_, fun how' hm => ?_⟩, by simp⟩
          · refine (List.mem_append.mp hm).elim (h.held.kept hc rfl) fun hm => ?_
            exact ht.silent.released (List.mem_append_left _ hm)
          · exact (List.mem_append.mp hm).elim (hrunning how') (Trace.ended_not_mem hnone i how')
  · obtain ⟨events, htrace, hothers⟩ := hm.others hwork
    refine h.keep hheld htrace ?_ hothers
    cases hm with
    | arrived hc => exact gone_of_set hc rfl fun _ => rfl
    | worked hc _ => exact gone_of_set hc rfl fun hk => absurd (by rw [hk]) hwork
    | failed hc _ => exact gone_of_set hc rfl fun _ => rfl
    | joined hc _ => exact gone_of_set hc rfl fun _ => rfl
    | _ => rfl

/-- So it is with every consumer, from any moment at which it runs. -/
theorem fresh_retired {source : Source σ α} {tracker : Tracker τ} {p : Pool σ τ} {i : Nat} {s : σ}
    {batch : List Bytes} (hc : p.consumers[i]? = some (.running s batch)) (moves : List (Move α)) :
    Retired i (p.fresh.run source tracker moves) := by
  refine run_keeps (fun _ _ _ hm h => hm.retired h) p.fresh moves ?_
  refine ⟨fun hm => absurd hm List.not_mem_nil, fun _ _ => List.not_mem_nil, fun hg => ?_⟩
  rw [gone_of (show p.fresh.consumers[i]? = _ from hc)] at hg
  cases hg

end Pool

end LookupTap.Pump
