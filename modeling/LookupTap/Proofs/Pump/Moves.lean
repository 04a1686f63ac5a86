import LookupTap.Proofs.Pump.Trace

/-! What one move does.

`Turn` is one step of a running consumer, by itself: the tracker, the consumer and the
events that come of it. `Moved` is one move of a pool, and `step_moved` says that every
step is one. What every move keeps, every run keeps (`run_keeps`). A pool never looks at its
own trace, so a run adds the same events whatever happened before (`run_fresh`). -/
namespace LookupTap.Pump

variable {σ τ α : Type}

/-! ### One consumer -/

/-- How a consumer that owns `s` comes by a record: from the batch in hand, from the drain
once it is told to stop, or as the first of a read until then. -/
inductive Takes (source : Source σ α) (told : Bool) :
    σ → List Bytes → Bytes → List Line → σ → List Bytes → Prop where
  | inHand {s record rest} : Takes source told s (record :: rest) record [] s rest
  | drained {s record next} : told = true → source.next s = some (record, next) →
      Takes source told s [] record [] next []
  | read {s record rest lines next} : told = false →
      source.read s = .handed (record :: rest) lines next →
      Takes source told s [] record lines next rest

/-- A read that brings no record. -/
def Rests (source : Source σ α) (s : σ) (lines : List Line) (next : σ) : Prop :=
  source.read s = .waiting next ∧ lines = [] ∨ source.read s = .handed [] lines next

/-- One step of consumer `i`, which owns a source and has a batch in hand: the tracker's
state after it, what the consumer is then, and the events. -/
inductive Turn (source : Source σ α) (tracker : Tracker τ) (told : Bool) (i : Nat) (t : τ) :
    σ → List Bytes → τ → Consumer σ → List Event → Prop where
  | handed {s batch record lines next rest} : Takes source told s batch record lines next rest →
      (handle tracker t record).crash = none →
      Turn source tracker told i t s batch (handle tracker t record).state (.running next rest)
        (takenEvents i record lines (handle tracker t record))
  | crashed {s batch record lines next rest message} :
      Takes source told s batch record lines next rest →
      (handle tracker t record).crash = some message →
      Turn source tracker told i t s batch (handle tracker t record).state
        (.ended (.crashed message))
        (takenEvents i record lines (handle tracker t record) ++ endingEvents i (.crashed message))
  | rested {s lines next} : told = false → Rests source s lines next →
      Turn source tracker told i t s [] t (.running next []) (lines.map (.wrote (.consumer i)))
  | failed {s fault} : told = false → source.read s = .failed fault →
      Turn source tracker told i t s [] t (.ended (.failed fault)) (endingEvents i (.failed fault))
  | stopped {s} : told = true → source.next s = none →
      Turn source tracker told i t s [] t (.ended .stopped) (endingEvents i .stopped)

/-- A consumer's step leaves events of its own alone. -/
theorem Turn.owned {source : Source σ α} {tracker : Tracker τ} {told : Bool} {i : Nat} {t t' : τ}
    {s : σ} {batch : List Bytes} {c : Consumer σ} {events : List Event}
    (h : Turn source tracker told i t s batch t' c events) : ∀ e ∈ events, e.owner? = some i := by
  have hending : ∀ how, ∀ e ∈ endingEvents i how, e.owner? = some i := by
    intro how e he
    simp only [endingEvents, List.mem_cons, List.not_mem_nil, or_false] at he
    rcases he with rfl | rfl <;> rfl
  cases h with
  | handed _ _ => exact owner?_taken i _ _ _
  | crashed _ _ =>
    intro e he
    rcases List.mem_append.mp he with he | he
    · exact owner?_taken i _ _ _ e he
    · exact hending _ e he
  | rested _ _ =>
    intro e he
    obtain ⟨line, _, rfl⟩ := List.mem_map.mp he
    rfl
  | failed _ _ => exact hending _
  | stopped _ _ => exact hending _

theorem Turn.silent {source : Source σ α} {tracker : Tracker τ} {told : Bool} {i : Nat} {t t' : τ}
    {s : σ} {batch : List Bytes} {c : Consumer σ} {events : List Event}
    (h : Turn source tracker told i t s batch t' c events) : Trace.Silent events := by
  refine Trace.silent fun e he => ?_
  rw [h.owned e he]
  exact Option.some_ne_none i

namespace Pool

/-! ### The parts of a changed pool -/

section Update
variable (p : Pool σ τ) (i : Nat) (c : Consumer σ) (events : List Event)

@[simp] theorem update_consumers : (p.update i c events).consumers = p.consumers.set i c := rfl
@[simp] theorem update_phase : (p.update i c events).phase = p.phase := rfl
@[simp] theorem update_trace : (p.update i c events).trace = p.trace ++ events := rfl

end Update

/-- The trace of a controller that leaves because it has joined a consumer. -/
theorem joined_leave_trace (p : Pool σ τ) (i : Nat) (how : Ending) (failure : Option Fault) :
    ((p.update i .joined []).leave failure [.joined i how]).trace =
      p.trace ++ .joined i how :: Event.enter .stopping := by
  simp only [leave, update_trace, List.append_nil, List.append_assoc, List.cons_append,
    List.nil_append]

/-- A changed consumer stands where it stood. -/
theorem getElem?_changed {p : Pool σ τ} {i : Nat} {c d : Consumer σ}
    (hc : p.consumers[i]? = some c) : (p.consumers.set i d)[i]? = some d := by
  rw [List.getElem?_set_self', hc]
  rfl

/-! ### One move -/

/-- One move, and the pool after it. -/
inductive Moved (source : Source σ α) (tracker : Tracker τ) (p : Pool σ τ) :
    Move α → Pool σ τ → Prop where
  | idle {m} : (∀ i a s batch, m = .arrive i a → p.consumers[i]? ≠ some (.running s batch)) →
      Moved source tracker p m p
  | arrived {i a s batch} : p.consumers[i]? = some (.running s batch) →
      Moved source tracker p (.arrive i a) (p.update i (.running (source.arrive s a) batch) [])
  | worked {i s batch t c events} : p.consumers[i]? = some (.running s batch) →
      Turn source tracker p.phase.told i p.tracker s batch t c events →
      Moved source tracker p (.work i) ({ p with tracker := t }.update i c events)
  | shutdown : p.phase = .polling → Moved source tracker p .shutdown (p.leave none [.shutdown])
  | failed {i how} : p.consumers[i]? = some (.ended how) → p.phase = .polling →
      Moved source tracker p (.join i)
        ((p.update i .joined []).leave (some (how.fault p.channel)) [.joined i how])
  | joined {i how failure} : p.consumers[i]? = some (.ended how) → p.phase = .stopping failure →
      Moved source tracker p (.join i)
        (p.update i .joined (.joined i how :: how.line?.toList.map .controller))
  | started : p.phase = .starting → Moved source tracker p .advance
      { p with phase := .polling, trace := p.trace ++ firstEvents p.consumers.length }
  | told {failure} : p.phase = .leaving failure →
      Moved source tracker p .advance { p with phase := .stopping failure }
  | finished {failure} : p.phase = .stopping failure → p.consumers.all Consumer.isJoined = true →
      Moved source tracker p .advance
        { p with phase := .finished failure, trace := p.trace ++ lastEvents }

variable {source : Source σ α} {tracker : Tracker τ}

theorem hand_turn {p : Pool σ τ} {s next : σ} {batch rest : List Bytes} {record : Bytes}
    {lines : List Line} (i : Nat) (ht : Takes source p.phase.told s batch record lines next rest) :
    ∃ t c events, Turn source tracker p.phase.told i p.tracker s batch t c events ∧
      p.hand tracker i record lines (.running next rest) =
        { p with tracker := t }.update i c events := by
  unfold hand
  cases hcrash : (handle tracker p.tracker record).crash with
  | none =>
    refine ⟨_, _, _, .handed ht hcrash, ?_⟩
    simp only [hcrash, takenEvents]
  | some message =>
    refine ⟨_, _, _, .crashed ht hcrash, ?_⟩
    simp only [hcrash, ending, takenEvents, endingEvents]

/-- A running consumer's step is one turn of it. -/
theorem consume_turn (p : Pool σ τ) (i : Nat) (s : σ) (batch : List Bytes) :
    ∃ t c events, Turn source tracker p.phase.told i p.tracker s batch t c events ∧
      p.consume source tracker i s batch = { p with tracker := t }.update i c events := by
  cases batch with
  | cons record rest => exact hand_turn i .inHand
  | nil =>
    simp only [consume]
    cases htold : p.phase.told with
    | true =>
      simp only [if_true]
      rw [← htold]
      cases hnext : source.next s with
      | some taken => exact hand_turn i (.drained htold hnext)
      | none => exact ⟨_, _, _, .stopped htold hnext, rfl⟩
    | false =>
      simp only [Bool.false_eq_true, if_false]
      rw [← htold]
      cases hread : source.read s with
      | waiting next => exact ⟨_, _, _, .rested htold (.inl ⟨hread, rfl⟩), rfl⟩
      | failed fault => exact ⟨_, _, _, .failed htold hread, rfl⟩
      | handed batch lines next =>
        cases batch with
        | nil => exact ⟨_, _, _, .rested htold (.inr hread), rfl⟩
        | cons record rest => exact hand_turn i (.read htold hread)

theorem step_work (source : Source σ α) (tracker : Tracker τ) {p : Pool σ τ} {i : Nat} {s : σ} {batch : List Bytes}
    (hc : p.consumers[i]? = some (.running s batch)) :
    ∃ t c events, Turn source tracker p.phase.told i p.tracker s batch t c events ∧
      p.step source tracker (.work i) = { p with tracker := t }.update i c events := by
  simp only [step, hc]
  exact consume_turn p i s batch

/-- Every step is one move. -/
theorem step_moved (p : Pool σ τ) (m : Move α) :
    Moved source tracker p m (p.step source tracker m) := by
  cases m with
  | arrive i a =>
    simp only [step]
    split
    · next hc => exact .arrived hc
    · next hc =>
      refine .idle fun k b s batch hm => ?_
      cases hm
      exact hc s batch
  | work i =>
    by_cases hrun : ∃ s batch, p.consumers[i]? = some (.running s batch)
    · obtain ⟨s, batch, hc⟩ := hrun
      obtain ⟨t, c, events, hturn, hstep⟩ := step_work source tracker hc
      rw [hstep]
      exact .worked hc hturn
    · simp only [step]
      split
      · next hc => exact absurd ⟨_, _, hc⟩ hrun
      · exact .idle nofun
  | shutdown =>
    simp only [step]
    split
    · next hp => exact .shutdown hp
    · exact .idle nofun
  | join i =>
    simp only [step]
    split
    · next hc hp => exact .failed hc hp
    · next hc hp => exact .joined hc hp
    · exact .idle nofun
  | advance =>
    simp only [step]
    split
    · next hp => exact .started hp
    · next hp => exact .told hp
    · next hp =>
      split
      · next hall => exact .finished hp hall
      · exact .idle nofun
    · exact .idle nofun

/-- What a move adds to the trace, unless it is a consumer's step, is of no
consumer, and asks nothing of the artifact. -/
theorem Moved.unowned {p p' : Pool σ τ} {m : Move α} (h : Moved source tracker p m p')
    (hm : ∀ i, m ≠ .work i) : ∃ events, p'.trace = p.trace ++ events ∧
      ∀ e ∈ events, e.owner? = none ∧ e.isRequest = false := by
  cases h with
  | idle _ => exact ⟨[], by simp, by simp⟩
  | arrived _ => exact ⟨[], by simp, by simp⟩
  | worked _ _ => exact absurd rfl (hm _)
  | shutdown _ =>
    refine ⟨_, List.append_assoc .., fun e he => ?_⟩
    simp only [Event.enter, List.cons_append, List.nil_append, List.mem_cons, List.not_mem_nil,
      or_false] at he
    rcases he with rfl | rfl | rfl <;> exact ⟨rfl, rfl⟩
  | failed _ _ =>
    refine ⟨_, joined_leave_trace .., fun e he => ?_⟩
    simp only [Event.enter, List.mem_cons, List.not_mem_nil, or_false] at he
    rcases he with rfl | rfl | rfl <;> exact ⟨rfl, rfl⟩
  | joined _ _ =>
    refine ⟨_, rfl, fun e he => ?_⟩
    rcases List.mem_cons.mp he with rfl | he
    · exact ⟨rfl, rfl⟩
    · obtain ⟨line, _, rfl⟩ := List.mem_map.mp he
      exact ⟨rfl, rfl⟩
  | started _ =>
    refine ⟨_, rfl, fun e he => ?_⟩
    simp only [firstEvents, Event.enter, List.cons_append, List.nil_append, List.mem_cons,
      List.not_mem_nil, or_false] at he
    rcases he with rfl | rfl | rfl | rfl <;> exact ⟨rfl, rfl⟩
  | told _ => exact ⟨[], by simp, by simp⟩
  | finished _ _ =>
    refine ⟨_, rfl, fun e he => ?_⟩
    simp only [lastEvents, Event.enter, List.cons_append, List.nil_append, List.mem_cons,
      List.not_mem_nil, or_false] at he
    rcases he with rfl | rfl | rfl | rfl <;> exact ⟨rfl, rfl⟩

/-- A move that is not consumer `i`'s step adds nothing of consumer `i`. -/
theorem Moved.others {p p' : Pool σ τ} {m : Move α} (h : Moved source tracker p m p') {i : Nat}
    (hm : m ≠ .work i) : ∃ events, p'.trace = p.trace ++ events ∧ ∀ e ∈ events, e.owner? ≠ some i := by
  by_cases hw : ∃ k, m = .work k
  · obtain ⟨k, rfl⟩ := hw
    cases h with
    | idle _ => exact ⟨[], by simp, by simp⟩
    | worked _ ht =>
      refine ⟨_, rfl, fun e he => ?_⟩
      rw [ht.owned e he]
      intro hk
      cases hk
      exact hm rfl
  · obtain ⟨events, htrace, hnone⟩ := h.unowned fun k hk => hw ⟨k, hk⟩
    exact ⟨events, htrace, fun e he => by rw [(hnone e he).1]; nofun⟩

theorem Moved.foreign {p p' : Pool σ τ} {m : Move α} (h : Moved source tracker p m p') {i : Nat}
    (hm : m ≠ .work i) : ∃ events, p'.trace = p.trace ++ events ∧ Trace.Foreign i events := by
  obtain ⟨events, htrace, hothers⟩ := h.others hm
  exact ⟨events, htrace, Trace.foreign hothers⟩

/-- A pool asks nothing of the artifact. -/
theorem Moved.requests {p p' : Pool σ τ} {m : Move α} (h : Moved source tracker p m p')
    (hnone : Trace.requests p.trace = []) : Trace.requests p'.trace = [] := by
  have hkeep : ∀ {events}, p'.trace = p.trace ++ events → (∀ e ∈ events, e.isRequest = false) →
      Trace.requests p'.trace = [] := by
    intro events htrace hevents
    rw [htrace, Trace.requests_append, hnone, Trace.requests_eq_nil.mpr hevents]
    rfl
  by_cases hw : ∃ k, m = .work k
  · obtain ⟨k, rfl⟩ := hw
    cases h with
    | idle _ => exact hnone
    | worked _ ht =>
      exact hkeep rfl fun e he => Event.not_request_of_owner (by rw [ht.owned e he]; nofun)
  · obtain ⟨events, htrace, hevents⟩ := h.unowned fun k hk => hw ⟨k, hk⟩
    exact hkeep htrace fun e he => (hevents e he).2

/-- Only its own steps and arrivals change a running consumer. -/
theorem Moved.running {p p' : Pool σ τ} {m : Move α} (h : Moved source tracker p m p') {i : Nat}
    (hw : m ≠ .work i) (ha : ∀ a, m ≠ .arrive i a) {s : σ} {batch : List Bytes}
    (hc : p'.consumers[i]? = some (.running s batch)) :
    p.consumers[i]? = some (.running s batch) := by
  have hset : ∀ (k : Nat) (c : Consumer σ), k ≠ i ∨ c = .joined →
      (p.consumers.set k c)[i]? = some (.running s batch) →
      p.consumers[i]? = some (.running s batch) := by
    intro k c hk hset
    by_cases hki : k = i
    · rw [hk.resolve_left (not_not_intro hki), hki, List.getElem?_set_self'] at hset
      cases hi : p.consumers[i]? <;> simp [hi] at hset
    · rwa [List.getElem?_set_ne hki] at hset
  cases h with
  | idle _ => exact hc
  | @arrived k a _ _ _ => exact hset _ _ (.inl fun hk => ha a (by rw [hk])) hc
  | worked _ _ => exact hset _ _ (.inl fun hk => hw (by rw [hk])) hc
  | shutdown _ => exact hc
  | failed _ _ => exact hset _ _ (.inr rfl) hc
  | joined _ _ => exact hset _ _ (.inr rfl) hc
  | started _ => exact hc
  | told _ => exact hc
  | finished _ _ => exact hc

/-- What is not its own step, nor an arrival, leaves a running consumer as it is. -/
theorem Moved.stays {p p' : Pool σ τ} {m : Move α} (h : Moved source tracker p m p') {i : Nat}
    (hw : m ≠ .work i) (ha : ∀ a, m ≠ .arrive i a) {s : σ} {batch : List Bytes}
    (hc : p.consumers[i]? = some (.running s batch)) :
    p'.consumers[i]? = some (.running s batch) := by
  have hset : ∀ (k : Nat) (c : Consumer σ), k ≠ i →
      (p.consumers.set k c)[i]? = some (.running s batch) :=
    fun k c hk => (List.getElem?_set_ne hk).trans hc
  have hended : ∀ {k how}, p.consumers[k]? = some (.ended how) → k ≠ i := by
    rintro k how hk rfl
    cases hc.symm.trans hk
  cases h with
  | idle _ => exact hc
  | @arrived k a _ _ _ => exact hset _ _ fun hk => ha a (by rw [hk])
  | worked _ _ => exact hset _ _ fun hk => hw (by rw [hk])
  | shutdown _ => exact hc
  | failed hk _ => exact hset _ _ (hended hk)
  | joined hk _ => exact hset _ _ (hended hk)
  | started _ => exact hc
  | told _ => exact hc
  | finished _ _ => exact hc

/-- Nobody joins the pool, or leaves its list. -/
theorem Moved.length {p p' : Pool σ τ} {m : Move α} (h : Moved source tracker p m p') :
    p'.consumers.length = p.consumers.length := by
  cases h <;> first | rfl | exact List.length_set

theorem Moved.channel {p p' : Pool σ τ} {m : Move α} (h : Moved source tracker p m p') :
    p'.channel = p.channel := by
  cases h <;> rfl

/-- Only a consumer's step changes the tracker. -/
theorem Moved.keeps_tracker {p p' : Pool σ τ} {m : Move α} (h : Moved source tracker p m p')
    (hm : ∀ i, m ≠ .work i) : p'.tracker = p.tracker := by
  cases h with
  | worked _ _ => exact absurd rfl (hm _)
  | _ => rfl

/-- What consumers are told they stay told. -/
theorem Moved.keeps_told {p p' : Pool σ τ} {m : Move α}
    (hm : Moved source tracker p m p') (h : p.phase.told = true) : p'.phase.told = true := by
  cases hm with
  | shutdown hp =>
    rw [hp] at h
    cases h
  | failed _ hp =>
    rw [hp] at h
    cases h
  | started hp =>
    rw [hp] at h
    cases h
  | told _ => rfl
  | finished _ _ => rfl
  | _ => exact h

/-! ### Runs -/

theorem run_cons (p : Pool σ τ) (m : Move α) (rest : List (Move α)) :
    p.run source tracker (m :: rest) = (p.step source tracker m).run source tracker rest := rfl

/-- What every move keeps, every run keeps. -/
theorem run_keeps {P : Pool σ τ → Prop}
    (kept : ∀ (p p' : Pool σ τ) (m : Move α), Moved source tracker p m p' → P p → P p')
    (p : Pool σ τ) (moves : List (Move α)) (h : P p) : P (p.run source tracker moves) := by
  induction moves generalizing p with
  | nil => exact h
  | cons m rest ih => exact ih _ (kept p _ m (step_moved p m) h)

theorem run_length (p : Pool σ τ) (moves : List (Move α)) :
    (p.run source tracker moves).consumers.length = p.consumers.length :=
  run_keeps (fun _ _ _ hm h => hm.length.trans h) p moves rfl

theorem run_channel (p : Pool σ τ) (moves : List (Move α)) :
    (p.run source tracker moves).channel = p.channel :=
  run_keeps (fun _ _ _ hm h => hm.channel.trans h) p moves rfl

/-! ### What a run adds to the trace -/

/-- The pool after other events. -/
def behind (before : List Event) (p : Pool σ τ) : Pool σ τ := { p with trace := before ++ p.trace }

theorem update_behind (before : List Event) (p : Pool σ τ) (i : Nat) (c : Consumer σ)
    (events : List Event) :
    (p.behind before).update i c events = (p.update i c events).behind before := by
  simp only [update, behind, List.append_assoc]

theorem leave_behind (before : List Event) (p : Pool σ τ) (failure : Option Fault)
    (events : List Event) :
    (p.behind before).leave failure events = (p.leave failure events).behind before := by
  simp only [leave, behind, List.append_assoc]

theorem hand_behind (before : List Event) (p : Pool σ τ) (i : Nat) (record : Bytes)
    (lines : List Line) (after : Consumer σ) :
    (p.behind before).hand tracker i record lines after =
      (p.hand tracker i record lines after).behind before := by
  have ht : (p.behind before).tracker = p.tracker := rfl
  simp only [hand, ending, ht]
  cases (handle tracker p.tracker record).crash with
  | some message => exact update_behind before { p with tracker := _ } i _ _
  | none => exact update_behind before { p with tracker := _ } i _ _

theorem consume_behind (before : List Event) (p : Pool σ τ) (i : Nat) (s : σ)
    (batch : List Bytes) :
    (p.behind before).consume source tracker i s batch =
      (p.consume source tracker i s batch).behind before := by
  cases batch with
  | cons record rest => exact hand_behind before p i _ _ _
  | nil =>
    simp only [consume, show (p.behind before).phase = p.phase from rfl]
    split
    · split
      · exact hand_behind before p i _ _ _
      · exact update_behind before p i _ _
    · split
      · exact update_behind before p i _ _
      · exact update_behind before p i _ _
      · exact update_behind before p i _ _
      · exact hand_behind before p i _ _ _

theorem step_behind (before : List Event) (p : Pool σ τ) (m : Move α) :
    (p.behind before).step source tracker m = (p.step source tracker m).behind before := by
  have hc : (p.behind before).consumers = p.consumers := rfl
  have hp : (p.behind before).phase = p.phase := rfl
  cases m with
  | arrive i a =>
    simp only [step, hc]
    split
    · exact update_behind before p i _ _
    · rfl
  | work i =>
    simp only [step, hc]
    split
    · exact consume_behind before p i _ _
    · rfl
  | shutdown =>
    simp only [step, hp]
    split
    · exact leave_behind before p _ _
    · rfl
  | join i =>
    simp only [step, hc, hp]
    split
    · rw [update_behind, leave_behind]
      rfl
    · exact update_behind before p i _ _
    · rfl
  | advance =>
    simp only [step, hc, hp]
    split
    · simp only [behind, List.append_assoc]
    · rfl
    · split
      · simp only [behind, List.append_assoc]
      · rfl
    · rfl

theorem run_behind (before : List Event) (p : Pool σ τ) (moves : List (Move α)) :
    (p.behind before).run source tracker moves = (p.run source tracker moves).behind before := by
  induction moves generalizing p with
  | nil => rfl
  | cons m rest ih => rw [run_cons, run_cons, step_behind, ih]

/-- The pool with nothing on its trace. -/
def fresh (p : Pool σ τ) : Pool σ τ := { p with trace := [] }

theorem fresh_behind (p : Pool σ τ) : p = p.fresh.behind p.trace := by
  simp only [fresh, behind, List.append_nil]

/-- **A run does not depend on what happened before it.** -/
theorem run_fresh (p : Pool σ τ) (moves : List (Move α)) :
    p.run source tracker moves = (p.fresh.run source tracker moves).behind p.trace := by
  rw [← run_behind, ← fresh_behind]

end Pool

end LookupTap.Pump
