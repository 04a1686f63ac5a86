import LookupTap.Proofs.Pump.Delivery
import Mathlib.Data.List.Basic

/-! Mailboxes in any use.

A mailbox is used by a pump in front of it, by callers of its two entries, and by its receiver, who
may go. Each call hands in a resolution or is refused (`Use.accepted?`, `Use.refusal?`), whatever
state the mailbox is in. While the receiver is there, an accepted resolution goes behind those
waiting and the receiver is given the oldest, so what has been given and what is waiting are what
was accepted, in order (`after_open`). Once the receiver has gone, no use leaves a trace in the
mailbox or gives anything (`use_gone`). -/
namespace LookupTap.Mailbox

/-! ### Uses -/

/-- What can happen to a mailbox: a pump handles a buffer, an entry is called with a text or with a
resolution, the receiver asks, or it goes. -/
inductive Use where
  | handle (buffer : Bytes)
  | track (address host : String)
  | accept (r : Resolution)
  | take
  | close
  deriving DecidableEq

/-- What comes of a use: the mailbox, what its receiver is given, what the caller of the pump gets
back, and the lines. -/
structure Used where
  mailbox : Mailbox
  received : Option Resolution := none
  returned : Option Resolution := none
  lines : List Line := []
  deriving DecidableEq

def use (m : Mailbox) : Use → Used
  | .handle buffer =>
    let handled := Pump.handle Tracker.mailbox m buffer
    { mailbox := handled.state, returned := handled.resolution, lines := handled.lines }
  | .track address host =>
    let reaction := Tracker.mailbox.track m address host
    { mailbox := reaction.state, lines := reaction.lines }
  | .accept r =>
    let reaction := Tracker.mailbox.accept m r
    { mailbox := reaction.state, lines := reaction.lines }
  | .take =>
    match m.take with
    | (.next r, m) => { mailbox := m, received := some r }
    | (_, m) => { mailbox := m }
  | .close => { mailbox := m.close }

/-- What comes of uses in a row. -/
def history (m : Mailbox) : List Use → List Used
  | [] => []
  | u :: rest => m.use u :: history (m.use u).mailbox rest

/-- The mailbox after uses in a row. -/
def after (m : Mailbox) (uses : List Use) : Mailbox :=
  uses.foldl (fun m u => (m.use u).mailbox) m

/-- What the receiver has been given. -/
def received (uses : List Used) : List Resolution := uses.filterMap Used.received

theorem received_cons (used : Used) (rest : List Used) :
    received (used :: rest) = used.received.toList ++ received rest := by
  simp only [received, List.filterMap_eq_flatMap_toList, List.flatMap_cons]

theorem history_append (m : Mailbox) (first second : List Use) :
    m.history (first ++ second) = m.history first ++ (m.after first).history second := by
  induction first generalizing m with
  | nil => rfl
  | cons u rest ih => exact congrArg (m.use u :: ·) (ih (m.use u).mailbox)

/-! ### What a use says by itself -/

/-- The line about an address that is none. -/
def unreadLine (address host : String) : Line :=
  let reason := Address.syntaxReason
  ⟨.debug, .tracker, s!"Dropping resolution of {host} to '{address}': {reason}"⟩

/-- The line about a resolution that nobody receives. -/
def goneLine (r : Resolution) : Line :=
  ⟨.debug, .tracker, s!"Resolution receiver is gone, dropping {r.host}"⟩

namespace Use

/-- A use that hands something in, well or not. -/
def isCall : Use → Bool
  | handle _ => true
  | track _ _ => true
  | accept _ => true
  | _ => false

/-- The resolution that a use hands in: the one in a buffer that holds a record, the one that a text
makes that is an address, or the one that is given as it is. -/
def accepted? : Use → Option Resolution
  | handle buffer => Pump.resolved? buffer
  | track address host => (Address.ofText? address).map fun a => ⟨a, host⟩
  | accept r => some r
  | _ => none

/-- The line about a call that hands nothing in. -/
def refusal? : Use → Option Line
  | handle buffer =>
    match Record.decode buffer with
    | .error e => some (Pump.truncatedLine e)
    | .ok _ => none
  | track address host =>
    match Address.ofText? address with
    | none => some (unreadLine address host)
    | some _ => none
  | _ => none

/-- The line about a record. -/
def notice? : Use → Option Line
  | handle buffer => (Record.decode buffer).toOption.map Pump.lookupLine
  | _ => none

/-- What the caller gets back. -/
def returned? : Use → Option Resolution
  | handle buffer => Pump.resolved? buffer
  | _ => none

theorem isCall_iff (u : Use) :
    u.isCall = true ↔ u.accepted?.isSome = true ∧ u.refusal? = none ∨
      u.accepted? = none ∧ u.refusal?.isSome = true := by
  cases u with
  | handle buffer =>
    simp only [isCall, accepted?, refusal?, Pump.resolved?]
    cases Record.decode buffer <;> simp [Except.toOption]
  | track address host =>
    simp only [isCall, accepted?, refusal?]
    cases Address.ofText? address <;> simp
  | accept r => simp [isCall, accepted?, refusal?]
  | take => simp [isCall, accepted?, refusal?]
  | close => simp [isCall, accepted?, refusal?]

theorem refusal?_level (u : Use) {line : Line} (h : u.refusal? = some line) :
    (line.level = .debug ↔ ∃ address host, u = .track address host) ∧
      (line.level = .warn ↔ ∃ buffer, u = .handle buffer) := by
  cases u with
  | handle buffer =>
    simp only [refusal?] at h
    split at h
    · cases h
      simp [Pump.truncatedLine]
    · cases h
  | track address host =>
    simp only [refusal?] at h
    split at h
    · cases h
      simp [unreadLine]
    · cases h
  | _ => cases h

/-- What is handed in is not refused. -/
theorem refusal?_of_accepted {u : Use} {r : Resolution} (h : u.accepted? = some r) :
    u.refusal? = none := by
  cases u with
  | handle buffer =>
    simp only [accepted?, refusal?, Pump.resolved?] at h ⊢
    cases hdecode : Record.decode buffer with
    | error e => simp [hdecode, Except.toOption] at h
    | ok record => rfl
  | track address host =>
    simp only [accepted?, refusal?] at h ⊢
    cases htext : Address.ofText? address with
    | none => simp [htext] at h
    | some a => rfl
  | _ => rfl

end Use

/-! ### One use -/

/-- A call that is refused changes nothing, and writes its one line. -/
theorem use_refused (m : Mailbox) {u : Use} {line : Line} (h : u.refusal? = some line) :
    m.use u = { mailbox := m, lines := [line] } := by
  cases u with
  | handle buffer =>
    simp only [use, Use.refusal?, Pump.handle] at h ⊢
    cases hdecode : Record.decode buffer with
    | error e =>
      rw [hdecode] at h
      cases h
      rfl
    | ok record =>
      rw [hdecode] at h
      cases h
  | track address host =>
    simp only [use, Use.refusal?, Tracker.mailbox, putText] at h ⊢
    cases htext : Address.ofText? address with
    | none =>
      rw [htext] at h
      cases h
      rfl
    | some a =>
      rw [htext] at h
      cases h
  | _ => cases h

/-- A pump returns the resolution of every record, open or closed as the mailbox may be. -/
theorem use_returned (m : Mailbox) (u : Use) : (m.use u).returned = u.returned? := by
  cases u with
  | handle buffer => exact Pump.handle_resolution Tracker.mailbox m buffer
  | take =>
    simp only [use]
    split <;> rfl
  | _ => rfl

/-- While the receiver is there, nothing is lost and the order is kept. -/
theorem use_open {m : Mailbox} (hopen : m.closed = false) {u : Use} (hu : u ≠ .close) :
    (m.use u).mailbox.closed = false ∧
      (m.use u).received.toList ++ (m.use u).mailbox.waiting = m.waiting ++ u.accepted?.toList := by
  obtain ⟨waiting, closed⟩ := m
  cases hopen
  cases u with
  | handle buffer =>
    simp only [use, Pump.handle, Use.accepted?, Pump.resolved?]
    cases Record.decode buffer with
    | error e => exact ⟨rfl, (List.append_nil waiting).symm⟩
    | ok record => exact ⟨rfl, rfl⟩
  | track address host =>
    simp only [use, Tracker.mailbox, putText, Use.accepted?]
    cases Address.ofText? address with
    | none => exact ⟨rfl, (List.append_nil waiting).symm⟩
    | some a => exact ⟨rfl, rfl⟩
  | accept r => exact ⟨rfl, rfl⟩
  | take =>
    cases waiting with
    | nil => exact ⟨rfl, rfl⟩
    | cons r rest => exact ⟨rfl, (List.append_nil _).symm⟩
  | close => exact absurd rfl hu

/-- The mailbox whose receiver has gone. -/
def gone : Mailbox := ⟨[], true⟩

/-- What comes of a use when the receiver has gone. -/
def Use.dropped (u : Use) : Used where
  mailbox := gone
  returned := u.returned?
  lines := u.refusal?.toList ++ u.notice?.toList ++ u.accepted?.toList.map goneLine

theorem Use.dropped_lines (u : Use) {r : Resolution} (h : u.accepted? = some r) :
    u.dropped.lines = u.notice?.toList ++ [goneLine r] := by
  simp only [dropped, refusal?_of_accepted h, h, Option.toList_none, Option.toList_some,
    List.nil_append, List.map_cons, List.map_nil]

theorem use_gone (u : Use) : gone.use u = u.dropped := by
  cases u with
  | handle buffer =>
    simp only [use, Use.dropped, Pump.handle, Use.returned?, Use.refusal?, Use.notice?,
      Use.accepted?, Pump.resolved?]
    cases Record.decode buffer <;> rfl
  | track address host =>
    simp only [use, Use.dropped, Tracker.mailbox, putText, Use.returned?, Use.refusal?,
      Use.notice?, Use.accepted?]
    cases Address.ofText? address <;> rfl
  | _ => rfl

/-! ### Uses in a row -/

theorem after_open {m : Mailbox} (hopen : m.closed = false) {uses : List Use}
    (huses : .close ∉ uses) :
    (m.after uses).closed = false ∧
      received (m.history uses) ++ (m.after uses).waiting =
        m.waiting ++ uses.filterMap Use.accepted? := by
  induction uses generalizing m with
  | nil => exact ⟨hopen, (List.append_nil m.waiting).symm⟩
  | cons u rest ih =>
    obtain ⟨hkept, hturn⟩ := use_open hopen fun hu => huses (hu ▸ List.mem_cons_self)
    obtain ⟨hstays, hrest⟩ := ih hkept fun hin => huses (List.mem_cons_of_mem u hin)
    refine ⟨hstays, ?_⟩
    have haccepted : (u :: rest).filterMap Use.accepted? =
        u.accepted?.toList ++ rest.filterMap Use.accepted? := by
      simp only [List.filterMap_eq_flatMap_toList, List.flatMap_cons]
    calc received (m.history (u :: rest)) ++ (m.after (u :: rest)).waiting
        = (m.use u).received.toList ++
            (received ((m.use u).mailbox.history rest) ++
              ((m.use u).mailbox.after rest).waiting) := by
          rw [history, received_cons, List.append_assoc]
          rfl
      _ = (m.use u).received.toList ++ (m.use u).mailbox.waiting ++
            rest.filterMap Use.accepted? := by rw [hrest, List.append_assoc]
      _ = m.waiting ++ (u :: rest).filterMap Use.accepted? := by
          rw [hturn, haccepted, List.append_assoc]

theorem history_gone (uses : List Use) : gone.history uses = uses.map Use.dropped := by
  induction uses with
  | nil => rfl
  | cons u rest ih =>
    rw [history, use_gone, List.map_cons]
    exact congrArg (u.dropped :: ·) ih

theorem received_dropped (uses : List Use) : received (uses.map Use.dropped) = [] := by
  rw [received, List.filterMap_map]
  exact List.filterMap_eq_nil_iff.2 fun _ _ => rfl

/-- Closing leaves nothing of what was there. -/
theorem history_close (m : Mailbox) (rest : List Use) :
    m.history (.close :: rest) = { mailbox := gone } :: rest.map Use.dropped := by
  rw [← history_gone]
  rfl

/-- **A mailbox hands on what it was handed, oldest first, until its receiver goes.** Whatever its
pump handles, whatever its two entries are called with, and whenever the receiver asks and goes:
before the receiver goes, what it has been given and what is waiting for it are the resolutions that
were handed in, in order. A call hands in a resolution or is refused, and a refused one writes one
line and changes nothing. After the receiver has gone nothing is ever given again; each resolution
that is still handed in costs one line that names its host, behind the pump's own, and the pump
still returns the resolution of every buffer that holds a record. -/
theorem fifo_uses (before rest : List Use) (hopen : .close ∉ before) :
    let told := ({} : Mailbox).history before
    let told' := ({} : Mailbox).history (before ++ .close :: rest)
    received told ++ (({} : Mailbox).after before).waiting = before.filterMap Use.accepted? ∧
      (∀ u : Use, u.isCall = true ↔
        u.accepted?.isSome = true ∧ u.refusal? = none ∨
          u.accepted? = none ∧ u.refusal?.isSome = true) ∧
      (∀ m : Mailbox, ∀ u : Use, ∀ line, u.refusal? = some line →
        m.use u = { mailbox := m, lines := [line] } ∧
          (line.level = .debug ↔ ∃ address host, u = .track address host) ∧
          (line.level = .warn ↔ ∃ buffer, u = .handle buffer)) ∧
      told' = told ++ { mailbox := gone } :: rest.map Use.dropped ∧
      received told' = received told ∧
      (∀ u : Use, ∀ r, u.accepted? = some r → u.dropped.lines = u.notice?.toList ++ [goneLine r]) ∧
      ∀ m : Mailbox, ∀ buffer, (m.use (.handle buffer)).returned = Pump.resolved? buffer ∧
        ((Pump.resolved? buffer).isSome = true ↔ recordSize ≤ buffer.length) := by
  intro told told'
  have hclose : told' = told ++ { mailbox := gone } :: rest.map Use.dropped := by
    show ({} : Mailbox).history (before ++ .close :: rest) = _
    rw [history_append, history_close]
  have hgiven : received told' = received told := by
    rw [hclose, received, List.filterMap_append]
    exact (congrArg (received told ++ ·) (received_dropped rest)).trans (List.append_nil _)
  refine ⟨(after_open (m := {}) rfl hopen).2, Use.isCall_iff, ?_, hclose, hgiven, ?_, ?_⟩
  · intro m u line hline
    exact ⟨use_refused m hline, u.refusal?_level hline⟩
  · intro u r hr
    exact u.dropped_lines hr
  · intro m buffer
    exact ⟨use_returned m (.handle buffer), Pump.resolved?_isSome buffer⟩

/-- Two resolutions, the second as text, and a text that is no address; the receiver takes one and
goes, and a third resolution comes too late. -/
theorem fifo_uses_three :
    let first : Resolution := ⟨.v4 ⟨10, 0, 0, 1⟩, "a.test"⟩
    let second : Resolution := ⟨.v4 ⟨10, 0, 0, 2⟩, "b.test"⟩
    let late : Resolution := ⟨.v4 ⟨10, 0, 0, 3⟩, "c.test"⟩
    let before : List Use :=
      [.accept first, .track "10.0.0.256" "a.test", .track "10.0.0.2" "b.test", .take]
    let told := ({} : Mailbox).history (before ++ .close :: [.take, .accept late])
    .close ∉ before ∧ received told = [first] ∧
      (({} : Mailbox).after before).waiting = [second] ∧
      told.map (fun used => used.lines.map Line.text) =
        [[], ["Dropping resolution of a.test to '10.0.0.256': invalid IP address syntax"], [], [],
          [], [], ["Resolution receiver is gone, dropping c.test"]] := by
  intro first second late before told
  have hopen : .close ∉ before := by decide
  obtain ⟨hkept, -, -, hclose, hgiven, -, -⟩ := fifo_uses before [.take, .accept late] hopen
  have haccepted : before.filterMap Use.accepted? = [first, second] := by decide
  have htold : received (({} : Mailbox).history before) = [first] := by decide
  refine ⟨hopen, hgiven.trans htold, ?_, ?_⟩
  · rw [haccepted, htold] at hkept
    exact List.cons.inj hkept |>.2
  · show List.map _ (({} : Mailbox).history _) = _
    rw [hclose]
    decide

/-- A buffer that is refused costs a warning: a pump does not write it among the lines for
debugging, where a text that is no address goes. -/
theorem refused_buffer_warns :
    Use.accepted? (.handle []) = none ∧
      (({} : Mailbox).use (.handle [])).lines =
        [⟨.warn, .pump, "Failed to decode lookup event: Truncated lookup event: expected 272 " ++
          "bytes, got 0"⟩] ∧
      (({} : Mailbox).use (.track "10.0.0.256" "a.test")).lines.map Line.level = [.debug] := by
  decide

end LookupTap.Mailbox
