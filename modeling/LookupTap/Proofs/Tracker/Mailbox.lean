import LookupTap.Proofs.Address.Text
import LookupTap.Proofs.Tracker.Fifo

/-! A mailbox behind a pump.

A mailbox takes a resolution as it is, or an address as text. Since the text of every address is
read as that address, the two entries do the same to it, whether it is open or closed
(`entries_agree`). So nothing is lost by the way that a resolution takes: what the receiver of a
mailbox has been given and what is still waiting for it are, once written, the calls that a
recorder behind the same pump keeps. -/
namespace LookupTap

/-- The call of a tracker that a resolution becomes. -/
def Resolution.written (r : Resolution) : String × String := (r.address.text, r.host)

/-- The calls that a recorder keeps of the buffers that a pump handles. -/
def Tracker.recorded (buffers : List Bytes) : List (String × String) :=
  buffers.foldl (fun calls buffer => (Pump.handle recorder calls buffer).state) []

theorem Tracker.recorder_handle (calls : List (String × String)) (buffer : Bytes) :
    (Pump.handle recorder calls buffer).state =
      calls ++ ((Pump.resolved? buffer).map Resolution.written).toList := by
  unfold Pump.handle Pump.resolved?
  cases Record.decode buffer with
  | error e => exact (List.append_nil calls).symm
  | ok record => rfl

theorem Tracker.recorded_eq (buffers : List Bytes) :
    recorded buffers = (buffers.filterMap Pump.resolved?).map Resolution.written := by
  have hfrom : ∀ calls, buffers.foldl (fun calls buffer => (Pump.handle recorder calls buffer).state)
      calls = calls ++ (buffers.filterMap Pump.resolved?).map Resolution.written := by
    induction buffers with
    | nil => exact fun calls => (List.append_nil calls).symm
    | cons buffer rest ih =>
      intro calls
      rw [List.foldl_cons, ih, recorder_handle, List.append_assoc]
      cases hr : Pump.resolved? buffer <;> simp [hr]
  exact hfrom []

namespace Mailbox

/-! ### Turns -/

/-- What happens to a mailbox behind a pump: a buffer is handled, or the receiver asks. -/
inductive Turn where
  | handle (buffer : Bytes)
  | take

def Turn.buffer? : Turn → Option Bytes
  | handle buffer => some buffer
  | take => none

/-- What the receiver is given in a turn, and the mailbox after it. -/
def turn (m : Mailbox) : Turn → List Resolution × Mailbox
  | .handle buffer => ([], (Pump.handle Tracker.mailbox m buffer).state)
  | .take =>
    match m.take with
    | (.next r, m) => ([r], m)
    | (_, m) => ([], m)

/-- What the receiver is given in all turns, and the mailbox after them. -/
def exchange (m : Mailbox) : List Turn → List Resolution × Mailbox
  | [] => ([], m)
  | t :: rest =>
    let (given, m) := m.turn t
    let (later, m) := exchange m rest
    (given ++ later, m)

/-- The use of the mailbox that a turn is. -/
def Turn.use : Turn → Use
  | handle buffer => .handle buffer
  | take => .take

theorem turn_eq (m : Mailbox) (t : Turn) :
    m.turn t = ((m.use t.use).received.toList, (m.use t.use).mailbox) := by
  cases t with
  | handle buffer => rfl
  | take =>
    simp only [turn, use, Turn.use]
    cases m.take with
    | mk answer _ => cases answer <;> rfl

theorem exchange_eq (m : Mailbox) (turns : List Turn) :
    m.exchange turns =
      (received (m.history (turns.map Turn.use)), m.after (turns.map Turn.use)) := by
  induction turns generalizing m with
  | nil => rfl
  | cons t rest ih =>
    simp only [exchange, turn_eq, ih, List.map_cons, history, received_cons, after, List.foldl_cons]

/-- Turns of an open mailbox lose nothing and keep the order. -/
theorem exchange_waiting {m : Mailbox} (hopen : m.closed = false) (turns : List Turn) :
    (m.exchange turns).2.closed = false ∧
      (m.exchange turns).1 ++ (m.exchange turns).2.waiting =
        m.waiting ++ (turns.filterMap Turn.buffer?).filterMap Pump.resolved? := by
  have huses : .close ∉ turns.map Turn.use := by
    intro hin
    obtain ⟨t, -, ht⟩ := List.mem_map.1 hin
    cases t <;> cases ht
  have haccepted : (turns.map Turn.use).filterMap Use.accepted? =
      (turns.filterMap Turn.buffer?).filterMap Pump.resolved? := by
    rw [List.filterMap_map, List.filterMap_filterMap]
    congr 1
    funext t
    cases t <;> rfl
  rw [exchange_eq, ← haccepted]
  exact after_open hopen huses

/-- The receiver that asks for everything is given everything. -/
theorem exchange_take {m : Mailbox} (hopen : m.closed = false) :
    (m.exchange (List.replicate m.waiting.length .take)).1 = m.waiting := by
  obtain ⟨waiting, closed⟩ := m
  cases hopen
  induction waiting with
  | nil => rfl
  | cons r rest ih => exact congrArg (r :: ·) ih

/-! ### Entries -/

/-- **The two entries of a mailbox agree on every address.** The text of an address is never
refused: it puts the very resolution behind those waiting that the other entry puts there, or,
if the receiver is gone, drops it with the same line. So what a receiver is given, and what it
would be given if it went on asking, is what a recorder behind the same pump writes down,
whatever the buffers hold and whenever the receiver asks. -/
theorem entries_agree (m : Mailbox) (address : Address) (host : String) (turns : List Turn) :
    let given := (({} : Mailbox).exchange turns).1
    let left := (({} : Mailbox).exchange turns).2
    Address.ofText? address.text = some address ∧
      Tracker.mailbox.track m address.text host = Tracker.mailbox.accept m ⟨address, host⟩ ∧
      Tracker.mailbox.track m address.text host =
        (if m.closed then
          { state := m
            lines := [⟨.debug, .tracker, s!"Resolution receiver is gone, dropping {host}"⟩] }
        else { state := { m with waiting := m.waiting ++ [⟨address, host⟩] } }) ∧
      (given ++ left.waiting).map Resolution.written =
        Tracker.recorded (turns.filterMap Turn.buffer?) ∧
      (left.exchange (List.replicate left.waiting.length .take)).1 = left.waiting := by
  intro given left
  have hread := Address.ofText?_text address
  have hsame : Tracker.mailbox.track m address.text host =
      Tracker.mailbox.accept m ⟨address, host⟩ := by
    simp only [Tracker.mailbox, putText, hread]
  obtain ⟨hstays, hwaiting⟩ := exchange_waiting (m := {}) rfl turns
  refine ⟨hread, hsame, hsame, ?_, exchange_take hstays⟩
  rw [hwaiting, Tracker.recorded_eq]
  rfl

end Mailbox

end LookupTap
