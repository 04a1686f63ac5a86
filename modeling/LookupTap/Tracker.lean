import LookupTap.Address.Text
import LookupTap.Log
import LookupTap.Record

/-! Trackers: what resolutions are handed to.

A tracker takes an address as text and a host name (`track`), or a resolution as it is
(`accept`); unless it says otherwise, accepting is tracking the written address. It may
write lines, and it may crash, which ends whoever called it. -/
namespace LookupTap

/-- What comes of one call of a tracker. -/
structure Reaction (σ : Type) where
  state : σ
  lines : List Line := []
  crash : Option String := none

structure Tracker (σ : Type) where
  track : σ → (address host : String) → Reaction σ
  accept : σ → Resolution → Reaction σ := fun s r => track s r.address.text r.host

namespace Tracker

/-- The calls so far, in order. -/
def recorder : Tracker (List (String × String)) where
  track calls address host := { state := calls ++ [(address, host)] }

/-- Records calls until it is asked about one host, where it crashes. -/
def recorderUpTo (last : Option String) : Tracker (List (String × String)) where
  track calls address host :=
    if last = some host then { state := calls, crash := some s!"tracker gave up on {host}" }
    else { state := calls ++ [(address, host)] }

/-- Writes each resolution to the log. -/
def logger : Tracker Unit where
  track s address host :=
    { state := s, lines := [⟨.info, .tracker, s!"RESOLVED {host} -> {address}"⟩] }

end Tracker

/-! ### Mailboxes -/

/-- Resolutions on their way to a receiver, oldest first. Once the receiver is gone the
mailbox is closed for good. -/
structure Mailbox where
  waiting : List Resolution := []
  closed : Bool := false
  deriving DecidableEq

namespace Mailbox

/-- Puts a resolution behind those waiting; a closed mailbox drops it and says so. -/
def put (m : Mailbox) (r : Resolution) : Reaction Mailbox :=
  if m.closed then
    { state := m
      lines := [⟨.debug, .tracker, s!"Resolution receiver is gone, dropping {r.host}"⟩] }
  else { state := { m with waiting := m.waiting ++ [r] } }

/-- Puts the address that the text is; a text that is none is dropped with a line. -/
def putText (m : Mailbox) (address host : String) : Reaction Mailbox :=
  match Address.ofText? address with
  | some a => m.put ⟨a, host⟩
  | none =>
    let reason := Address.syntaxReason
    { state := m
      lines := [⟨.debug, .tracker, s!"Dropping resolution of {host} to '{address}': {reason}"⟩] }

/-- What asking for the next resolution answers. -/
inductive Answer where
  | next (r : Resolution)
  | empty
  | gone

def take (m : Mailbox) : Answer × Mailbox :=
  if m.closed then (.gone, m)
  else
    match m.waiting with
    | [] => (.empty, m)
    | r :: rest => (.next r, { m with waiting := rest })

/-- The receiver goes, and what was waiting with it. -/
def close (_ : Mailbox) : Mailbox := { waiting := [], closed := true }

end Mailbox

def Tracker.mailbox : Tracker Mailbox where
  track := Mailbox.putText
  accept := Mailbox.put

end LookupTap
