import LookupTap.Tracker

/-! One raw buffer, from bytes to tracker.

A buffer that holds no record costs a warning and nothing else. The record in any other
goes to the tracker as a resolution, after one line about it. -/
namespace LookupTap.Pump

/-- What comes of one buffer: the tracker's state, the lines, the resolution if there was
a record, and the tracker's crash if it had one. -/
structure Handled (σ : Type) where
  state : σ
  lines : List Line
  resolution : Option Resolution := none
  crash : Option String := none

def lookupLine (r : Record) : Line :=
  ⟨.debug, .pump, s!"LOOKUP family={r.family.toNat} {r.host} -> {r.source.text}"⟩

def truncatedLine (e : Truncated) : Line :=
  let message := e.message
  ⟨.warn, .pump, s!"Failed to decode lookup event: {message}"⟩

def handle {σ : Type} (tracker : Tracker σ) (s : σ) (buffer : Bytes) : Handled σ :=
  match Record.decode buffer with
  | .error e => { state := s, lines := [truncatedLine e] }
  | .ok record =>
    let reaction := tracker.accept s record.resolution
    { state := reaction.state
      lines := lookupLine record :: reaction.lines
      resolution := some record.resolution
      crash := reaction.crash }

end LookupTap.Pump
