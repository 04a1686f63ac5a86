import LookupTap.Probe
import LookupTap.Resolver

/-! The pass that attaches probes to a library.

Each probe's function is looked up in the library and the host is asked to attach the probe
at the value found. A function that the library does not have costs a warning and its
probe; any other fault, of the look-up or of the host, ends the pass there. A pass that
attaches nothing is a fault itself.

`walk` says what happens probe by probe and keeps everything asked and done; `pass` draws
the conclusion. -/
namespace LookupTap.Probe

/-- What attaches probes. -/
structure Host (η : Type) where
  attach : η → Probe → (library : String) → (offset : Nat) → Step η (Except Fault Unit)

/-- What a pass has done when it ends well. -/
structure Outcome where
  declared : Nat
  attached : Nat
  skipped : List String
  deriving DecidableEq, Repr

/-- A probe that the host was asked to attach at an offset. -/
structure Attachment where
  probe : Probe
  offset : Nat
  deriving DecidableEq, Repr

/-- Everything that a walk over probes has asked, done and written, and how it ended. -/
structure Walk (η ρ : Type) where
  fault : Option Fault := none
  asked : List String := []
  attached : List Attachment := []
  refused : Option Attachment := none
  skipped : List String := []
  lines : List Line := []
  host : η
  resolver : ρ

namespace Walk

variable {η ρ : Type}

/-- The walk with what came before it. -/
def afterSkip (probe : Probe) (lines : List Line) (w : Walk η ρ) : Walk η ρ :=
  { w with
    asked := probe.target :: w.asked
    skipped := probe.rawName :: w.skipped
    lines := lines ++ w.lines }

def afterAttach (probe : Probe) (offset : Nat) (lines : List Line) (w : Walk η ρ) : Walk η ρ :=
  { w with
    asked := probe.target :: w.asked
    attached := ⟨probe, offset⟩ :: w.attached
    lines := lines ++ w.lines }

end Walk

section Walk
variable {η ρ : Type} (host : Host η) (resolver : Resolver ρ) (library : String)

def skipLine (probe : Probe) (reason : Fault) : Line :=
  let message := reason.message
  ⟨.warn, .attach, s!"Skipping {probe.rawName}: {message}"⟩

def walk (h : η) (r : ρ) : List Probe → Walk η ρ
  | [] => { host := h, resolver := r }
  | probe :: rest =>
    let looked := resolver.resolve r library probe.target
    match looked.answer with
    | .error (.symbolNotFound symbol path) =>
      let line := skipLine probe (.symbolNotFound symbol path)
      (walk h looked.state rest).afterSkip probe (looked.lines ++ [line])
    | .error e =>
      { fault := some e, asked := [probe.target], lines := looked.lines
        host := h, resolver := looked.state }
    | .ok offset =>
      let done := host.attach h probe library offset
      match done.answer with
      | .error e =>
        { fault := some e, asked := [probe.target], refused := some ⟨probe, offset⟩
          lines := looked.lines ++ done.lines, host := done.state, resolver := looked.state }
      | .ok () =>
        (walk done.state looked.state rest).afterAttach probe offset
          (looked.lines ++ done.lines)

/-- How a pass over `declared` probes ends. -/
def Walk.result (declared : Nat) (w : Walk η ρ) : Except Fault Outcome :=
  match w.fault with
  | some e => .error e
  | none =>
    if w.attached.isEmpty then .error (.noProbesAttached declared)
    else .ok ⟨declared, w.attached.length, w.skipped⟩

/-- The line about a pass that ended well. -/
def outcomeLine (o : Outcome) : Line :=
  ⟨.info, .attach, s!"Attached {o.attached}/{o.declared} probes to {library}"⟩

/-- A pass: its conclusion, and the walk with the last line added. -/
def pass (h : η) (r : ρ) (declared : List Probe) : Except Fault Outcome × Walk η ρ :=
  let w := walk host resolver library h r declared
  match w.result declared.length with
  | .error e => (.error e, w)
  | .ok outcome => (.ok outcome, { w with lines := w.lines ++ [outcomeLine library outcome] })

end Walk

end LookupTap.Probe
