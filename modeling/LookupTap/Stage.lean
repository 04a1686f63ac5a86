import LookupTap.Log

/-! The stages of a run, in the words of the log. -/
namespace LookupTap

inductive Stage where
  | unloaded
  | loaded
  | attaching
  | polling
  | stopping
  deriving DecidableEq, Repr

namespace Stage

def name : Stage → String
  | unloaded => "unloaded"
  | loaded => "loaded"
  | attaching => "attaching"
  | polling => "polling"
  | stopping => "stopping"

/-- The line about entering a stage. -/
def line (s : Stage) : Line := ⟨.info, .program, s!"Lifecycle: {s.name}"⟩

end Stage

end LookupTap
