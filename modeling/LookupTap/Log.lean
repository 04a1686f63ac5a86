/-! The lines that the program writes about itself.

A line has a level, the part of the program that writes it, and a text. `Line.plain` is
the short form, `Line.full` the one on the terminal, where the level is padded and the
lines that continue a text are indented. -/
namespace LookupTap

/-- From what has to be read to what may be. -/
inductive Level where
  | error
  | warn
  | info
  | debug
  deriving DecidableEq, Repr

namespace Level

def name : Level → String
  | error => "ERROR"
  | warn => "WARN"
  | info => "INFO"
  | debug => "DEBUG"

/-- How many levels a reader of this one sees. -/
def rank : Level → Nat
  | error => 1
  | warn => 2
  | info => 3
  | debug => 4

end Level

/-- The parts of the program that write lines. -/
inductive Topic where
  | program
  | artifact
  | channel
  | pump
  | library
  | attach
  | tracker
  | symbols
  | telemetry
  deriving DecidableEq, Repr

/-- The name that a part goes by in the log, and in filters of it. -/
def Topic.name : Topic → String
  | program => "resolvtap"
  | artifact => "resolvtap::artifact"
  | channel => "resolvtap::channel"
  | pump => "resolvtap::events"
  | library => "resolvtap::library"
  | attach => "resolvtap::probes::attach"
  | tracker => "resolvtap::sink"
  | symbols => "resolvtap::symbols"
  | telemetry => "resolvtap::telemetry"

structure Line where
  level : Level
  topic : Topic
  text : String
  deriving DecidableEq, Repr

namespace Line

def plain (l : Line) : String := s!"{l.level.name} {l.text}"

def full (l : Line) : String :=
  let level := l.level.name ++ String.ofList (List.replicate (5 - l.level.name.length) ' ')
  let text := "\n    ".intercalate (l.text.splitOn "\n")
  s!"[{level} {l.topic.name}] {text}"

end Line

end LookupTap
