import LookupTap.Keyed
import LookupTap.Log
import LookupTap.Text.Blank

/-! Which lines of the log are shown.

A filter is text: directives with commas between them, and behind a slash what every shown
line has to contain. A directive names a level, or the start of a topic's name, or both as
`topic=level`. For each topic the directive with the longest name that fits decides. No
directive at all shows errors only. -/
namespace LookupTap.Log

/-- How much is shown of the topics whose names start like this, or of all. -/
structure Directive where
  lead : Option String
  rank : Nat
  deriving DecidableEq, Repr

namespace Directive

/-- Shows a topic whatever its lines' level. -/
def highest : Nat := 5

/-- The levels by name, with one below and one above those that lines have. -/
def ranks : List (String × Nat) :=
  [("off", 0), ("error", 1), ("warn", 2), ("info", 3), ("debug", 4), ("trace", highest)]

def rank? (name : String) : Option Nat := Keyed.get? (name.map Char.toLower) ranks

/-- The directive that a text is, or the part of it that makes no sense. -/
def read (text : String) : Except String Directive :=
  match text.splitOn "=" with
  | [name] =>
    match rank? name with
    | some rank => .ok ⟨none, rank⟩
    | none => .ok ⟨some name, highest⟩
  | [name, level] =>
    let level := String.ofList (Text.trim level.toList)
    if level = "" then .ok ⟨some name, highest⟩
    else
      match rank? level with
      | some rank => .ok ⟨some name, rank⟩
      | none => .error level
  | _ => .error text

def fits (d : Directive) (topic : Topic) : Bool :=
  match d.lead with
  | none => true
  | some lead => topic.name.startsWith lead

def size (d : Directive) : Nat := (d.lead.map String.utf8ByteSize).getD 0

end Directive

/-- Directives, of which none has the name of another, and what lines have to contain. -/
structure Filter where
  directives : List Directive
  needle : Option String := none
  deriving DecidableEq, Repr

namespace Filter

/-- Adds a directive in place of the one of that name, if there is one. -/
def add (directives : List Directive) (d : Directive) : List Directive :=
  (Keyed.put d.lead d.rank (directives.map fun d => (d.lead, d.rank))).map fun (lead, rank) =>
    ⟨lead, rank⟩

/-- The filter with the shortest names first, or that of errors. -/
def ofDirectives (directives : List Directive) (needle : Option String) : Filter :=
  if directives.isEmpty then ⟨[⟨none, Level.error.rank⟩], needle⟩
  else ⟨directives.mergeSort fun a b => a.size ≤ b.size, needle⟩

/-- The directives of a list of them, and the parts that make no sense. -/
def readList (text : String) : List Directive × List String :=
  ((text.splitOn ",").map fun s => String.ofList (Text.trim s.toList)).foldl
    (fun (known, wrong) s =>
      if s = "" then (known, wrong)
      else
        match Directive.read s with
        | .ok d => (add known d, wrong)
        | .error part => (known, wrong ++ [s!"'{part}'"])) ([], [])

def warning (part : String) : String := s!"warning: invalid logging spec {part}, ignoring it"

/-- The filter that a text is, and warnings about the parts that make no sense. -/
def read (text : String) : Filter × List String :=
  let one (list : String) (needle : Option String) : Filter × List String :=
    let (directives, wrong) := readList list
    (ofDirectives directives needle, wrong.map warning)
  match text.splitOn "/" with
  | [list] => one list none
  | [list, needle] => one list (some needle)
  | _ => (ofDirectives [] none, [warning s!"'{text}' (too many '/'s)"])

/-- How much is shown of a topic. -/
def rank (f : Filter) (topic : Topic) : Nat :=
  ((f.directives.reverse.find? (·.fits topic)).map Directive.rank).getD 0

def shows (f : Filter) (l : Line) : Bool :=
  l.level.rank ≤ f.rank l.topic &&
    match f.needle with
    | none => true
    | some needle => 1 < (l.text.splitOn needle).length || needle.isEmpty

end Filter

end LookupTap.Log
