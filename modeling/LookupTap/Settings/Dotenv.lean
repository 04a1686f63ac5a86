import LookupTap.Bytes
import LookupTap.Settings.Environment
import LookupTap.Text.Blank
import LookupTap.Text.Utf8

/-! Variables from a file of assignments.

The file is a sequence of statements, one a line, unless a quote or a backslash at its end
carries it over to the next. A statement is blank, a comment, or `KEY=value`, possibly
after `export`. In a value, single quotes keep everything, double quotes all but escapes
and `$`, and outside of quotes white space ends the value; `$NAME` and `${NAME}` stand for
variables, those of the process first.

A variable that is set already is left alone. The first statement that cannot be read ends
the file; what stands before it counts. -/
namespace LookupTap.Settings.Dotenv

/-! ### Statements -/

/-- Where the reader of statements is after a character. -/
inductive Mark where
  | complete
  | space
  | escape
  | strong
  | strongEscape
  | weak
  | weakEscape
  | comment
  deriving DecidableEq, Repr

/-- Outside of quotes. -/
def Mark.openWith (c : Char) : Mark :=
  if c = '\\' then escape else if c = '\"' then weak else if c = '\'' then strong else complete

def Mark.next (m : Mark) (c : Char) : Mark :=
  match m with
  | complete => if Text.isBlank c ∧ c ≠ '\n' ∧ c ≠ '\r' then space else openWith c
  | space => if c = '#' then comment else openWith c
  | escape => complete
  | strong => if c = '\\' then strongEscape else if c = '\'' then complete else strong
  | strongEscape => strong
  | weak => if c = '\\' then weakEscape else if c = '\"' then complete else weak
  | weakEscape => weak
  | comment => comment

/-- Reads one line on from a mark: the line up to a comment, and the mark at its end. -/
def scanLine (m : Mark) : List Char → List Char × Mark
  | [] => ([], m)
  | c :: cs =>
    match m.next c with
    | .comment => ([], .comment)
    | m =>
      let (line, last) := scanLine m cs
      (c :: line, last)

/-- A line without its end. -/
def chomp (line : List Char) : List Char :=
  if line.getLast? = some '\n' then
    let line := line.dropLast
    if line.getLast? = some '\r' then line.dropLast else line
  else line

/-- Puts lines together to statements, up to the first one that is not text or is never
finished. `held` is what there is of a statement so far, `m` the mark at its end. -/
def statementsFrom (held : List Char) (m : Mark) : List Bytes → List (List Char)
  | [] => []
  | line :: rest =>
    match Utf8.decode? line with
    | none => []
    | some cs =>
      let all := held ++ cs
      if (Text.trimStart all).head? = some '#' then [] :: statementsFrom [] .complete rest
      else
        let (taken, last) := scanLine m cs
        match last with
        | .complete => chomp all :: statementsFrom [] .complete rest
        | .comment => (held ++ taken) :: statementsFrom [] .complete rest
        | _ => statementsFrom all last rest

/-- The lines of a file, each with its end. -/
def lines : Bytes → List Bytes
  | [] => []
  | b :: bs =>
    if b = 10 then [b] :: lines bs
    else
      match lines bs with
      | line :: rest => (b :: line) :: rest
      | [] => [[b]]

/-- The statements of a file; a mark of byte order at its start is passed over. -/
def statements (file : Bytes) : List (List Char) :=
  match file with
  | 0xEF :: 0xBB :: 0xBF :: rest => statementsFrom [] .complete (lines rest)
  | _ => statementsFrom [] .complete (lines file)

/-! ### Assignments -/

/-- A name: letters, digits, `_` and `.`, the first no digit and no dot. -/
def name? (cs : List Char) : Option (String × List Char) :=
  match cs with
  | [] => none
  | c :: _ =>
    if c.isAlpha ∨ c = '_' then
      let isNameChar (c : Char) : Bool := c.isAlphanum || c = '_' || c = '.'
      some (String.ofList (cs.takeWhile isNameChar), cs.dropWhile isNameChar)
    else none

/-- What stands after an equals sign. -/
def afterEquals? (cs : List Char) : Option (List Char) :=
  match Text.trimStart cs with
  | '=' :: rest => some rest
  | _ => none

/-- The name and the unread value of an assignment. -/
def assignment? (cs : List Char) : Option (String × List Char) :=
  match name? cs with
  | none => none
  | some (name, rest) =>
    match afterEquals? rest, name with
    | some value, _ => some (name, value)
    | none, "export" =>
      match name? (Text.trimStart rest) with
      | none => none
      | some (name, rest) => (afterEquals? rest).map fun value => (name, value)
    | none, _ => none

/-! ### Values -/

/-- How a name to substitute is being read: not at all, after `$`, or in braces. -/
inductive Substitution where
  | off
  | plain
  | braced
  deriving DecidableEq, Repr

/-- The reader of a value, between two characters. -/
structure Reader where
  output : List Char := []
  strong : Bool := false
  weak : Bool := false
  escaped : Bool := false
  ending : Bool := false
  mode : Substitution := .off
  name : List Char := []

/-- What names stand for. -/
abbrev Lookup := String → String

namespace Reader

def push (r : Reader) (c : Char) : Reader := { r with output := r.output ++ [c] }

/-- Writes what the name read stands for. -/
def substitute (look : Lookup) (r : Reader) : Reader :=
  { r with output := r.output ++ (look (String.ofList r.name)).toList, name := [] }

/-- What comes after a name that is being read. -/
def inName (look : Lookup) (r : Reader) (c : Char) : Reader :=
  if Text.isWordChar c then { r with name := r.name ++ [c] }
  else
    match r.mode with
    | .braced =>
      if c = '\x7d' then { r.substitute look with mode := .off }
      else { r with name := r.name ++ [c] }
    | _ =>
      if c = '\x7b' ∧ r.name.isEmpty then { r with mode := .braced }
      else if c = '$' then r.substitute look
      else { (r.substitute look).push c with mode := .off }

/-- Takes one character of a value; fails on a bad escape and after white space. -/
def feed? (look : Lookup) (r : Reader) (c : Char) : Option Reader :=
  if r.escaped then
    let r := { r with escaped := false }
    if c = '\\' ∨ c = '\'' ∨ c = '\"' ∨ c = '$' ∨ c = ' ' then some (r.push c)
    else if c = 'n' then some (r.push '\n')
    else none
  else if r.strong then some (if c = '\'' then { r with strong := false } else r.push c)
  else if r.mode ≠ .off then some (r.inName look c)
  else if c = '$' then some { r with mode := .plain }
  else if r.weak then
    some (if c = '\"' then { r with weak := false }
      else if c = '\\' then { r with escaped := true }
      else r.push c)
  else if c = '\'' then some { r with strong := true }
  else if c = '\"' then some { r with weak := true }
  else if c = '\\' then some { r with escaped := true }
  else if c = ' ' ∨ c = '\t' then some { r with ending := true }
  else some (r.push c)

/-- Reads the rest of a value. White space may be followed by a comment only. -/
def read? (look : Lookup) (r : Reader) : List Char → Option Reader
  | [] => some r
  | c :: cs =>
    if r.ending then
      if c = ' ' ∨ c = '\t' then read? look r cs
      else if c = '#' then some r
      else none
    else
      match r.feed? look c with
      | some r => read? look r cs
      | none => none

end Reader

/-- The text of a value; quotes and braces have to be closed. -/
def value? (look : Lookup) (cs : List Char) : Option String :=
  match ({} : Reader).read? look cs with
  | none => none
  | some r =>
    if r.mode = .braced ∨ r.strong ∨ r.weak then none
    else some (String.ofList (r.substitute look).output)

/-! ### The file -/

/-- What a name stands for: a variable, or an earlier assignment. -/
def lookup (vars earlier : Variables) (name : String) : String :=
  match Keyed.get? name vars with
  | some text => text
  | none => (Keyed.get? name earlier).getD ""

/-- Carries out statements, up to the first that is no assignment. -/
def assignAll (vars earlier : Variables) : List (List Char) → Variables
  | [] => vars
  | statement :: rest =>
    let cs := Text.trim statement
    if cs.isEmpty ∨ cs.head? = some '#' then assignAll vars earlier rest
    else
      match assignment? cs with
      | none => vars
      | some (name, raw) =>
        let raw := Text.trimStart raw
        let value :=
          if raw.isEmpty ∨ raw.head? = some '#' then some ""
          else value? (lookup vars earlier) raw
        match value with
        | none => vars
        | some text =>
          let vars := if Keyed.has name vars then vars else vars ++ [(name, text)]
          assignAll vars (Keyed.put name text earlier) rest

/-- The variables after a file has been read. -/
def layUnder (vars : Variables) (file : Bytes) : Variables :=
  assignAll vars [] (statements file)

end LookupTap.Settings.Dotenv
