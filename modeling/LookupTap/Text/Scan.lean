/-! Reading text from left to right.

A `Cursor` is what is left of a text, with the place it has come to. A `Scan` reads some of
it and answers, or fails. Line ends are counted when they are passed; whoever reads text
with other line ends than `\n` changes them first (`unixLines`). -/
namespace LookupTap.Text

/-- What is left of a text, the line and column it starts at, and the character before. -/
structure Cursor where
  rest : List Char
  line : Nat := 0
  column : Nat := 0
  before : Option Char := none

/-- The cursor behind one character. -/
def Cursor.pass (c : Cursor) (ch : Char) : Cursor :=
  if ch = '\n' then { rest := c.rest.tail, line := c.line + 1, column := 0, before := some ch }
  else { c with rest := c.rest.tail, column := c.column + 1, before := some ch }

abbrev Scan := StateT Cursor Option

/-- A text with `\r\n` and a lone `\r` made `\n`. -/
def unixLines : List Char → List Char
  | '\r' :: '\n' :: rest => '\n' :: unixLines rest
  | '\r' :: rest => '\n' :: unixLines rest
  | c :: rest => c :: unixLines rest
  | [] => []

namespace Scan

def fail {α : Type} : Scan α := fun _ => none

/-- The next character, if there is one, left where it is. -/
def peek? : Scan (Option Char) := fun c => some (c.rest.head?, c)

/-- The character `n` places on. -/
def peekAt? (n : Nat) : Scan (Option Char) := fun c => some (c.rest[n]?, c)

def atEnd : Scan Bool := fun c => some (c.rest.isEmpty, c)

/-- Takes the next character. -/
def next : Scan Char := fun c =>
  match c.rest with
  | [] => none
  | ch :: _ => some (ch, c.pass ch)

def skip : (n : Nat) → Scan Unit
  | 0 => pure ()
  | n + 1 => do let _ ← next; skip n

/-- Takes characters as long as they are of a kind. -/
def takeWhile (p : Char → Bool) : Scan (List Char) := fun c =>
  let taken := c.rest.takeWhile p
  some (taken, taken.foldl Cursor.pass c)

def skipWhile (p : Char → Bool) : Scan Unit := do let _ ← takeWhile p

/-- Whether the text goes on like this. -/
def looksAt (lead : List Char) : Scan Bool := fun c => some (lead.isPrefixOf c.rest, c)

/-- Takes a given text, which has to be next. -/
def expect (lead : List Char) : Scan Unit := do
  if ← looksAt lead then skip lead.length else fail

/-- Takes a given text if it is next. -/
def accept (lead : List Char) : Scan Bool := do
  if ← looksAt lead then
    skip lead.length
    return true
  else return false

/-- Reads a whole text. -/
def whole {α : Type} (s : Scan α) (text : List Char) : Option α :=
  match s { rest := text } with
  | some (a, c) => if c.rest.isEmpty then some a else none
  | none => none

end Scan

end LookupTap.Text
