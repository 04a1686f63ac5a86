import LookupTap.Settings.Value
import LookupTap.Text.Scan

/-! Scalars of a YAML document: their text, and what the text means.

A scalar is plain, in single or double quotes, or a block. In all of them line ends fold: one
line end is a space, further ones stay. A plain scalar without a tag means null, a truth
value, a whole number or a number if it reads as one, and else its text. -/
namespace LookupTap.Settings.Yaml

open Text (Cursor Scan)

/-! ### Meaning -/

inductive Scalar where
  | null
  | bool (b : Bool)
  | int (i : Int)
  | real (text : String)
  | text (s : String)
  deriving DecidableEq, Repr

namespace Scalar

def infinities : List String :=
  [".inf", ".Inf", ".INF", "+.inf", "+.Inf", "+.INF", "-.inf", "-.Inf", "-.INF", ".nan", ".NaN",
    ".NAN"]

/-- The text reads as a number: it has a digit, or is one of the names. -/
def isReal (s : String) : Bool :=
  infinities.contains s ||
    (s.toList.any Char.isDigit && (Binary64.read? s.toList).isSome)

/-- A number in base 16, in base 8, or after a plus sign. -/
def marked? (cs : List Char) : Option Int :=
  match cs with
  | '0' :: 'x' :: ds => Digits.int64? 16 ds
  | '0' :: 'o' :: ds => Digits.int64? 8 ds
  | '+' :: ds => Digits.int64? 10 ds
  | _ => none

/-- What a plain text means. -/
def ofPlain (s : String) : Scalar :=
  match marked? s.toList with
  | some i => int i
  | none =>
    match s with
    | "" => null
    | "~" => null
    | "null" => null
    | "true" => bool true
    | "false" => bool false
    | _ =>
      match Digits.int64? 10 s.toList with
      | some i => int i
      | none => if isReal s then real s else text s

/-- What a plain text with a tag of the common set means. -/
def ofTagged (tag s : String) : Scalar :=
  match tag with
  | "bool" => if s = "true" then bool true else if s = "false" then bool false else null
  | "int" => ((Digits.int64? 10 s.toList).map int).getD null
  | "float" => if isReal s then real s else null
  | "null" => null
  | _ => text s

/-- The scalar as data; the names of what is not finite are no numbers here. -/
def data? : Scalar → Option Data
  | null => some .nil
  | bool b => some (.bool b)
  | int i => some (.int i)
  | text s => some (.text s)
  | real s => (Binary64.read? s.toList).map .float

end Scalar

/-! ### Places -/

def isBreakOrEnd : Option Char → Bool
  | none => true
  | some c => c = '\n'

def isBlank (c : Char) : Bool := c = ' ' || c = '\t'

/-- Nothing, a blank or a line end. -/
def isSpace : Option Char → Bool
  | none => true
  | some c => isBlank c || c = '\n'

def isFlowMark (c : Char) : Bool := c = ',' || c = '[' || c = ']' || c = '\x7b' || c = '\x7d'

/-- The cursor is at the line that ends a document or starts the next. -/
def atDocumentMark : Scan Bool := fun c =>
  some (c.column = 0 && isSpace c.rest[3]? &&
    (c.rest.take 3 = ['-', '-', '-'] || c.rest.take 3 = ['.', '.', '.']), c)

def column : Scan Nat := fun c => some (c.column, c)

def line : Scan Nat := fun c => some (c.line, c)

def position : Scan Cursor := fun c => some (c, c)

/-! ### Folding -/

/-- Line ends between two pieces of a scalar: one is a space, more are themselves but for
the first. -/
def folded (breaks : Nat) : List Char :=
  if breaks = 1 then [' '] else List.replicate (breaks - 1) '\n'

/-- Passes blanks and line ends; answers the blanks before the first line end, and how many
line ends there were. -/
def gap : (fuel : Nat) → Scan (List Char × Nat)
  | 0 => Scan.fail
  | fuel + 1 => do
    let blanks ← Scan.takeWhile isBlank
    if (← Scan.peek?) = some '\n' then
      Scan.skip 1
      let (_, breaks) ← gap fuel
      return (blanks, breaks + 1)
    else return (blanks, 0)

/-! ### Plain scalars -/

/-- Whether a plain scalar goes on at the cursor. -/
def plainGoesOn (flow : Bool) : Scan Bool := do
  match ← Scan.peek? with
  | none => return false
  | some c =>
    let after ← Scan.peekAt? 1
    if c = ':' then
      return !(isSpace after || (flow && after.any isFlowMark))
    else return !(isSpace (some c) || (flow && isFlowMark c))

/-- The characters up to the next white space or end of the scalar. -/
def plainWord (flow : Bool) : (fuel : Nat) → Scan (List Char)
  | 0 => return []
  | fuel + 1 => do
    if ← plainGoesOn flow then
      let c ← Scan.next
      let rest ← plainWord flow fuel
      return c :: rest
    else return []

/-- The words of a plain scalar. `indent` is the least column of its further lines; without
`multi` it ends with its line. -/
def plainRest (flow multi : Bool) (indent : Int) : (fuel : Nat) → Scan (List Char)
  | 0 => Scan.fail
  | fuel + 1 => do
    let start ← position
    let (blanks, breaks) ← gap fuel
    let c ← Scan.peek?
    let col ← column
    let marked ← atDocumentMark
    let ends :=
      if breaks = 0 then blanks.isEmpty || c = some '#'
      else !multi || c = some '#' || (col < indent && !flow) || marked
    if ends || !(← plainGoesOn flow) then
      set start
      return []
    else
      let word ← plainWord flow start.rest.length
      let rest ← plainRest flow multi indent fuel
      return (if breaks = 0 then blanks else folded breaks) ++ word ++ rest

/-- Whether a plain scalar can start with these two characters. -/
def startsPlain (flow : Bool) (c : Char) (after : Option Char) : Bool :=
  if c = '-' ∨ c = '?' ∨ c = ':' then !(isSpace after || (flow && after.any isFlowMark))
  else !([',', '[', ']', '\x7b', '\x7d', '#', '&', '*', '!', '|', '>', '\'', '\"', '%', '@',
    Char.ofNat 96].contains c) && !isSpace (some c)

def plain (flow multi : Bool) (indent : Int) (fuel : Nat) : Scan String := do
  match ← Scan.peek? with
  | none => Scan.fail
  | some c =>
    if startsPlain flow c (← Scan.peekAt? 1) then
      let first ← plainWord flow fuel
      let rest ← plainRest flow multi indent fuel
      return String.ofList (first ++ rest)
    else Scan.fail

/-! ### Quoted scalars -/

/-- A character by its number in so many hexadecimal digits. -/
def escapedByNumber (digits : Nat) : Scan Char := do
  let c ← position
  match Digits.number? 16 (c.rest.take digits) with
  | some n =>
    Scan.skip digits
    if n < 0xD800 ∨ (0xE000 ≤ n ∧ n < 0x110000) then return Char.ofNat n else Scan.fail
  | none => Scan.fail

/-- The character that an escape stands for. -/
def escape : Scan Char := do
  match ← Scan.next with
  | '0' => return Char.ofNat 0
  | 'a' => return Char.ofNat 7
  | 'b' => return Char.ofNat 8
  | 't' => return '\t'
  | '\t' => return '\t'
  | 'n' => return '\n'
  | 'v' => return Char.ofNat 11
  | 'f' => return Char.ofNat 12
  | 'r' => return '\r'
  | 'e' => return Char.ofNat 27
  | ' ' => return ' '
  | '\"' => return '\"'
  | '/' => return '/'
  | '\\' => return '\\'
  | 'N' => return Char.ofNat 0x85
  | '_' => return Char.ofNat 0xA0
  | 'L' => return Char.ofNat 0x2028
  | 'P' => return Char.ofNat 0x2029
  | 'x' => escapedByNumber 2
  | 'u' => escapedByNumber 4
  | 'U' => escapedByNumber 8
  | _ => Scan.fail

/-- The rest of a quoted scalar, its closing quote included. -/
def quotedRest (quote : Char) (indent : Int) : (fuel : Nat) → Scan (List Char)
  | 0 => Scan.fail
  | fuel + 1 => do
    if ← atDocumentMark then Scan.fail
    else
      match ← Scan.peek? with
      | none => Scan.fail
      | some c =>
        if c = quote then
          Scan.skip 1
          if quote = '\'' ∧ (← Scan.accept ['\'']) then
            let rest ← quotedRest quote indent fuel
            return '\'' :: rest
          else return []
        else if quote = '\"' ∧ c = '\\' then
          Scan.skip 1
          if ← Scan.accept ['\n'] then
            let (_, breaks) ← gap fuel
            let rest ← quotedRest quote indent fuel
            return List.replicate breaks '\n' ++ rest
          else
            let e ← escape
            let rest ← quotedRest quote indent fuel
            return e :: rest
        else if isSpace (some c) then
          let (blanks, breaks) ← gap fuel
          if breaks ≠ 0 ∧ (← column) < indent ∧ !(← Scan.atEnd) then Scan.fail
          else
            let rest ← quotedRest quote indent fuel
            return (if breaks = 0 then blanks else folded breaks) ++ rest
        else
          Scan.skip 1
          let rest ← quotedRest quote indent fuel
          return c :: rest

def quoted (quote : Char) (indent : Int) (fuel : Nat) : Scan String := do
  Scan.expect [quote]
  let cs ← quotedRest quote indent fuel
  return String.ofList cs

/-! ### Block scalars -/

/-- What becomes of the line ends at the end of a block. -/
inductive Chomping where
  | clip
  | strip
  | keep
  deriving DecidableEq, Repr

/-- The marks behind `|` and `>`: how to chomp, and the indentation if it is given. -/
def blockHeader : Scan (Chomping × Option Nat) := do
  let chomp : Scan (Option Chomping) := do
    if ← Scan.accept ['-'] then return some .strip
    else if ← Scan.accept ['+'] then return some .keep
    else return none
  let first ← chomp
  let digits ← Scan.takeWhile Char.isDigit
  let second ← if first.isNone then chomp else pure none
  let indent ←
    match digits with
    | [] => pure none
    | [d] => if d = '0' then Scan.fail else pure (Digits.digit? 10 d)
    | _ => Scan.fail
  let blanks ← Scan.takeWhile isBlank
  if !blanks.isEmpty ∧ (← Scan.peek?) = some '#' then Scan.skipWhile (· ≠ '\n')
  if isBreakOrEnd (← Scan.peek?) then return ((first <|> second).getD .clip, indent)
  else Scan.fail

/-- The column of the first line of a block that has anything but spaces in it. -/
def firstIndent : (fuel : Nat) → List Char → Nat
  | 0, _ => 0
  | fuel + 1, cs =>
    let spaces := (cs.takeWhile (· = ' ')).length
    match cs.drop spaces with
    | '\n' :: rest => firstIndent fuel rest
    | _ => spaces

/-- Passes line ends and up to `indent` spaces before what follows them. -/
def blockBreaks (indent : Nat) : (fuel : Nat) → Scan Nat
  | 0 => Scan.fail
  | fuel + 1 => do
    let c ← position
    let spaces := ((c.rest.take indent).takeWhile (· = ' ')).length
    Scan.skip spaces
    if (← Scan.peek?) = some '\n' then
      Scan.skip 1
      let breaks ← blockBreaks indent fuel
      return breaks + 1
    else return 0

/-- The lines of a block from the cursor on. `pending` is the line end before, if any, and
`blank` whether the line before it started with a blank. -/
def blockLines (literal : Bool) (indent : Nat) (pending : Bool) (blank : Bool)
    (breaks : Nat) : (fuel : Nat) → Scan (List Char × Bool × Nat)
  | 0 => Scan.fail
  | fuel + 1 => do
    if (← column) ≠ indent ∨ (← Scan.atEnd) ∨ (← atDocumentMark) then
      return ([], pending, breaks)
    else
      let startsBlank := (← Scan.peek?).any isBlank
      let joint :=
        if pending ∧ !literal ∧ !blank ∧ !startsBlank then
          if breaks = 0 then [' '] else List.replicate breaks '\n'
        else (if pending then ['\n'] else []) ++ List.replicate breaks '\n'
      let text ← Scan.takeWhile (· ≠ '\n')
      if ← Scan.atEnd then return (joint ++ text, true, 0)
      else
        Scan.skip 1
        let breaks ← blockBreaks indent fuel
        let (rest, last) ← blockLines literal indent true startsBlank breaks fuel
        return (joint ++ text ++ rest, last)

/-- A block scalar below a node at column `parent`. -/
def block (parent : Int) (fuel : Nat) : Scan String := do
  let literal := (← Scan.next) = '|'
  let (chomping, given) ← blockHeader
  if !(← Scan.atEnd) then Scan.skip 1
  let c ← position
  let indent :=
    match given with
    | some n => if parent < 0 then n else parent.toNat + n
    | none => max (firstIndent fuel c.rest) (max (parent + 1).toNat 1)
  let breaks ← blockBreaks indent fuel
  let (cs, pending, breaks) ← blockLines literal indent false false breaks fuel
  let last := if chomping ≠ .strip ∧ pending then ['\n'] else []
  let tail := if chomping = .keep then List.replicate breaks '\n' else []
  return String.ofList (cs ++ last ++ tail)

end LookupTap.Settings.Yaml
