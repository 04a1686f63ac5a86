import LookupTap.Settings.Value
import LookupTap.Text.Scan

/-! Scalars of a TOML text: strings, numbers, and times.

A string is between quotation marks, with escapes, or between apostrophes, without; three
of either make it span lines. Whole numbers have 64 bits with a sign. Dates and times are
their text in one spelling: `T` between date and time, no zeros at the end of a fraction,
`Z` in capitals. -/
namespace LookupTap.Settings.Toml

open Text (Scan)

def isBlank (c : Char) : Bool := c = ' ' || c = '\t'

def skipBlanks : Scan Unit := Scan.skipWhile isBlank

/-- Takes a line end if one is next; a carriage return belongs to a line feed. -/
def acceptLineEnd : Scan Bool := do
  if ← Scan.accept ['\n'] then return true
  else Scan.accept ['\r', '\n']

/-- Characters of a line: all but controls. -/
def isShown (c : Char) : Bool := c = '\t' || (0x20 ≤ c.toNat && c.toNat ≠ 0x7F)

/-! ### Strings -/

/-- The character of a number of hexadecimal digits. -/
def numbered (digits : Nat) : Scan Char := fun c =>
  let ds := c.rest.take digits
  match Digits.number? 16 ds with
  | some n =>
    if ds.length = digits ∧ n.isValidChar then
      (Scan.skip digits >>= fun () => pure (Char.ofNat n)) c
    else none
  | none => none

/-- What stands behind a backslash. -/
def escape : Scan Char := do
  match ← Scan.next with
  | 'b' => return Char.ofNat 8
  | 't' => return '\t'
  | 'n' => return '\n'
  | 'f' => return Char.ofNat 12
  | 'r' => return '\r'
  | '\"' => return '\"'
  | '\\' => return '\\'
  | 'u' => numbered 4
  | 'U' => numbered 8
  | _ => Scan.fail

/-- The rest of a string of one line, its closing mark included. -/
def stringRest (mark : Char) (escapes : Bool) : (fuel : Nat) → Scan (List Char)
  | 0 => Scan.fail
  | fuel + 1 => do
    let c ← Scan.next
    if c = mark then return []
    else if !isShown c then Scan.fail
    else
      let c ← if c = '\\' ∧ escapes then escape else pure c
      return c :: (← stringRest mark escapes fuel)

/-- Passes blanks and line ends behind a backslash, of which the first line end ends the
line of the backslash. Takes nothing if there is none. -/
def continuation : Scan Bool := do
  let c ← get
  let _ ← Scan.accept ['\\']
  skipBlanks
  if ← acceptLineEnd then
    let rest := (← get).rest
    Scan.skip (rest.length - (blankLines rest).length)
    return true
  else
    set c
    return false
where
  blankLines : List Char → List Char
    | '\r' :: '\n' :: rest => blankLines rest
    | c :: rest => if isBlank c ∨ c = '\n' then blankLines rest else c :: rest
    | [] => []

/-- The rest of a string of many lines. Up to two marks are text, as are as many before the
three that close it. -/
def linesRest (mark : Char) (escapes : Bool) : (fuel : Nat) → Scan (List Char)
  | 0 => Scan.fail
  | fuel + 1 => do
    let marks := ((← get).rest.takeWhile (· = mark)).length
    if 3 ≤ marks then
      Scan.skip (min marks 5)
      return List.replicate (min marks 5 - 3) mark
    else if ← acceptLineEnd then return '\n' :: (← linesRest mark escapes fuel)
    else if (← Scan.looksAt ['\\']) && escapes then
      if ← continuation then linesRest mark escapes fuel
      else
        Scan.skip 1
        let c ← escape
        return c :: (← linesRest mark escapes fuel)
    else
      let c ← Scan.next
      if isShown c then return c :: (← linesRest mark escapes fuel) else Scan.fail

/-- A string of one line. -/
def line (fuel : Nat) : Scan String := do
  if ← Scan.accept ['\"'] then return String.ofList (← stringRest '\"' true fuel)
  else
    Scan.expect ['\'']
    return String.ofList (← stringRest '\'' false fuel)

/-- A string of any kind; a line end right behind three marks is passed over. -/
def string (fuel : Nat) : Scan String := do
  if ← Scan.accept ['\"', '\"', '\"'] then
    let _ ← acceptLineEnd
    return String.ofList (← linesRest '\"' true fuel)
  else if ← Scan.accept ['\'', '\'', '\''] then
    let _ ← acceptLineEnd
    return String.ofList (← linesRest '\'' false fuel)
  else line fuel

/-! ### Numbers -/

/-- Digits with single underscores between them. -/
def digits (p : Char → Bool) : Scan (List Char) := do
  let cs ← Scan.takeWhile fun c => p c || c = '_'
  let groups := (String.ofList cs).splitOn "_"
  if groups.any String.isEmpty then Scan.fail else return ("".intercalate groups).toList

/-- A sign, if there is one. -/
def sign : Scan (List Char) := do
  if ← Scan.accept ['-'] then return ['-']
  else if ← Scan.accept ['+'] then return ['+']
  else return []

/-- A decimal number without a zero before other digits. -/
def whole : Scan (List Char) := do
  let lead ← sign
  let ds ← digits Char.isDigit
  if ds.head? = some '0' ∧ 1 < ds.length then Scan.fail else return lead ++ ds

def fractionPart : Scan (List Char) := do
  Scan.expect ['.']
  return '.' :: (← digits Char.isDigit)

def exponentPart : Scan (List Char) := do
  let lower ← Scan.accept ['e']
  if !lower then Scan.expect ['E']
  let lead ← sign
  return 'e' :: lead ++ (← digits Char.isDigit)

/-- A number with a fraction or an exponent. Above the largest there is none. -/
def decimal : Scan Data := do
  let start ← whole
  let rest ← exponentPart <|> (do
    let fraction ← fractionPart
    let power ← exponentPart <|> pure []
    return fraction ++ power)
  match Binary64.read? (start ++ rest) with
  | some (.infinite false) => Scan.fail
  | some x => return .float x
  | none => Scan.fail

/-- Infinity, or what is no number. -/
def named : Scan Data := do
  let lead ← sign
  if ← Scan.accept "inf".toList then return .float (.infinite (lead = ['-']))
  else
    Scan.expect "nan".toList
    return .float .nan

/-- The number that digits stand for, if it has 64 bits. -/
def bounded (base : Nat) (ds : List Char) : Scan Data :=
  match Digits.int64? base ds with
  | some i => return .int i
  | none => Scan.fail

def based (base : Nat) : Scan Data := do
  bounded base (← digits fun c => (Digits.digit? base c).isSome)

/-- A whole number, in base 16, 8 or 2 behind a mark of two characters. -/
def integer : Scan Data := do
  if ← Scan.accept ['0', 'x'] then based 16
  else if ← Scan.accept ['0', 'o'] then based 8
  else if ← Scan.accept ['0', 'b'] then based 2
  else bounded 10 (← whole)

/-! ### Times -/

/-- A number of exactly so many digits, in a range. -/
def field (width low high : Nat) : Scan Nat := fun c =>
  let ds := c.rest.take width
  match Digits.number? 10 ds with
  | some n =>
    if ds.length = width ∧ low ≤ n ∧ n ≤ high then
      (Scan.skip width >>= fun () => pure n) c
    else none
  | none => none

/-- A number with zeros before it. -/
def padded (width n : Nat) : List Char :=
  let ds := Nat.toDigits 10 n
  List.replicate (width - ds.length) '0' ++ ds

def daysIn (year month : Nat) : Nat :=
  if month = 2 then
    if year % 4 = 0 ∧ (year % 100 ≠ 0 ∨ year % 400 = 0) then 29 else 28
  else if month = 4 ∨ month = 6 ∨ month = 9 ∨ month = 11 then 30
  else 31

def date : Scan (List Char) := do
  let year ← field 4 0 9999
  Scan.expect ['-']
  let month ← field 2 1 12
  Scan.expect ['-']
  let day ← field 2 1 (daysIn year month)
  return padded 4 year ++ '-' :: padded 2 month ++ '-' :: padded 2 day

/-- The digits of a second's fraction: nine count, and zeros at the end do not. -/
def fractionDigits (ds : List Char) : List Char :=
  ((ds.take 9).reverse.dropWhile (· = '0')).reverse

/-- A time of day. A second may be a leap second. -/
def time : Scan (List Char) := do
  let hour ← field 2 0 23
  Scan.expect [':']
  let minute ← field 2 0 59
  Scan.expect [':']
  let second ← field 2 0 60
  let clock := padded 2 hour ++ ':' :: padded 2 minute ++ ':' :: padded 2 second
  if (← Scan.looksAt ['.']) && (← Scan.peekAt? 1).any Char.isDigit then
    Scan.skip 1
    let ds := fractionDigits (← Scan.takeWhile Char.isDigit)
    return if ds.isEmpty then clock else clock ++ '.' :: ds
  else return clock

/-- The distance from the zero meridian's time. None is never behind it. -/
def zone : Scan (List Char) := do
  if (← Scan.accept ['Z']) || (← Scan.accept ['z']) then return ['Z']
  else
    let lead ← sign
    if lead.isEmpty then Scan.fail
    else
      let hours ← field 2 0 23
      Scan.expect [':']
      let minutes ← field 2 0 59
      let lead := if hours = 0 ∧ minutes = 0 then ['+'] else lead
      return lead ++ padded 2 hours ++ ':' :: padded 2 minutes

/-- A date, a time, or both, with a zone behind both or not. -/
def moment : Scan Data := do
  let onDate : Scan (List Char) := do
    let day ← date
    let clock ← (do
      let c ← Scan.next
      if c = 'T' ∨ c = 't' ∨ c = ' ' then
        let clock ← time
        let behind ← zone <|> pure []
        return 'T' :: clock ++ behind
      else Scan.fail) <|> pure []
    return day ++ clock
  let cs ← onDate <|> time
  return .text (String.ofList cs)

/-- A scalar that begins with a sign or a digit. -/
def number : Scan Data := moment <|> decimal <|> named <|> integer

end LookupTap.Settings.Toml
