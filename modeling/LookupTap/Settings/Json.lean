import LookupTap.Bytes
import LookupTap.Settings.Value
import LookupTap.Text.Scan

/-! JSON texts.

A whole number of 64 bits with a sign is one; any other number is a binary number, which is
computed from its digits as far as 64 bits hold them and a power of ten, each rounded, and
their product or quotient rounded again. Of entries with one key the last counts. Texts
nest up to a depth. -/
namespace LookupTap.Settings.Json

open Text (Scan)

/-! ### Numbers -/

/-- Digits that fit 64 bits, and how many places the digits that do not would move the
point. -/
structure Mantissa where
  value : Nat := 0
  exponent : Int := 0
  full : Bool := false

/-- The mantissa with one more digit. Once a digit does not fit, none does. -/
def Mantissa.push (m : Mantissa) (fraction : Bool) (c : Char) : Mantissa :=
  let value := m.value * 10 + (c.toNat - 48)
  if m.full ∨ Bytes.span 8 ≤ value then
    { m with full := true, exponent := if fraction then m.exponent else m.exponent + 1 }
  else { m with value, exponent := if fraction then m.exponent - 1 else m.exponent }

/-- The digits before the point fill a mantissa; those after it may still be added unless
it is full of digits after the point. -/
def Mantissa.ofDigits (whole fraction : List Char) : Mantissa :=
  let m : Mantissa := whole.foldl (Mantissa.push · false ·) {}
  fraction.foldl (Mantissa.push · true ·) { m with full := false }

/-- The magnitude of a binary number as a fraction. -/
def fraction : Binary64 → Nat × Nat
  | .finite _ m q => (m * Nat.pow 2 q.toNat, Nat.pow 2 (-q).toNat)
  | _ => (0, 1)

/-- Exponents of ten that binary numbers have. -/
def largestPower : Nat := 308

/-- The number scaled by a power of ten, with the digits and the power rounded first. Too
large a number fails. -/
def scaled? (negative : Bool) (m : Binary64) (exponent : Int) : (fuel : Nat) → Option Binary64
  | 0 => none
  | fuel + 1 =>
    let (num, den) := fraction m
    let power := fraction (.ofFraction false (Nat.pow 10 (min exponent.natAbs largestPower)) 1)
    if 0 ≤ exponent then
      if num = 0 then some (.finite negative 0 Binary64.lowest)
      else if (largestPower : Int) < exponent then none
      else
        match Binary64.ofFraction negative (num * power.1) (den * power.2) with
        | .infinite _ => none
        | x => some x
    else
      let x := Binary64.ofFraction negative (num * power.2) (den * power.1)
      if (largestPower : Int) < -exponent then
        if num = 0 then some (.finite negative 0 Binary64.lowest)
        else scaled? negative x (exponent + largestPower) fuel
      else some x

/-- An exponent as it is written, zero if there is none. -/
def exponent : Scan (Option Int) := do
  if (← Scan.accept ['e']) || (← Scan.accept ['E']) then
    let negative ← Scan.accept ['-']
    if !negative then let _ ← Scan.accept ['+']
    match Digits.number? 10 (← Scan.takeWhile Char.isDigit) with
    | some n => return some (if negative then -(n : Int) else n)
    | none => Scan.fail
  else return none

/-- A number. No digit stands before another behind a zero, and a point needs digits on
both sides. -/
def number : Scan Data := do
  let negative ← Scan.accept ['-']
  let whole ← Scan.takeWhile Char.isDigit
  if whole.isEmpty ∨ (whole.head? = some '0' ∧ 1 < whole.length) then Scan.fail
  else
    let pointed ← Scan.accept ['.']
    let fraction ← if pointed then Scan.takeWhile Char.isDigit else pure []
    if pointed ∧ fraction.isEmpty then Scan.fail
    else
      let written ← exponent
      let signed := (if negative then ['-'] else []) ++ whole
      match pointed || written.isSome, Digits.int64? 10 signed with
      | false, some i =>
        if negative ∧ i = 0 then return .float (.finite true 0 Binary64.lowest)
        else return .int i
      | _, _ =>
        let m := Mantissa.ofDigits whole fraction
        let start := Binary64.ofFraction false m.value 1
        match scaled? negative start (m.exponent + written.getD 0)
            ((m.exponent + written.getD 0).natAbs / largestPower + 2) with
        | some x => return .float x
        | none => Scan.fail

/-! ### Texts -/

def unit : Scan Nat := fun c =>
  match Digits.number? 16 (c.rest.take 4) with
  | some n => if 4 ≤ c.rest.length then (Scan.skip 4 >>= fun () => pure n) c else none
  | none => none

/-- The character behind `\u`, of one unit of sixteen bits or two. -/
def unicode : Scan Char := do
  let high ← unit
  if high < 0xD800 ∨ 0xE000 ≤ high then return Char.ofNat high
  else if 0xDC00 ≤ high then Scan.fail
  else
    Scan.expect ['\\', 'u']
    let low ← unit
    if 0xDC00 ≤ low ∧ low < 0xE000 then
      return Char.ofNat (0x10000 + (high - 0xD800) * 0x400 + (low - 0xDC00))
    else Scan.fail

def escape : Scan Char := do
  match ← Scan.next with
  | '\"' => return '\"'
  | '\\' => return '\\'
  | '/' => return '/'
  | 'b' => return Char.ofNat 8
  | 'f' => return Char.ofNat 12
  | 'n' => return '\n'
  | 'r' => return '\r'
  | 't' => return '\t'
  | 'u' => unicode
  | _ => Scan.fail

/-- The rest of a text, its closing quote included. -/
def textRest : (fuel : Nat) → Scan (List Char)
  | 0 => Scan.fail
  | fuel + 1 => do
    let c ← Scan.next
    if c = '\"' then return []
    else if c.toNat < 0x20 then Scan.fail
    else
      let c ← if c = '\\' then escape else pure c
      return c :: (← textRest fuel)

def text (fuel : Nat) : Scan String := do
  Scan.expect ['\"']
  return String.ofList (← textRest fuel)

/-! ### Values -/

def passSpace : Scan Unit := Scan.skipWhile fun c => c = ' ' || c = '\n' || c = '\r' || c = '\t'

/-- Lists and tables nest no deeper. -/
def depthLimit : Nat := 127

mutual

/-- A value that may be `depth` deep. -/
def value (depth : Nat) : (fuel : Nat) → Scan Data
  | 0 => Scan.fail
  | fuel + 1 => do
    passSpace
    match ← Scan.peek? with
    | some '\"' => return .text (← text fuel)
    | some '[' =>
      Scan.skip 1
      passSpace
      if depth = 0 then Scan.fail
      else if ← Scan.accept [']'] then return .list []
      else return .list (← items (depth - 1) fuel)
    | some '\x7b' =>
      Scan.skip 1
      passSpace
      if depth = 0 then Scan.fail
      else if ← Scan.accept ['\x7d'] then return .table []
      else return .table (← entries (depth - 1) [] fuel)
    | some 't' => Scan.expect "true".toList; return .bool true
    | some 'f' => Scan.expect "false".toList; return .bool false
    | some 'n' => Scan.expect "null".toList; return .nil
    | _ => number
termination_by structural fuel => fuel

/-- One item or more, and the bracket. -/
def items (depth : Nat) : (fuel : Nat) → Scan (List Data)
  | 0 => Scan.fail
  | fuel + 1 => do
    let item ← value depth fuel
    passSpace
    if ← Scan.accept [','] then return item :: (← items depth fuel)
    else
      Scan.expect [']']
      return [item]
termination_by structural fuel => fuel

/-- One entry or more after those that are known, and the bracket. -/
def entries (depth : Nat) (known : List (String × Data)) :
    (fuel : Nat) → Scan (List (String × Data))
  | 0 => Scan.fail
  | fuel + 1 => do
    passSpace
    let key ← text fuel
    passSpace
    Scan.expect [':']
    let d ← value depth fuel
    let known := Keyed.put key d known
    passSpace
    if ← Scan.accept [','] then entries depth known fuel
    else
      Scan.expect ['\x7d']
      return known
termination_by structural fuel => fuel

end

/-- The value of a text. -/
def read? (cs : List Char) : Option Data :=
  Scan.whole (do
    let d ← value depthLimit (2 * cs.length + 2)
    passSpace
    return d) cs

end LookupTap.Settings.Json
