import LookupTap.Number.Digits

/-! Binary numbers of 64 bits, read from decimal text.

A finite one is `m * 2 ^ q` with `m` below `2 ^ 53` and `q` at least `-1074`; `m` is at
least `2 ^ 52` unless `q` is `-1074`. Reading takes the nearest one, of two equally near
the one with even `m`, all in whole numbers. What lies beyond the largest rounds to
infinity. -/
namespace LookupTap

inductive Binary64 where
  | finite (negative : Bool) (m : Nat) (q : Int)
  | infinite (negative : Bool)
  | nan
  deriving DecidableEq, Repr, Inhabited

namespace Binary64

def lowest : Int := -1074

/-- The smallest `m` above the lowest exponent; all are below twice this. -/
def smallest : Nat := 0x10000000000000

/-- The quotient, to the nearest whole number; a half goes to the even neighbour. -/
def roundDiv (num den : Nat) : Nat :=
  let whole := num / den
  let rest := num % den
  if 2 * rest < den then whole
  else if den < 2 * rest then whole + 1
  else whole + whole % 2

/-- The fraction `num / den` in units of `2 ^ q`. -/
def scaled (num den : Nat) (q : Int) : Nat × Nat :=
  (num * Nat.pow 2 (-q).toNat, den * Nat.pow 2 q.toNat)

/-- The nearest binary number to a fraction. -/
def ofFraction (negative : Bool) (num den : Nat) : Binary64 :=
  if num = 0 then finite negative 0 lowest
  else
    let q := max lowest ((Nat.log2 num : Int) - Nat.log2 den - 53)
    let (n, d) := scaled num den q
    let q := if n / d < 2 * smallest then q else q + 1
    let (n, d) := scaled num den q
    let m := roundDiv n d
    let (m, q) := if m = 2 * smallest then (smallest, q + 1) else (m, q)
    if 971 < q then infinite negative else finite negative m q

/-- The nearest binary number to `digits * 10 ^ exponent`, where `digits` has `count`
digits. Numbers far outside the range are settled by their size alone. -/
def ofDecimal (negative : Bool) (digits count : Nat) (exponent : Int) : Binary64 :=
  if digits = 0 then finite negative 0 lowest
  else if 400 < exponent + count then infinite negative
  else if exponent + count < -400 then finite negative 0 lowest
  else ofFraction negative (digits * Nat.pow 10 exponent.toNat) (Nat.pow 10 (-exponent).toNat)

/-! ### Reading -/

/-- The digits at the start of a text, and what follows them. -/
def leadingDigits (cs : List Char) : List Char × List Char := cs.span Char.isDigit

/-- An exponent: nothing, or a letter, an optional sign and digits. -/
def exponent? : List Char → Option Int
  | [] => some 0
  | c :: cs =>
    if c = 'e' ∨ c = 'E' then
      match cs with
      | '-' :: ds => (Digits.number? 10 ds).map fun n => -(n : Int)
      | '+' :: ds => (Digits.number? 10 ds).map fun n => (n : Int)
      | ds => (Digits.number? 10 ds).map fun n => (n : Int)
    else none

/-- Digits, of which a point may stand anywhere among them, and an exponent. -/
def magnitude? (negative : Bool) (cs : List Char) : Option Binary64 :=
  let (whole, rest) := leadingDigits cs
  let (fraction, rest) :=
    match rest with
    | '.' :: after => leadingDigits after
    | _ => ([], rest)
  match Digits.number? 10 (whole ++ fraction), exponent? rest with
  | some digits, some e =>
    let significant := (whole ++ fraction).dropWhile (· = '0')
    some (ofDecimal negative digits significant.length (e - fraction.length))
  | _, _ => none

/-- The names of what is not finite, in any case of letters. -/
def named? (negative : Bool) (cs : List Char) : Option Binary64 :=
  match String.ofList (cs.map Char.toLower) with
  | "inf" => some (infinite negative)
  | "infinity" => some (infinite negative)
  | "nan" => some nan
  | _ => none

def unsigned? (negative : Bool) (cs : List Char) : Option Binary64 :=
  match named? negative cs with
  | some x => some x
  | none => magnitude? negative cs

/-- A number with an optional sign. -/
def read? (cs : List Char) : Option Binary64 :=
  match cs with
  | '-' :: rest => unsigned? true rest
  | '+' :: rest => unsigned? false rest
  | _ => unsigned? false cs

end Binary64

end LookupTap
