/-! Whole numbers as digits.

`number?` reads a non-empty run of digits in any base up to sixteen, in either letter
case; `integer?` puts an optional sign before it and bounds the result, which is how a
number of a fixed width is read. `Nat.toDigits` writes. -/
namespace LookupTap.Digits

/-- The value of a digit, when it is one in this base. -/
def digit? (base : Nat) (c : Char) : Option Nat :=
  let n := c.toNat
  let value :=
    if 48 ≤ n ∧ n ≤ 57 then n - 48
    else if 97 ≤ n ∧ n ≤ 102 then n - 87
    else if 65 ≤ n ∧ n ≤ 70 then n - 55
    else base
  if value < base then some value else none

/-- Appends the digits to the number `n`. -/
def extend? (base n : Nat) : List Char → Option Nat
  | [] => some n
  | c :: cs =>
    match digit? base c with
    | none => none
    | some d => extend? base (n * base + d) cs

/-- A number is one digit or more and nothing else. -/
def number? (base : Nat) : List Char → Option Nat
  | [] => none
  | c :: cs => extend? base 0 (c :: cs)

/-- A number with an optional sign, from `low` to `high`. -/
def integer? (base : Nat) (low high : Int) (cs : List Char) : Option Int :=
  let signed :=
    match cs with
    | '-' :: ds => (number? base ds).map fun n => -(n : Int)
    | '+' :: ds => (number? base ds).map fun n => (n : Int)
    | ds => (number? base ds).map fun n => (n : Int)
  match signed with
  | some i => if low ≤ i ∧ i ≤ high then some i else none
  | none => none

/-- The integers of 64 bits with a sign. -/
def int64? (base : Nat) (cs : List Char) : Option Int :=
  integer? base (-0x8000000000000000) 0x7FFFFFFFFFFFFFFF cs

/-- The integers of 32 bits without a sign; a plus may stand before them, a minus not. -/
def word32? (cs : List Char) : Option Nat :=
  match cs with
  | '-' :: _ => none
  | _ => (integer? 10 0 0xFFFFFFFF cs).map Int.toNat

end LookupTap.Digits
