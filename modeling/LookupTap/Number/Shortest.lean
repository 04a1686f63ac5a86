import LookupTap.Number.Binary64

/-! The shortest decimal that reads back.

Around `m * 2 ^ q` lies the interval of the reals that read as it: half way to each
neighbour, the ends included when `m` is even. For no digit (the power of ten above), one
digit, two, up to seventeen, the two points of that decimal grid next to the number are
tried; the first grid with a point in the interval wins, and of two such points the nearer,
of two equally near the greater.

`text` writes it without an exponent, with as many zeros as that takes, and without a
point when the number is whole. -/
namespace LookupTap.Binary64

/-- The interval that reads as `m * 2 ^ q`, in units of `2 ^ (q - 2)`: its low end, the
number, and its high end. -/
def readingInterval (m : Nat) (q : Int) : Nat × Nat × Nat :=
  let below := if m = smallest ∧ lowest < q then 1 else 2
  (4 * m - below, 4 * m, 4 * m + 2)

/-- How many digits stand before the point of `num / den`; for numbers below a tenth,
less one for each zero after the point. -/
def digitsBefore (num den : Nat) : Int :=
  if den ≤ num then (Nat.toDigits 10 (num / den)).length
  else
    let rec zeros (fuel num : Nat) : Int :=
      match fuel with
      | 0 => 0
      | fuel + 1 => if den ≤ num * 10 then 0 else zeros fuel (num * 10) - 1
    zeros 400 num

/-- The point of the grid `10 ^ k` in the interval `low` to `high` over `den` that is next
to `value`; half way between two it is the upper one. -/
def gridPoint? (low value high den : Nat) (closed : Bool) (k : Int) : Option Nat :=
  let unit := Nat.pow 10 k.toNat * den
  let scale := Nat.pow 10 (-k).toNat
  let inside (d : Nat) : Bool :=
    if closed then low * scale ≤ d * unit && d * unit ≤ high * scale
    else low * scale < d * unit && d * unit < high * scale
  let d := value * scale / unit
  let rest := value * scale % unit
  if inside d && (2 * rest < unit || !inside (d + 1)) then some d
  else if inside (d + 1) then some (d + 1)
  else none

/-- Digits and exponent of the shortest decimal, trying `n` digits and up. -/
def shortestFrom (low value high den : Nat) (closed : Bool) (before : Int) :
    (fuel n : Nat) → Nat × Int
  | 0, n => 
    (value * Nat.pow 10 ((n : Int) - before).toNat / (den * Nat.pow 10 (before - n).toNat),
      before - n)
  | fuel + 1, n =>
    match gridPoint? low value high den closed (before - n) with
    | some d => (d, before - n)
    | none => shortestFrom low value high den closed before fuel (n + 1)

/-- The shortest decimal that reads as `m * 2 ^ q`: digits and exponent of ten. -/
def shortest (m : Nat) (q : Int) : Nat × Int :=
  let (low, value, high) := readingInterval m q
  let up := Nat.pow 2 (q - 2).toNat
  let den := Nat.pow 2 (2 - q).toNat
  shortestFrom (low * up) (value * up) (high * up) den (m % 2 == 0)
    (digitsBefore (value * up) den) 18 0

/-- Digits and an exponent of ten, written out. -/
def positional (digits : Nat) (exponent : Int) : List Char :=
  let ds := Nat.toDigits 10 digits
  if 0 ≤ exponent then ds ++ List.replicate exponent.toNat '0'
  else
    let places := (-exponent).toNat
    let ds := List.replicate (places + 1 - ds.length) '0' ++ ds
    ds.take (ds.length - places) ++ '.' :: ds.drop (ds.length - places)

def chars : Binary64 → List Char
  | nan => "NaN".toList
  | infinite negative => (if negative then "-inf" else "inf").toList
  | finite negative m q =>
    let body := if m = 0 then ['0'] else positional (shortest m q).1 (shortest m q).2
    if negative then '-' :: body else body

def text (x : Binary64) : String := String.ofList x.chars

end LookupTap.Binary64
