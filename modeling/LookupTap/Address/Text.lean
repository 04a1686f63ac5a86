import LookupTap.Address
import LookupTap.Number.Digits

/-! The text form of addresses, written and read.

An `Ip4` is four decimal numbers with dots between them. An `Ip6` is its groups in
hexadecimal with colons between them, letters small and no zero in front; the longest run
of two or more zero groups — the first of the longest — is written `::`. Only an address
behind exactly `::ffff:` ends in a dotted `Ip4`.

Reading is wider: letters of either case, zeros in front of a group up to four digits,
`::` for any run of groups, even one, and a dotted end after any groups. What a dotted
number may not have is a zero in front. -/
namespace LookupTap

/-! ### Writing -/

def decimal (n : Nat) : List Char := Nat.toDigits 10 n

def hexadecimal (n : Nat) : List Char := Nat.toDigits 16 n

/-- The parts, with the separator between neighbours. -/
def joined (separator : Char) : List (List Char) → List Char
  | [] => []
  | [part] => part
  | part :: rest => part ++ separator :: joined separator rest

def Ip4.chars (ip : Ip4) : List Char := joined '.' (ip.toList.map fun n => decimal n.toNat)

namespace Ip6

/-- How many zeros the list starts with. -/
def zeros : List UInt16 → Nat
  | [] => 0
  | g :: gs => if g = 0 then zeros gs + 1 else 0

/-- Where the longest run of zeros starts and how long it is; of equals, the first. The
start counts from `i`, the place of the list's head. -/
def longestRun (i : Nat) : List UInt16 → Nat × Nat
  | [] => (i, 0)
  | g :: gs =>
    let later := longestRun (i + 1) gs
    if later.2 ≤ zeros (g :: gs) then (i, zeros (g :: gs)) else later

def groupChars (gs : List UInt16) : List Char :=
  joined ':' (gs.map fun g => hexadecimal g.toNat)

/-- The text of eight groups, the longest run of zeros left out if it is two or more. -/
def compressed (gs : List UInt16) : List Char :=
  let run := longestRun 0 gs
  if 2 ≤ run.2 then
    groupChars (gs.take run.1) ++ ':' :: ':' :: groupChars (gs.drop (run.1 + run.2))
  else groupChars gs

def chars (ip : Ip6) : List Char :=
  match ip.mapped? with
  | some w => "::ffff:".toList ++ w.chars
  | none => compressed ip.toList

end Ip6

def Address.chars : Address → List Char
  | .v4 ip => ip.chars
  | .v6 ip => ip.chars

def Address.text (a : Address) : String := String.ofList a.chars

/-! ### Reading -/

/-- The pieces between the separators; there is one more than there are separators. -/
def pieces (separator : Char) : List Char → List (List Char)
  | [] => [[]]
  | c :: cs =>
    if c = separator then [] :: pieces separator cs
    else
      match pieces separator cs with
      | [] => [[c]]
      | piece :: rest => (c :: piece) :: rest

/-- A byte in decimal: three digits at most, and no zero in front. -/
def byte? (cs : List Char) : Option UInt8 :=
  match cs with
  | '0' :: _ :: _ => none
  | _ =>
    if cs.length ≤ 3 then
      match Digits.number? 10 cs with
      | some n => if n < 256 then some (UInt8.ofNat n) else none
      | none => none
    else none

def Ip4.read? (cs : List Char) : Option Ip4 :=
  (pieces '.' cs).mapM byte? >>= ofList?

namespace Ip6

/-- A group in hexadecimal: four digits at most. -/
def group? (cs : List Char) : Option UInt16 :=
  if cs.length ≤ 4 then (Digits.number? 16 cs).map UInt16.ofNat else none

/-- The last piece of an address: a group, or a dotted end for two of them. -/
def ending? (cs : List Char) : Option (List UInt16) :=
  match group? cs with
  | some g => some [g]
  | none => (Ip4.read? cs).map fun ip => [group ip.a ip.b, group ip.c ip.d]

/-- Pieces that are groups, the last of them possibly a dotted end. -/
def groups? : List (List Char) → Option (List UInt16)
  | [] => some []
  | [piece] => ending? piece
  | piece :: rest =>
    match group? piece, groups? rest with
    | some g, some gs => some (g :: gs)
    | _, _ => none

/-- The groups of a side of `::`, which may be empty. -/
def side? (dotted : Bool) (cs : List Char) : Option (List UInt16) :=
  match cs with
  | [] => some []
  | _ => if dotted then groups? (pieces ':' cs) else (pieces ':' cs).mapM group?

/-- The text before and after the first `::`. -/
def cut? : List Char → Option (List Char × List Char)
  | ':' :: ':' :: rest => some ([], rest)
  | c :: cs => (cut? cs).map fun (front, back) => (c :: front, back)
  | [] => none

def read? (cs : List Char) : Option Ip6 :=
  match cut? cs with
  | none => groups? (pieces ':' cs) >>= ofList?
  | some (front, back) =>
    match side? false front, side? true back with
    | some gs, some hs =>
      if gs.length + hs.length ≤ 7 then
        ofList? (gs ++ List.replicate (8 - (gs.length + hs.length)) 0 ++ hs)
      else none
    | _, _ => none

end Ip6

def Address.read? (cs : List Char) : Option Address :=
  match Ip4.read? cs with
  | some ip => some (.v4 ip)
  | none => (Ip6.read? cs).map .v6

def Address.ofText? (s : String) : Option Address := Address.read? s.toList

/-- The reason given for a text that is no address. -/
def Address.syntaxReason : String := "invalid IP address syntax"

end LookupTap
