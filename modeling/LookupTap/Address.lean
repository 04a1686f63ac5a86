import LookupTap.Bytes

/-! Internet addresses.

An address is four bytes (`Ip4`) or eight groups of sixteen bits (`Ip6`). The sixteen
bytes of an `Ip6` hold its groups most significant byte first. The groups
`0:0:0:0:0:ffff` in front of four bytes are another spelling of the `Ip4` made of those
bytes; `Ip6.mapped?` finds them. -/
namespace LookupTap

structure Ip4 where
  a : UInt8
  b : UInt8
  c : UInt8
  d : UInt8
  deriving DecidableEq, Repr, Inhabited

structure Ip6 where
  g0 : UInt16
  g1 : UInt16
  g2 : UInt16
  g3 : UInt16
  g4 : UInt16
  g5 : UInt16
  g6 : UInt16
  g7 : UInt16
  deriving DecidableEq, Repr, Inhabited

inductive Address where
  | v4 (ip : Ip4)
  | v6 (ip : Ip6)
  deriving DecidableEq, Repr, Inhabited

namespace Ip4

def toList (ip : Ip4) : List UInt8 := [ip.a, ip.b, ip.c, ip.d]

def ofList? : List UInt8 → Option Ip4
  | [a, b, c, d] => some ⟨a, b, c, d⟩
  | _ => none

theorem ofList?_toList (ip : Ip4) : ofList? ip.toList = some ip := rfl

end Ip4

namespace Ip6

/-- Sixteen bits from their more and their less significant byte. -/
def group (high low : UInt8) : UInt16 := high.toUInt16 * 256 + low.toUInt16

def toList (ip : Ip6) : List UInt16 :=
  [ip.g0, ip.g1, ip.g2, ip.g3, ip.g4, ip.g5, ip.g6, ip.g7]

def ofList? : List UInt16 → Option Ip6
  | [g0, g1, g2, g3, g4, g5, g6, g7] => some ⟨g0, g1, g2, g3, g4, g5, g6, g7⟩
  | _ => none

theorem ofList?_toList (ip : Ip6) : ofList? ip.toList = some ip := rfl

/-- The groups of a byte string, two bytes each. -/
def groups : Bytes → List UInt16
  | high :: low :: rest => group high low :: groups rest
  | _ => []

/-- The address that sixteen bytes hold. -/
def ofBytes? (bs : Bytes) : Option Ip6 := ofList? (groups bs)

/-- The two bytes of a group. -/
def split (g : UInt16) : UInt8 × UInt8 := ((g / 256).toUInt8, g.toUInt8)

def toBytes (ip : Ip6) : Bytes := ip.toList.flatMap fun g => [(split g).1, (split g).2]

/-- The `Ip4` that the address spells, if it is one behind `::ffff:`. -/
def mapped? (ip : Ip6) : Option Ip4 :=
  if ip.g0 = 0 ∧ ip.g1 = 0 ∧ ip.g2 = 0 ∧ ip.g3 = 0 ∧ ip.g4 = 0 ∧ ip.g5 = 0xFFFF then
    some ⟨(split ip.g6).1, (split ip.g6).2, (split ip.g7).1, (split ip.g7).2⟩
  else none

end Ip6

namespace Address

/-- The version number of the address. -/
def version : Address → Nat
  | v4 _ => 4
  | v6 _ => 6

/-- The address with a mapped `Ip4` written as what it is. -/
def unmapped (ip : Ip6) : Address :=
  match ip.mapped? with
  | some w => v4 w
  | none => v6 ip

end Address

end LookupTap
