import LookupTap.Address
import LookupTap.Text.Utf8

/-! The lookup record, as the probes write it.

    0        4                    20                                  272
    | family | address (16 bytes) | host name (252 bytes, NUL padded) |

The family is a number, least significant byte first. Family 2 uses the first four bytes
of the address; every other family uses all sixteen. The host name ends at its first NUL,
or with the field. Bytes after the record belong to nobody.

`decode` succeeds on 272 bytes or more, and `encode` writes those bytes back. -/
namespace LookupTap

def familySize : Nat := 4
def addressSize : Nat := 16
def nameSize : Nat := 252
def recordSize : Nat := familySize + addressSize + nameSize

/-- The family whose addresses are four bytes. -/
def inet : UInt32 := 2

structure Record where
  family : UInt32
  address : Bytes
  name : Bytes
  length_address : address.length = addressSize := by decide
  length_name : name.length = nameSize := by decide
  deriving DecidableEq

/-- A buffer too short for a record. -/
structure Truncated where
  expected : Nat
  actual : Nat
  deriving DecidableEq, Repr

def Truncated.message (t : Truncated) : String :=
  s!"Truncated lookup event: expected {t.expected} bytes, got {t.actual}"

/-- Who was asked for, and where they are. -/
structure Resolution where
  address : Address
  host : String
  deriving DecidableEq, Repr, Inhabited

namespace Record

def decode (bs : Bytes) : Except Truncated Record :=
  if h : bs.length < recordSize then .error ⟨recordSize, bs.length⟩
  else .ok {
    family := UInt32.ofNat (Bytes.toNat (bs.take 4))
    address := (bs.drop 4).take addressSize
    name := (bs.drop 20).take nameSize
    length_address := by
      simp [addressSize, recordSize, familySize, nameSize] at h ⊢; omega
    length_name := by
      simp [addressSize, recordSize, familySize, nameSize] at h ⊢; omega }

def encode (r : Record) : Bytes := Bytes.ofNat 4 r.family.toNat ++ r.address ++ r.name

/-- The host name: the bytes before the first NUL, read with replacements. -/
def host (r : Record) : String :=
  String.ofList (Utf8.lossy (r.name.takeWhile (· ≠ 0)))

/-- The address that the family says is there. -/
def source (r : Record) : Address :=
  if r.family = inet then
    match Ip4.ofList? (r.address.take 4) with
    | some ip => .v4 ip
    | none => default
  else
    match Ip6.ofBytes? r.address with
    | some ip => .unmapped ip
    | none => default

def resolution (r : Record) : Resolution := ⟨r.source, r.host⟩

/-! ### What is decoded is what was written -/

theorem encode_decode {bs : Bytes} {r : Record} (h : decode bs = .ok r) :
    r.encode = bs.take recordSize := by
  unfold decode at h
  split at h
  · exact absurd h (by simp)
  · next hlen =>
    cases h
    have h4 : (bs.take 4).length = 4 := by
      simp [recordSize, familySize, addressSize, nameSize] at hlen ⊢; omega
    have hb : Bytes.toNat (bs.take 4) < 2 ^ 32 := by
      have := Bytes.toNat_lt (bs.take 4)
      rw [h4] at this
      exact this
    have hf : Bytes.ofNat 4 (UInt32.ofNat (Bytes.toNat (bs.take 4))).toNat = bs.take 4 := by
      rw [UInt32.toNat_ofNat_of_lt' hb]
      have := Bytes.ofNat_toNat (bs.take 4)
      rwa [h4] at this
    have split : ∀ m n, bs.take m ++ (bs.drop m).take n = bs.take (m + n) := fun m n => by
      rw [List.take_add]
    simp only [encode, hf]
    rw [split 4 addressSize, show 4 + addressSize = 20 from rfl, split 20 nameSize]
    rfl

end Record

end LookupTap
