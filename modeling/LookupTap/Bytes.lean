/-! Byte strings, and the numbers written in them.

A byte string is a list, so that taking it apart and putting it together are list
operations. A number of `n` bytes is read in base 256, from the least significant end
(`little`) or the most significant one (`big`); `ByteOrder.write` is its inverse on
numbers that fit. -/
namespace LookupTap

abbrev Bytes := List UInt8

namespace Bytes

/-- The `len` bytes at offset `off`, when the string reaches that far. -/
def slice? (bs : Bytes) (off len : Nat) : Option Bytes :=
  if off + len ≤ bs.length then some ((bs.drop off).take len) else none

/-- The number whose base 256 digits are the bytes, least significant first. -/
def toNat : Bytes → Nat
  | [] => 0
  | b :: bs => b.toNat + 256 * toNat bs

/-- The `width` lowest base 256 digits of `n`, least significant first. -/
def ofNat : (width n : Nat) → Bytes
  | 0, _ => []
  | width + 1, n => UInt8.ofNat n :: ofNat width (n / 256)

/-- How many numbers so many bytes can hold. -/
def span : (width : Nat) → Nat
  | 0 => 1
  | width + 1 => 256 * span width

/-- The needle stands somewhere in the haystack, as a run of consecutive bytes. -/
def contains (needle : Bytes) : Bytes → Bool
  | [] => needle.isEmpty
  | b :: bs => needle.isPrefixOf (b :: bs) || contains needle bs

end Bytes

/-- Which end of a number its first byte holds. -/
inductive ByteOrder where
  | little
  | big
  deriving DecidableEq, Repr

namespace ByteOrder

def read : ByteOrder → Bytes → Nat
  | little, bs => Bytes.toNat bs
  | big, bs => Bytes.toNat bs.reverse

def write : ByteOrder → (width n : Nat) → Bytes
  | little, width, n => Bytes.ofNat width n
  | big, width, n => (Bytes.ofNat width n).reverse

end ByteOrder

/-! ### The readings undo the writings -/

theorem Bytes.length_ofNat (width n : Nat) : (Bytes.ofNat width n).length = width := by
  induction width generalizing n with
  | zero => rfl
  | succ width ih => simp [ofNat, ih]

theorem Bytes.toNat_lt (bs : Bytes) : toNat bs < span bs.length := by
  induction bs with
  | nil => simp [toNat, span]
  | cons b bs ih =>
    have hb : b.toNat < 256 := b.toNat_lt
    simp only [toNat, List.length_cons, span]
    omega

theorem Bytes.toNat_ofNat (width n : Nat) (h : n < span width) :
    toNat (ofNat width n) = n := by
  induction width generalizing n with
  | zero =>
    simp [span] at h
    simp [ofNat, toNat, h]
  | succ width ih =>
    have hq : n / 256 < span width := by
      rw [span] at h
      exact Nat.div_lt_of_lt_mul h
    simp [ofNat, toNat, ih _ hq]
    omega

theorem Bytes.ofNat_toNat (bs : Bytes) : ofNat bs.length (toNat bs) = bs := by
  induction bs with
  | nil => rfl
  | cons b bs ih =>
    have hb : b.toNat < 256 := b.toNat_lt
    have hq : (b.toNat + 256 * toNat bs) / 256 = toNat bs := by omega
    have hr : UInt8.ofNat (b.toNat + 256 * toNat bs) = b := by
      apply UInt8.toNat_inj.1
      simp
    simp [ofNat, toNat, hq, hr, ih]

namespace ByteOrder

end ByteOrder

end LookupTap
