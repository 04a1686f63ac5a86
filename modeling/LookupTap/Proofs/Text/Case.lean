import LookupTap.Proofs.Text.Utf8
import LookupTap.Text.Case

/-! What small letters are.

A character is small if it is its own small form. All that `lowerChar` gives is small
(`small_of_mem_lowerChar`), so `lower` does nothing to a text that it has been done to
(`lower_lower`); and nothing below `a` is given for another character (`eq_of_mem_lowerChar`). That
the table of capitals leads out of itself is checked run by run (`steps_settled`). -/
namespace LookupTap.Text

/-- A character that is its own small form. -/
def Small (c : Char) : Prop := lowerChar c = [c]

/-! ### The table -/

/-- The run from `low` to `high` has nothing in common with the one from `first` to `last`; both
are equally spaced. -/
def clear (low high spacing first last spacing' : Nat) : Bool :=
  high.blt first || last.blt low ||
    ((low.beq high || spacing.beq 2) && spacing'.beq 2 && ((low + first) % 2).beq 1)

theorem not_in_of_clear {low high spacing first last spacing' n : Nat}
    (h : clear low high spacing first last spacing' = true) (hlow : low ≤ n) (hhigh : n ≤ high)
    (hon : (n - low) % spacing = 0) :
    ¬ (first ≤ n ∧ n ≤ last ∧ (n - first) % spacing' = 0) := by
  rintro ⟨hfirst, hlast, hin⟩
  simp only [clear, Bool.or_eq_true, Bool.and_eq_true, Nat.blt_eq, Nat.beq_eq] at h
  obtain (hbelow | habove) | ⟨⟨hsame | htwo, htwo'⟩, hodd⟩ := h
  · omega
  · omega
  · subst htwo'
    omega
  · subst htwo htwo'
    omega

/-- Where a run leads with a shift. -/
def landing (shift : Int) (n : Nat) : Nat := ((n : Int) + shift).toNat

/-- A run leads to characters that are not below `a`, and that no run starts from. -/
def settled (step : Nat × Nat × Nat × Int) : Bool :=
  let (first, last, spacing, shift) := step
  let low := landing shift first
  let high := landing shift last
  Nat.ble 0x61 low && (high.blt 0xD800 || (Nat.blt 0xDFFF low && high.blt 0x110000)) &&
    clear low high spacing 0x130 0x130 1 &&
    steps.all fun (first', last', spacing', _) => clear low high spacing first' last' spacing'

theorem steps_settled : steps.all settled = true := by decide +kernel

/-- A number that no run starts from stands for a small character, if it is not below `a`. -/
theorem small_ofNat {n : Nat} (hvalid : n.isValidChar) (hlow : 0x61 ≤ n) (hdotted : n ≠ 0x130)
    (hnone : ∀ step ∈ steps,
      ¬ (step.1 ≤ n ∧ n ≤ step.2.1 ∧ (n - step.1) % step.2.2.1 = 0)) :
    Small (Char.ofNat n) := by
  unfold Small lowerChar
  simp only [Utf8.toNat_char hvalid]
  split
  · next hascii =>
    have hall : ∀ n < 0x80, 0x61 ≤ n → [(Char.ofNat n).toLower] = [Char.ofNat n] := by decide
    exact hall n hascii hlow
  · rw [List.find?_eq_none.mpr]
    intro step hstep
    simpa [and_assoc] using hnone step hstep

/-- What a run gives is small, and not below `a`. -/
theorem small_landing {first last spacing : Nat} {shift : Int}
    (hstep : (first, last, spacing, shift) ∈ steps) {n : Nat} (hfirst : first ≤ n)
    (hlast : n ≤ last) (hon : (n - first) % spacing = 0) :
    Small (Char.ofNat (landing shift n)) ∧ 0x61 ≤ (Char.ofNat (landing shift n)).toNat := by
  have hsettled := List.all_eq_true.mp steps_settled _ hstep
  simp only [settled, Bool.and_eq_true, Bool.or_eq_true, Nat.ble_eq, Nat.blt_eq,
    List.all_eq_true] at hsettled
  obtain ⟨⟨⟨hlow, hvalid⟩, hdotted⟩, hruns⟩ := hsettled
  have hfrom : landing shift first ≤ landing shift n := by
    unfold landing
    omega
  have hto : landing shift n ≤ landing shift last := by
    unfold landing
    omega
  have hspaced : (landing shift n - landing shift first) % spacing = 0 := by
    rw [← hon]
    congr 1
    unfold landing at hlow ⊢
    omega
  have hchar : (landing shift n).isValidChar := by
    unfold Nat.isValidChar
    omega
  refine ⟨small_ofNat hchar (Nat.le_trans hlow hfrom) ?_ fun step hmem => ?_, ?_⟩
  · rintro hsame
    exact not_in_of_clear hdotted hfrom hto hspaced (by rw [hsame]; decide)
  · exact not_in_of_clear (hruns step hmem) hfrom hto hspaced
  · rw [Utf8.toNat_char hchar]
    exact Nat.le_trans hlow hfrom

/-! ### Small forms -/

theorem small_of_ascii {c : Char} (h : c.toNat < 0x80) (hlower : c.toLower = c) : Small c := by
  unfold Small lowerChar
  rw [if_pos h, hlower]

theorem toLower_ascii {c : Char} (h : c.toNat < 0x80) :
    c.toLower.toNat < 0x80 ∧ c.toLower.toLower = c.toLower ∧
      (c.toLower = c ∨ 0x61 ≤ c.toLower.toNat) := by
  have hall : ∀ n < 0x80, (Char.ofNat n).toLower.toNat < 0x80 ∧
      (Char.ofNat n).toLower.toLower = (Char.ofNat n).toLower ∧
      ((Char.ofNat n).toLower = Char.ofNat n ∨ 0x61 ≤ (Char.ofNat n).toLower.toNat) := by
    decide
  have hc := hall c.toNat h
  rwa [Char.ofNat_toNat] at hc

theorem toLower_of_not_ascii {c : Char} (h : ¬ c.toNat < 0x80) : c.toLower = c := by
  unfold Char.toLower
  rw [dif_neg]
  rintro ⟨_, hupper⟩
  have hz : c.toNat ≤ 90 := UInt32.le_iff_toNat_le.mp hupper
  omega

/-- A small form is made of the character itself, or of others that are not below `a`; and it is
small. -/
theorem mem_lowerChar {c d : Char} (h : d ∈ lowerChar c) :
    Small d ∧ (d = c ∨ 0x61 ≤ d.toNat) := by
  unfold lowerChar at h
  dsimp only at h
  split at h
  · next hascii =>
    obtain rfl := List.mem_singleton.mp h
    obtain ⟨hnat, hlower, heq⟩ := toLower_ascii hascii
    exact ⟨small_of_ascii hnat hlower, heq⟩
  · next hpast =>
    split at h
    · obtain rfl | rfl := by simpa using h
      · exact ⟨rfl, .inr (by decide)⟩
      · exact ⟨by unfold Small; decide +kernel, .inr (by decide)⟩
    · next hdotted =>
      split at h
      · next first last spacing shift hfind =>
        obtain rfl := List.mem_singleton.mp h
        have hin := List.find?_some hfind
        simp only [Bool.and_eq_true, decide_eq_true_eq, beq_iff_eq] at hin
        obtain ⟨hsmall, hlow⟩ :=
          small_landing (List.mem_of_find?_eq_some hfind) hin.1.1 hin.1.2 hin.2
        exact ⟨hsmall, .inr hlow⟩
      · next hnone =>
        obtain rfl := List.mem_singleton.mp h
        refine ⟨?_, .inl rfl⟩
        unfold Small lowerChar
        rw [if_neg hpast, if_neg hdotted, hnone]

theorem small_of_mem_lowerChar {c d : Char} (h : d ∈ lowerChar c) : Small d := (mem_lowerChar h).1

theorem eq_of_mem_lowerChar {c d : Char} (h : d ∈ lowerChar c) (hlow : d.toNat < 0x61) : d = c :=
  (mem_lowerChar h).2.resolve_right (Nat.not_le.mpr hlow)

/-! ### Small texts -/

theorem toList_lower (s : String) : (lower s).toList = s.toList.flatMap lowerChar :=
  String.toList_ofList

theorem small_of_mem_lower {s : String} {c : Char} (h : c ∈ (lower s).toList) : Small c := by
  rw [toList_lower] at h
  obtain ⟨d, _, hform⟩ := List.mem_flatMap.mp h
  exact small_of_mem_lowerChar hform

/-- What is below `a` in a small text is there in the text itself. -/
theorem mem_of_mem_lower {s : String} {c : Char} (h : c ∈ (lower s).toList)
    (hlow : c.toNat < 0x61) : c ∈ s.toList := by
  rw [toList_lower] at h
  obtain ⟨d, hd, hform⟩ := List.mem_flatMap.mp h
  exact eq_of_mem_lowerChar hform hlow ▸ hd

theorem flatMap_lowerChar {cs : List Char} (h : ∀ c ∈ cs, Small c) : cs.flatMap lowerChar = cs := by
  induction cs with
  | nil => rfl
  | cons c rest ih =>
    rw [List.flatMap_cons, h c List.mem_cons_self, ih fun d hd => h d (List.mem_cons_of_mem c hd)]
    rfl

theorem lower_of_small {s : String} (h : ∀ c ∈ s.toList, Small c) : lower s = s := by
  rw [← String.toList_inj, toList_lower, flatMap_lowerChar h]

theorem lower_lower (s : String) : lower (lower s) = lower s :=
  lower_of_small fun _ => small_of_mem_lower

end LookupTap.Text
