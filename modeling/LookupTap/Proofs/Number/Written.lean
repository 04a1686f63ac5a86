import LookupTap.Proofs.Number.Numeral
import LookupTap.Proofs.Number.Shortest

/-! How numbers are written.

A number is written with no plus sign, no exponent, no zero before another digit and none at the end
of a fraction (`Tight`). A numeral that has one of these (`Loose`) is therefore not the text of any
number. -/
namespace LookupTap

/-! ### What is read -/

namespace Binary64

/-- The significand and the exponent are in range. -/
def Bounded : Binary64 → Prop
  | finite _ m q => m ≤ 2 * smallest ∧ lowest ≤ q
  | infinite _ => True
  | nan => True

theorem roundDiv_le (num den : Nat) : roundDiv num den ≤ num / den + 1 := by
  unfold roundDiv
  dsimp only
  split
  · omega
  · split <;> omega

theorem scaled_pos (num : Nat) {den : Nat} (hden : 0 < den) (q : Int) :
    0 < (scaled num den q).2 :=
  Nat.mul_pos hden (Nat.pow_pos (by decide))

/-- In the unit that is tried first the fraction has at most one binary digit too many. -/
theorem scaled_lt {num den : Nat} (hden : 0 < den) {q : Int}
    (hq : (Nat.log2 num : Int) - Nat.log2 den - 53 ≤ q) :
    (scaled num den q).1 / (scaled num den q).2 < 4 * smallest := by
  rw [Nat.div_lt_iff_lt_mul (scaled_pos num hden q)]
  calc num * 2 ^ (-q).toNat
      < 2 ^ (num.log2 + 1) * 2 ^ (-q).toNat :=
        Nat.mul_lt_mul_of_pos_right Nat.lt_log2_self (Nat.pow_pos (by decide))
    _ = 2 ^ (num.log2 + 1 + (-q).toNat) := (Nat.pow_add ..).symm
    _ ≤ 2 ^ (54 + (den.log2 + q.toNat)) := Nat.pow_le_pow_right (by decide) (by omega)
    _ = 2 ^ 54 * (2 ^ den.log2 * 2 ^ q.toNat) := by rw [Nat.pow_add, Nat.pow_add]
    _ ≤ 4 * smallest * (den * 2 ^ q.toNat) :=
        Nat.mul_le_mul (by decide) (Nat.mul_le_mul_right _ (Nat.log2_self_le (by omega)))

theorem scaled_succ {num den : Nat} (hden : 0 < den) {q : Int}
    (h : (scaled num den q).1 / (scaled num den q).2 < 4 * smallest) :
    (scaled num den (q + 1)).1 / (scaled num den (q + 1)).2 < 2 * smallest := by
  rw [Nat.div_lt_iff_lt_mul (scaled_pos num hden _)] at h ⊢
  unfold scaled at h ⊢
  dsimp only [Nat.pow_eq] at h ⊢
  by_cases hq : 0 ≤ q
  · have hunit : (q + 1).toNat = q.toNat + 1 := by omega
    have hscale : (-(q + 1)).toNat = 0 := by omega
    have hscale' : (-q).toNat = 0 := by omega
    rw [hscale'] at h
    rw [hunit, hscale, Nat.pow_succ]
    nlinarith
  · have hunit : (q + 1).toNat = 0 := by omega
    have hunit' : q.toNat = 0 := by omega
    have hscale : (-q).toNat = (-(q + 1)).toNat + 1 := by omega
    rw [hscale, hunit', Nat.pow_succ] at h
    rw [hunit]
    nlinarith

theorem bounded_ofFraction (negative : Bool) (num : Nat) {den : Nat} (hden : 0 < den) :
    (ofFraction negative num den).Bounded := by
  unfold ofFraction
  split
  · exact ⟨Nat.zero_le _, le_refl _⟩
  · next hnum =>
    obtain ⟨q, hfirst, hlow, hq⟩ :
        ∃ q, max lowest ((Nat.log2 num : Int) - Nat.log2 den - 53) = q ∧ lowest ≤ q ∧
          (Nat.log2 num : Int) - Nat.log2 den - 53 ≤ q := ⟨_, rfl, le_max_left _ _, le_max_right _ _⟩
    simp only [hfirst]
    obtain ⟨q', hunit, hlow', hfits⟩ :
        ∃ q', (if (scaled num den q).1 / (scaled num den q).2 < 2 * smallest then q else q + 1) = q' ∧
          lowest ≤ q' ∧ (scaled num den q').1 / (scaled num den q').2 < 2 * smallest := by
      refine ⟨_, rfl, ?_⟩
      split
      · next hfits => exact ⟨hlow, hfits⟩
      · exact ⟨by omega, scaled_succ hden (scaled_lt hden hq)⟩
    simp only [hunit]
    have hround := roundDiv_le (scaled num den q').1 (scaled num den q').2
    split <;> dsimp only <;> split
    · trivial
    · exact ⟨by omega, by omega⟩
    · trivial
    · exact ⟨by omega, hlow'⟩

theorem bounded_ofDecimal (negative : Bool) (digits count : Nat) (exponent : Int) :
    (ofDecimal negative digits count exponent).Bounded := by
  unfold ofDecimal
  split
  · exact ⟨Nat.zero_le _, le_refl _⟩
  · split
    · trivial
    · split
      · exact ⟨Nat.zero_le _, le_refl _⟩
      · exact bounded_ofFraction _ _ (Nat.pow_pos (by decide))

theorem bounded_of_read? {cs : List Char} {x : Binary64} (h : read? cs = some x) : x.Bounded := by
  have hunsigned {negative : Bool} {cs : List Char} (h : unsigned? negative cs = some x) :
      x.Bounded := by
    unfold unsigned? at h
    split at h
    · next y hnamed =>
      cases h
      unfold named? at hnamed
      split at hnamed <;> cases hnamed <;> trivial
    · unfold magnitude? at h
      simp only at h
      split at h
      · cases h
        exact bounded_ofDecimal ..
      · cases h
  unfold read? at h
  split at h <;> exact hunsigned h

end Binary64

/-! ### Tight and loose texts -/

namespace Numeral
open Digits

/-- A zero stands alone or not in front. -/
def NoZeroInFront (digits : List Char) : Prop := ∀ rest, digits = '0' :: rest → rest = []

/-- What is written of a number behind its sign. -/
inductive Tight : List Char → Prop
  | whole {digits : List Char} : Run digits → NoZeroInFront digits → Tight digits
  | pointed {whole fraction : List Char} :
    Run whole → NoZeroInFront whole → Run fraction → fraction.getLast? ≠ some '0' →
      Tight (whole ++ '.' :: fraction)

/-- Spellings of numbers that are not the ones they are written in. -/
inductive Loose : List Char → Prop
  | plus {cs : List Char} : '+' ∈ cs → Loose cs
  | exponent {cs : List Char} : 'e' ∈ cs ∨ 'E' ∈ cs → Loose cs
  | zeroInFront {sign rest : List Char} {c : Char} :
    Sign sign → c.isDigit → Loose (sign ++ '0' :: c :: rest)
  | zeroAtEnd {before after : List Char} :
    after = [] ∨ after.getLast? = some '0' → Loose (before ++ '.' :: after)

theorem Tight.mem {cs : List Char} (h : Tight cs) {c : Char} (hc : c ∈ cs) :
    c.isDigit ∨ c = '.' := by
  cases h with
  | whole hdigits _ => exact .inl (hdigits.digits c hc)
  | pointed hwhole _ hfraction _ =>
    rcases List.mem_append.mp hc with hin | hin
    · exact .inl (hwhole.digits c hin)
    · rcases List.mem_cons.mp hin with rfl | hin
      · exact .inr rfl
      · exact .inl (hfraction.digits c hin)

theorem Tight.no_zero_in_front {c : Char} {rest : List Char} (h : Tight ('0' :: c :: rest)) :
    c.isDigit = false := by
  generalize hcs : '0' :: c :: rest = cs at h
  cases h with
  | whole _ hfront => cases hfront _ hcs.symm
  | @pointed whole fraction hwhole hfront _ _ =>
    cases whole with
    | nil => exact absurd rfl hwhole.ne_nil
    | cons d ds =>
      obtain ⟨rfl, hrest⟩ := List.cons.inj hcs
      obtain rfl := hfront ds rfl
      cases hrest
      rfl

theorem Tight.zero_at_end {before after : List Char} (h : Tight (before ++ '.' :: after)) :
    after ≠ [] ∧ after.getLast? ≠ some '0' := by
  generalize hcs : before ++ '.' :: after = cs at h
  have hpoint {digits : List Char} (hdigits : Run digits) : '.' ∉ digits := fun hin =>
    absurd (hdigits.digits _ hin) (by decide)
  cases h with
  | whole hdigits _ =>
    rw [← hcs] at hdigits
    exact absurd (by simp) (hpoint hdigits)
  | pointed hwhole _ hfraction hlast =>
    obtain ⟨rfl, _, rfl⟩ :=
      (List.append_cons_inj_of_notMem (hpoint hwhole) (hpoint hfraction)).mp hcs.symm
    exact ⟨hfraction.ne_nil, hlast⟩

theorem Tight.not_loose {cs : List Char} (h : Tight cs) : ¬ Loose cs := by
  intro hloose
  cases hloose with
  | plus hplus => exact absurd (h.mem hplus) (by decide)
  | exponent hletter =>
    rcases hletter with hin | hin <;> exact absurd (h.mem hin) (by decide)
  | zeroInFront hsign hdigit =>
    cases hsign with
    | absent => exact absurd (h.no_zero_in_front.symm.trans hdigit) (by decide)
    | minus => exact absurd (h.mem List.mem_cons_self) (by decide)
    | plus => exact absurd (h.mem List.mem_cons_self) (by decide)
  | zeroAtEnd hend => exact hend.elim h.zero_at_end.1 h.zero_at_end.2

/-- What is written of a number is not spelled otherwise, whatever its sign. -/
theorem Tight.not_loose_minus {cs : List Char} (h : Tight cs) : ¬ Loose ('-' :: cs) := by
  intro hloose
  refine h.not_loose ?_
  generalize hall : '-' :: cs = all at hloose
  cases hloose with
  | plus hplus =>
    subst hall
    exact .plus (List.mem_of_ne_of_mem (by decide) hplus)
  | exponent hletter =>
    subst hall
    exact .exponent (hletter.imp (List.mem_of_ne_of_mem (by decide))
      (List.mem_of_ne_of_mem (by decide)))
  | zeroInFront hsign hdigit =>
    cases hsign with
    | absent => cases hall
    | minus =>
      cases hall
      exact .zeroInFront .absent hdigit
    | plus => cases hall
  | @zeroAtEnd before after hend =>
    cases before with
    | nil => cases hall
    | cons c before =>
      cases hall
      exact .zeroAtEnd hend

/-- Only zero is written with a zero in front. -/
theorem eq_zero_of_toDigits {n : Nat} {rest : List Char} (h : Nat.toDigits 10 n = '0' :: rest) :
    n = 0 := by
  have hhead : (Nat.toDigits 10 n).head? = some '0' := by
    rw [h]
    rfl
  exact eq_zero_of_head?_toDigits (by decide) (by decide) hhead

theorem tight_toDigits (n : Nat) : Tight (Nat.toDigits 10 n) := by
  refine .whole (Run.toDigits n) fun rest hzero => ?_
  obtain rfl := eq_zero_of_toDigits hzero
  cases hzero
  rfl

theorem not_loose_toString (i : Int) : ¬ Loose (toString i).toList := by
  have htight := tight_toDigits i.natAbs
  rw [toList_toString]
  split
  · exact htight.not_loose_minus
  · exact htight.not_loose

end Numeral

namespace Binary64
open Digits Numeral

theorem getLast?_toDigits {d : Nat} (h : d % 10 ≠ 0) : (Nat.toDigits 10 d).getLast? ≠ some '0' := by
  have hchar : ∀ n < 10, n ≠ 0 → Nat.digitChar n ≠ '0' := by decide
  by_cases hsmall : d < 10
  · rw [Nat.toDigits_of_lt_base hsmall, List.getLast?_singleton]
    exact fun heq => hchar d hsmall (by omega) (Option.some.inj heq)
  · rw [Nat.toDigits_of_base_le (by decide) (by omega), List.getLast?_append]
    exact fun heq => hchar (d % 10) (by omega) h (Option.some.inj heq)

/-- Digits of which the last is no zero make a tight text, wherever the point is. -/
theorem tight_positional {d : Nat} (h : d % 10 ≠ 0) (k : Int) : Tight (positional d k) := by
  have hrun := Run.toDigits d
  have hlast := getLast?_toDigits h
  have hfront (rest : List Char) : Nat.toDigits 10 d ≠ '0' :: rest := fun hzero =>
    h (by rw [eq_zero_of_toDigits hzero])
  unfold positional
  generalize Nat.toDigits 10 d = ds at hrun hlast hfront ⊢
  have hzeros {n : Nat} {c : Char} (hc : c ∈ List.replicate n '0') : c.isDigit := by
    rw [List.eq_of_mem_replicate hc]
    rfl
  dsimp only
  split
  · refine .whole ⟨?_, ?_⟩ fun rest hzero => ?_
    · exact List.append_ne_nil_of_left_ne_nil hrun.ne_nil _
    · exact fun c hc => (List.mem_append.mp hc).elim (hrun.digits c) hzeros
    · cases ds with
      | nil => exact absurd rfl hrun.ne_nil
      | cons c ds =>
        cases hzero
        exact absurd rfl (hfront ds)
  · have hplaces : 0 < (-k).toNat := by omega
    generalize (-k).toNat = places at hplaces ⊢
    have hlength : places < (List.replicate (places + 1 - ds.length) '0' ++ ds).length := by
      rw [List.length_append, List.length_replicate]
      omega
    have hdigits : ∀ c ∈ List.replicate (places + 1 - ds.length) '0' ++ ds, c.isDigit :=
      fun c hc => (List.mem_append.mp hc).elim hzeros (hrun.digits c)
    -- zeros are put in front up to one digit before the point, and only then
    have hpadded (rest : List Char) : List.replicate (places + 1 - ds.length) '0' ++ ds = '0' :: rest →
        rest.length = places := by
      intro hzero
      by_cases hlong : places < ds.length
      · rw [Nat.sub_eq_zero_of_le hlong] at hzero
        exact absurd hzero (hfront rest)
      · have hcount := congrArg List.length hzero
        rw [List.length_append, List.length_replicate, List.length_cons] at hcount
        omega
    have hend : (List.replicate (places + 1 - ds.length) '0' ++ ds).getLast? ≠ some '0' := by
      rwa [List.getLast?_append_of_ne_nil _ hrun.ne_nil]
    generalize List.replicate (places + 1 - ds.length) '0' ++ ds = padded
      at hlength hdigits hpadded hend ⊢
    have hbefore : (padded.take (padded.length - places)).length = padded.length - places :=
      List.length_take_of_le (Nat.sub_le _ _)
    have hbehind : (padded.drop (padded.length - places)).length = places := by
      rw [List.length_drop]
      omega
    refine .pointed ⟨?_, ?_⟩ (fun rest hzero => ?_) ⟨?_, ?_⟩ ?_
    · exact List.ne_nil_of_length_pos (by omega)
    · exact fun c hc => hdigits c (List.mem_of_mem_take hc)
    · have hsplit := List.take_append_drop (padded.length - places) padded
      rw [hzero, List.cons_append] at hsplit
      have hrest := hpadded _ hsplit.symm
      rw [List.length_append, hbehind] at hrest
      exact List.eq_nil_of_length_eq_zero (by omega)
    · exact List.ne_nil_of_length_pos (by omega)
    · exact fun c hc => hdigits c (List.mem_of_mem_drop hc)
    · rwa [List.getLast?_drop, if_neg (by omega)]

/-- No number in range is written in a loose spelling. -/
theorem not_loose_chars {x : Binary64} (h : x.Bounded) : ¬ Loose x.chars := by
  have hname {cs : List Char} (h : ∀ c ∈ cs, ¬ (c.isDigit ∨ c = '+' ∨ c = 'e' ∨ c = 'E' ∨ c = '.')) :
      ¬ Loose cs := by
    intro hloose
    cases hloose with
    | plus hplus => exact h _ hplus (by decide)
    | exponent hletter => rcases hletter with hin | hin <;> exact h _ hin (by decide)
    | zeroInFront => exact h '0' (by simp) (by decide)
    | zeroAtEnd => exact h '.' (by simp) (by decide)
  have hsigned {cs : List Char} (htight : Tight cs) (negative : Bool) :
      ¬ Loose (if negative then '-' :: cs else cs) := by
    cases negative with
    | true => exact htight.not_loose_minus
    | false => exact htight.not_loose
  cases x with
  | nan => exact hname (by simp [chars])
  | infinite negative => cases negative <;> exact hname (by simp [chars])
  | finite negative m q =>
    refine hsigned ?_ negative
    split
    · exact tight_toDigits 0
    · next hm => exact tight_positional (shortest_mod_ten (by omega) h.1 h.2) _

end Binary64

end LookupTap
