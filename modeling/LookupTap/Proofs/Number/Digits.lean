import LookupTap.Number.Digits
import Mathlib.Data.List.Basic
import Mathlib.Tactic.IntervalCases

/-! Reading back the digits of a number.

`Nat.toDigits` writes a number in any base up to sixteen, and `number?` reads it back
(`number?_toDigits`). What is written has no zero in front (`eq_zero_of_head?_toDigits`), and
what can be read is made of digits and nothing else (`not_mem_of_number?`). -/
namespace LookupTap.Digits

variable {base : Nat}

theorem digit?_digitChar {d : Nat} (hbase : base ≤ 16) (hd : d < base) :
    digit? base d.digitChar = some d := by
  have hd16 : d < 16 := by omega
  interval_cases d <;> simp [digit?, Nat.digitChar] <;> omega

theorem extend?_append (n : Nat) (cs ds : List Char) :
    extend? base n (cs ++ ds) = (extend? base n cs).bind fun m => extend? base m ds := by
  induction cs generalizing n with
  | nil => rfl
  | cons c cs ih =>
    simp only [List.cons_append, extend?]
    cases digit? base c with
    | none => rfl
    | some d => exact ih _

theorem extend?_toDigits (hone : 1 < base) (hbase : base ≤ 16) (n : Nat) :
    extend? base 0 (base.toDigits n) = some n := by
  induction n using Nat.strongRecOn with
  | ind n ih =>
    by_cases hn : n < base
    · rw [Nat.toDigits_of_lt_base hn]
      simp [extend?, digit?_digitChar hbase hn]
    · have hless : n / base < n := Nat.div_lt_self (by omega) hone
      have hdigit : n % base < base := Nat.mod_lt n (by omega)
      rw [Nat.toDigits_of_base_le hone (by omega), extend?_append, ih _ hless]
      simp [extend?, digit?_digitChar hbase hdigit, Nat.div_add_mod']

/-- What was written is read back. -/
theorem number?_toDigits (hone : 1 < base) (hbase : base ≤ 16) (n : Nat) :
    number? base (base.toDigits n) = some n := by
  have hread := extend?_toDigits hone hbase n
  cases hdigits : base.toDigits n with
  | nil => exact absurd hdigits Nat.toDigits_ne_nil
  | cons c cs =>
    rw [hdigits] at hread
    exact hread

/-- Only zero is written with a zero in front. -/
theorem eq_zero_of_head?_toDigits (hone : 1 < base) (hbase : base ≤ 16) {n : Nat}
    (hzero : (base.toDigits n).head? = some '0') : n = 0 := by
  induction n using Nat.strongRecOn with
  | ind n ih =>
    by_cases hn : n < base
    · rw [Nat.toDigits_of_lt_base hn, List.head?_cons, Option.some.injEq] at hzero
      have hdigit := digit?_digitChar hbase hn
      have hzeroth := digit?_digitChar (d := 0) hbase (by omega)
      rw [hzero] at hdigit
      exact Option.some.inj (hdigit.symm.trans hzeroth)
    · have hless : n / base < n := Nat.div_lt_self (by omega) hone
      rw [Nat.toDigits_of_base_le hone (by omega), List.head?_append_of_ne_nil _ Nat.toDigits_ne_nil]
        at hzero
      have hquotient : n / base = 0 := ih _ hless hzero
      have := Nat.lt_of_div_eq_zero (by omega) hquotient
      exact absurd this hn

theorem not_mem_of_extend? {c : Char} (hc : digit? base c = none) {cs : List Char} {n m : Nat}
    (hread : extend? base n cs = some m) : c ∉ cs := by
  induction cs generalizing n with
  | nil => exact List.not_mem_nil
  | cons c' cs ih =>
    simp only [extend?] at hread
    cases hdigit : digit? base c' with
    | none => simp [hdigit] at hread
    | some d =>
      simp only [hdigit] at hread
      rintro (_ | ⟨_, hmem⟩)
      · cases hc.symm.trans hdigit
      · exact ih hread hmem

/-- A number is made of digits. -/
theorem not_mem_of_number? {c : Char} (hc : digit? base c = none) {cs : List Char} {n : Nat}
    (hread : number? base cs = some n) : c ∉ cs := by
  cases cs with
  | nil => exact List.not_mem_nil
  | cons c' cs => exact not_mem_of_extend? hc hread

end LookupTap.Digits
