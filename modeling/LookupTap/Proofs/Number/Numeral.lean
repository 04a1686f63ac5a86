import LookupTap.Number.Binary64
import LookupTap.Proofs.Number.Digits
import Mathlib.Data.List.TakeDrop
import Mathlib.Data.List.TakeWhile

/-! The texts that are numbers.

A numeral is an optional sign and then a name of what is not finite, or digits with a point among
them and an exponent behind them, both of which may be missing. These are the texts that
`Binary64.read?` reads (`isSome_read?`), and a whole number is one of them. -/
namespace LookupTap

namespace Digits

/-- One digit or more, and nothing else. -/
structure Run (cs : List Char) : Prop where
  ne_nil : cs ≠ []
  digits : ∀ c ∈ cs, c.isDigit

theorem isDigit_iff {c : Char} : c.isDigit ↔ 48 ≤ c.toNat ∧ c.toNat ≤ 57 := by
  simp [Char.isDigit, UInt32.le_iff_toNat_le]

theorem isSome_digit? {c : Char} : (digit? 10 c).isSome ↔ c.isDigit := by
  rw [isDigit_iff, digit?]
  simp only [Option.isSome_ite]
  split_ifs <;> omega

theorem isSome_extend? {n : Nat} {cs : List Char} :
    (extend? 10 n cs).isSome ↔ ∀ c ∈ cs, c.isDigit := by
  induction cs generalizing n with
  | nil => simp [extend?]
  | cons c cs ih =>
    rw [List.forall_mem_cons, ← isSome_digit?, extend?]
    cases digit? 10 c with
    | none => simp
    | some d => simpa using ih

theorem isSome_number? {cs : List Char} : (number? 10 cs).isSome ↔ Run cs := by
  cases cs with
  | nil => exact iff_of_false (by simp [number?]) fun h => h.ne_nil rfl
  | cons c cs =>
    rw [number?, isSome_extend?]
    exact ⟨fun h => ⟨List.cons_ne_nil c cs, h⟩, Run.digits⟩

/-- A number is read as an integer where there is one. -/
theorem isSome_cast (n : Option Nat) : (do let a ← n; pure (a : Int)).isSome = n.isSome := by
  cases n <;> rfl

theorem Run.head_ne {c lead : Char} {cs : List Char} (h : Run (c :: cs))
    (hlead : lead.isDigit = false) : c ≠ lead := by
  rintro rfl
  have hdigit := h.digits c List.mem_cons_self
  rw [hlead] at hdigit
  cases hdigit

end Digits

/-! ### Numerals -/

namespace Numeral
open Digits (Run)

inductive Sign : List Char → Prop
  | absent : Sign []
  | minus : Sign ['-']
  | plus : Sign ['+']

inductive Exponent : List Char → Prop
  | absent : Exponent []
  | power {letter : Char} {sign digits : List Char} :
    letter = 'e' ∨ letter = 'E' → Sign sign → Run digits → Exponent (letter :: (sign ++ digits))

/-- Digits with a point among them, or none, and an exponent. -/
inductive Decimal : List Char → Prop
  | whole {digits exponent : List Char} :
    Run digits → Exponent exponent → Decimal (digits ++ exponent)
  | pointed {before after exponent : List Char} :
    Run (before ++ after) → Exponent exponent → Decimal (before ++ '.' :: (after ++ exponent))

/-- In any letters. -/
def Named (cs : List Char) : Prop :=
  String.ofList (cs.map Char.toLower) ∈ ["inf", "infinity", "nan"]

end Numeral

inductive Numeral : List Char → Prop
  | signed {sign cs : List Char} :
    Numeral.Sign sign → Numeral.Named cs ∨ Numeral.Decimal cs → Numeral (sign ++ cs)

namespace Binary64
open Digits Numeral

/-- The digits at the start of a text end where something else begins. -/
theorem leadingDigits_append {digits rest : List Char} (hdigits : ∀ c ∈ digits, c.isDigit)
    (hrest : ∀ c ∈ rest.head?, c.isDigit = false) :
    leadingDigits (digits ++ rest) = (digits, rest) := by
  rw [leadingDigits, List.span_eq_takeWhile_dropWhile, List.takeWhile_append_of_pos hdigits,
    List.dropWhile_append_of_pos hdigits]
  cases rest with
  | nil => simp
  | cons c rest =>
    have hc : ¬ c.isDigit = true := by simp [hrest c rfl]
    rw [List.takeWhile_cons_of_neg hc, List.dropWhile_cons_of_neg hc, List.append_nil]

theorem leadingDigits_eq {cs digits rest : List Char} (h : leadingDigits cs = (digits, rest)) :
    cs = digits ++ rest ∧ ∀ c ∈ digits, c.isDigit := by
  rw [leadingDigits, List.span_eq_takeWhile_dropWhile] at h
  cases h
  exact ⟨List.takeWhile_append_dropWhile.symm, fun c hc => List.mem_takeWhile_imp hc⟩

theorem isSome_exponent? {cs : List Char} : (exponent? cs).isSome ↔ Exponent cs := by
  constructor
  · intro h
    unfold exponent? at h
    split at h
    · exact .absent
    · next letter cs =>
      split at h
      · next hletter =>
        split at h <;> rw [Option.isSome_map, isSome_cast, isSome_number?] at h
        · exact .power hletter .minus h
        · exact .power hletter .plus h
        · exact .power hletter .absent h
      · cases h
  · rintro (_ | ⟨hletter, hsign, hdigits⟩)
    · rfl
    · have hread := isSome_number?.mpr hdigits
      unfold exponent?
      simp only [if_pos hletter]
      cases hsign with
      | minus =>
        simp only [List.cons_append, List.nil_append]
        rwa [Option.isSome_map, isSome_cast]
      | plus =>
        simp only [List.cons_append, List.nil_append]
        rwa [Option.isSome_map, isSome_cast]
      | absent =>
        rw [List.nil_append]
        split
        · exact absurd rfl (hdigits.head_ne rfl)
        · exact absurd rfl (hdigits.head_ne rfl)
        · rwa [Option.isSome_map, isSome_cast]

/-- An exponent does not go on with the digits before it. -/
theorem exponent_not_digit {cs : List Char} (h : Exponent cs) :
    ∀ c ∈ cs.head?, c.isDigit = false := by
  rintro c hc
  cases h with
  | absent => cases hc
  | power hletter _ _ =>
    cases hc
    obtain rfl | rfl := hletter <;> rfl

section Magnitude
variable {negative : Bool} {cs : List Char}

theorem isSome_read_parts {digits exponent : List Char} (number : Nat → Int → Binary64) :
    (match number? 10 digits, exponent? exponent with
      | some d, some e => some (number d e)
      | _, _ => none).isSome ↔ Run digits ∧ Exponent exponent := by
  rw [← isSome_number?, ← isSome_exponent?]
  cases number? 10 digits <;> cases exponent? exponent <;> simp

theorem isSome_magnitude?_pointed {before after more rest : List Char}
    (hbefore : leadingDigits cs = (before, '.' :: more)) (hafter : leadingDigits more = (after, rest)) :
    (magnitude? negative cs).isSome ↔ Run (before ++ after) ∧ Exponent rest := by
  unfold magnitude?
  simp only [hbefore, hafter]
  exact isSome_read_parts _

theorem isSome_magnitude?_whole {digits rest : List Char}
    (hdigits : leadingDigits cs = (digits, rest)) (hrest : ∀ more, rest ≠ '.' :: more) :
    (magnitude? negative cs).isSome ↔ Run digits ∧ Exponent rest := by
  unfold magnitude?
  simp only [hdigits, List.append_nil]
  exact isSome_read_parts _

theorem isSome_magnitude? (negative : Bool) {cs : List Char} :
    (magnitude? negative cs).isSome ↔ Decimal cs := by
  constructor
  · intro h
    rcases hlead : leadingDigits cs with ⟨digits, rest⟩
    obtain ⟨rfl, _⟩ := leadingDigits_eq hlead
    by_cases hpoint : ∃ more, rest = '.' :: more
    · obtain ⟨more, rfl⟩ := hpoint
      rcases hafter : leadingDigits more with ⟨after, rest⟩
      obtain ⟨rfl, _⟩ := leadingDigits_eq hafter
      rw [isSome_magnitude?_pointed hlead hafter] at h
      exact .pointed h.1 h.2
    · rw [isSome_magnitude?_whole hlead fun more heq => hpoint ⟨more, heq⟩] at h
      exact .whole h.1 h.2
  · rintro (⟨hdigits, hexponent⟩ | ⟨hdigits, hexponent⟩)
    · have hlead := leadingDigits_append hdigits.digits (exponent_not_digit hexponent)
      refine (isSome_magnitude?_whole hlead fun more heq => ?_).mpr ⟨hdigits, hexponent⟩
      cases hexponent with
      | absent => cases heq
      | power hletter =>
        cases heq
        simp at hletter
    · have hafter := leadingDigits_append
        (fun c hc => hdigits.digits c (List.mem_append_right _ hc)) (exponent_not_digit hexponent)
      refine (isSome_magnitude?_pointed (leadingDigits_append ?_ ?_) hafter).mpr ⟨hdigits, hexponent⟩
      · exact fun c hc => hdigits.digits c (List.mem_append_left _ hc)
      · rintro c ⟨⟩
        rfl

end Magnitude

theorem isSome_named? (negative : Bool) {cs : List Char} :
    (named? negative cs).isSome ↔ Named cs := by
  unfold named? Named
  split <;> simp_all

theorem isSome_unsigned? {negative : Bool} {cs : List Char} :
    (unsigned? negative cs).isSome ↔ Named cs ∨ Decimal cs := by
  rw [← isSome_named? negative, ← isSome_magnitude? negative, unsigned?]
  cases named? negative cs <;> simp

/-- What a numeral has behind its sign starts with a digit, a point or the letter of a name. -/
theorem head_cases {c : Char} {cs : List Char} (h : Named (c :: cs) ∨ Decimal (c :: cs)) :
    c.toLower = 'i' ∨ c.toLower = 'n' ∨ c.isDigit ∨ c = '.' := by
  rcases h with hnamed | hdecimal
  · simp only [Named, List.map_cons, List.mem_cons, ← String.toList_inj, String.toList_ofList,
      List.not_mem_nil, or_false] at hnamed
    obtain hinf | hinfinity | hnan := hnamed
    · exact .inl (List.cons.inj hinf).1
    · exact .inl (List.cons.inj hinfinity).1
    · exact .inr (.inl (List.cons.inj hnan).1)
  · generalize hcs : c :: cs = all at hdecimal
    cases hdecimal with
    | @whole digits exponent hdigits _ =>
      cases digits with
      | nil => exact absurd rfl hdigits.ne_nil
      | cons d digits =>
        cases hcs
        exact .inr (.inr (.inl (hdigits.digits c List.mem_cons_self)))
    | @pointed before after exponent hdigits _ =>
      cases before with
      | nil =>
        cases hcs
        exact .inr (.inr (.inr rfl))
      | cons d before =>
        cases hcs
        exact .inr (.inr (.inl (hdigits.digits c List.mem_cons_self)))

/-- So a numeral starts with one of these, or with a sign. -/
theorem exists_head {cs : List Char} (h : Numeral cs) :
    ∃ c rest, cs = c :: rest ∧ (c.toLower = 'i' ∨ c.toLower = 'n' ∨ c.isDigit ∨ c = '.' ∨ c = '-' ∨
      c = '+') := by
  obtain @⟨sign, cs, hsign, hcs⟩ := h
  cases hsign with
  | minus => exact ⟨_, _, rfl, by decide⟩
  | plus => exact ⟨_, _, rfl, by decide⟩
  | absent =>
    cases cs with
    | nil => exact absurd (isSome_unsigned?.mpr hcs : (unsigned? false []).isSome) (by decide)
    | cons c rest =>
      exact ⟨c, rest, rfl, (head_cases hcs).imp_right (.imp_right (.imp_right .inl))⟩

theorem head_not_sign {c : Char} {cs : List Char} (h : Named (c :: cs) ∨ Decimal (c :: cs)) :
    c ≠ '-' ∧ c ≠ '+' := by
  have hstart := head_cases h
  constructor <;> (rintro rfl; revert hstart; decide)

theorem isSome_read? {cs : List Char} : (read? cs).isSome ↔ Numeral cs := by
  unfold read?
  constructor
  · intro h
    split at h
    · exact .signed .minus (isSome_unsigned?.mp h)
    · exact .signed .plus (isSome_unsigned?.mp h)
    · exact .signed .absent (isSome_unsigned?.mp h)
  · rintro ⟨hsign, hcs⟩
    cases hsign with
    | minus => exact isSome_unsigned?.mpr hcs
    | plus => exact isSome_unsigned?.mpr hcs
    | absent =>
      rw [List.nil_append]
      split
      · exact absurd rfl (head_not_sign hcs).1
      · exact absurd rfl (head_not_sign hcs).2
      · exact isSome_unsigned?.mpr hcs

end Binary64

/-! ### Whole numbers -/

namespace Digits
open Numeral

theorem Run.toDigits (n : Nat) : Run (Nat.toDigits 10 n) :=
  ⟨Nat.toDigits_ne_nil, fun _ hc => Nat.isDigit_of_mem_toDigits (by decide) (by decide) hc⟩

/-- A whole number of 64 bits is a numeral in this range. -/
theorem int64?_eq_some {cs : List Char} {i : Int} (h : int64? 10 cs = some i) :
    Numeral cs ∧ -0x8000000000000000 ≤ i ∧ i ≤ 0x7FFFFFFFFFFFFFFF := by
  have hnumeral {sign digits : List Char} (hsign : Sign sign) {n : Option Nat} {f : Int → Int}
      {j : Int} (hn : number? 10 digits = n) (hread : (do let a ← n; pure (a : Int)).map f = some j) :
      Numeral (sign ++ digits) := by
    have hdigits : Run digits := by
      rw [← isSome_number?, hn, ← isSome_cast, ← Option.isSome_map (f := f), hread]
      rfl
    rw [← List.append_nil digits]
    exact .signed hsign (.inr (.whole hdigits .absent))
  unfold int64? integer? at h
  simp only at h
  split at h
  · next j hsigned =>
    split at h
    · next hin =>
      cases h
      refine ⟨?_, hin⟩
      split at hsigned
      · exact hnumeral .minus rfl hsigned
      · exact hnumeral .plus rfl hsigned
      · exact hnumeral .absent rfl hsigned
    · cases h
  · cases h

theorem toList_toString (i : Int) :
    (toString i).toList = (if i < 0 then ['-'] else []) ++ Nat.toDigits 10 i.natAbs := by
  cases i with
  | ofNat n => exact Nat.toList_repr
  | negSucc n =>
    have htext : toString (Int.negSucc n) = "-" ++ Nat.repr (n + 1) := rfl
    rw [htext, String.toList_append, Nat.toList_repr, if_pos (Int.negSucc_lt_zero n)]
    rfl

/-- A whole number of 64 bits is read back from its text. -/
theorem int64?_toString {i : Int} (hlow : -0x8000000000000000 ≤ i) (hhigh : i ≤ 0x7FFFFFFFFFFFFFFF) :
    int64? 10 (toString i).toList = some i := by
  have hread : number? 10 (Nat.toDigits 10 i.natAbs) = some i.natAbs :=
    number?_toDigits (by decide) (by decide) _
  have hdigits := Run.toDigits i.natAbs
  rw [toList_toString]
  generalize hn : i.natAbs = n at hread hdigits ⊢
  generalize Nat.toDigits 10 n = digits at hread hdigits ⊢
  unfold int64? integer?
  by_cases hsign : i < 0
  · have hvalue : -(n : Int) = i := by omega
    simp [if_pos hsign, hread, hvalue, hlow, hhigh]
  · have hvalue : (n : Int) = i := by omega
    cases digits with
    | nil => exact absurd rfl hdigits.ne_nil
    | cons d digits =>
      have hminus : d ≠ '-' := hdigits.head_ne rfl
      have hplus : d ≠ '+' := hdigits.head_ne rfl
      simp [if_neg hsign, hminus, hplus, hread, hvalue, hlow, hhigh]

end Digits

end LookupTap
