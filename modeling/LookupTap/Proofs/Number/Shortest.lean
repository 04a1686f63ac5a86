import LookupTap.Number.Shortest
import Mathlib.Algebra.Order.Field.Power
import Mathlib.Data.Rat.Cast.Order
import Mathlib.Tactic.FieldSimp
import Mathlib.Tactic.Linarith
import Mathlib.Tactic.Positivity
import Mathlib.Tactic.Ring

/-! The last digit of a shortest decimal.

A shortest decimal is a point of the first grid that has one in the interval of what reads as the
number. A point whose last digit is zero is one of the grid before, where there was none, so the
last digit is not zero (`shortest_mod_ten`). That some grid has a point takes the size of the
interval: with seventeen digits it is wider than the grid. -/
namespace LookupTap.Binary64

/-! ### Grids -/

/-- The point `d` of the grid `10 ^ k`, over `den`. -/
def onGrid (den d : Nat) (k : Int) : ℚ := d * (den * 10 ^ k)

/-- A point between the ends, which belong to it if it is closed. -/
def Inside (low high : Nat) (closed : Bool) (y : ℚ) : Prop :=
  if closed then low ≤ y ∧ y ≤ high else low < y ∧ y < high

/-- What `gridPoint?` asks of a point. -/
def insideGrid (low high den : Nat) (closed : Bool) (k : Int) (d : Nat) : Bool :=
  let unit := Nat.pow 10 k.toNat * den
  let scale := Nat.pow 10 (-k).toNat
  if closed then low * scale ≤ d * unit && d * unit ≤ high * scale
  else low * scale < d * unit && d * unit < high * scale

/-- The point of the grid `10 ^ k` that is next below a number over `den`. -/
def below (value den : Nat) (k : Int) : Nat :=
  value * Nat.pow 10 (-k).toNat / (Nat.pow 10 k.toNat * den)

theorem onGrid_ten (den d : Nat) (k : Int) : onGrid den (d * 10) k = onGrid den d (k + 1) := by
  rw [onGrid, onGrid, zpow_add_one₀ (by norm_num)]
  push_cast
  ring

theorem onGrid_units (den d : Nat) (k : Int) :
    ((d * (Nat.pow 10 k.toNat * den) : Nat) : ℚ) =
      onGrid den d k * (Nat.pow 10 (-k).toNat : Nat) := by
  have hpower : (10 : ℚ) ^ k.toNat = 10 ^ k * 10 ^ (-k).toNat := by
    rw [← zpow_natCast, ← zpow_natCast, ← zpow_add₀ (by norm_num)]
    congr 1
    omega
  rw [onGrid]
  push_cast [Nat.pow_eq]
  rw [hpower]
  ring

theorem onGrid_mono (den : Nat) (k : Int) {d d' : Nat} (h : d ≤ d') :
    onGrid den d k ≤ onGrid den d' k := by
  unfold onGrid
  gcongr

theorem units_pos (k : Int) {den : Nat} (hden : 0 < den) :
    0 < Nat.pow 10 k.toNat * den ∧ (0 : ℚ) < (Nat.pow 10 (-k).toNat : Nat) :=
  ⟨Nat.mul_pos (Nat.pow_pos (by decide)) hden, Nat.cast_pos.mpr (Nat.pow_pos (by decide))⟩

theorem below_bounds (value : Nat) (k : Int) {den : Nat} (hden : 0 < den) :
    onGrid den (below value den k) k ≤ value ∧ value < onGrid den (below value den k + 1) k := by
  obtain ⟨hunit, hscale⟩ := units_pos k hden
  constructor
  · rw [← mul_le_mul_iff_of_pos_right hscale, ← onGrid_units, ← Nat.cast_mul, Nat.cast_le]
    exact Nat.div_mul_le_self _ _
  · rw [← mul_lt_mul_iff_of_pos_right hscale, ← onGrid_units, ← Nat.cast_mul, Nat.cast_lt]
    exact (Nat.div_lt_iff_lt_mul hunit).mp (Nat.lt_succ_self _)

/-- What lies between two points inside is inside. -/
theorem Inside.between {low high : Nat} {closed : Bool} {x y z : ℚ} (hx : Inside low high closed x)
    (hz : Inside low high closed z) (hxy : x ≤ y) (hyz : y ≤ z) : Inside low high closed y := by
  cases closed with
  | true => exact ⟨hx.1.trans hxy, hyz.trans hz.2⟩
  | false => exact ⟨hx.1.trans_le hxy, hyz.trans_lt hz.2⟩

theorem Inside.bounds {low high : Nat} {closed : Bool} {y : ℚ} (h : Inside low high closed y) :
    low ≤ y ∧ y ≤ high := by
  cases closed with
  | true => exact h
  | false => exact ⟨h.1.le, h.2.le⟩

theorem Inside.of_lt {low high : Nat} {closed : Bool} {y : ℚ} (hlow : low < y) (hhigh : y < high) :
    Inside low high closed y := by
  cases closed with
  | true => exact ⟨hlow.le, hhigh.le⟩
  | false => exact ⟨hlow, hhigh⟩

section Grid
variable {low value high den : Nat} {closed : Bool} {k : Int}

theorem insideGrid_iff {d : Nat} :
    insideGrid low high den closed k d = true ↔ Inside low high closed (onGrid den d k) := by
  have hunits := onGrid_units den d k
  have hscale := (units_pos k Nat.one_pos).2
  unfold insideGrid
  dsimp only
  generalize Nat.pow 10 (-k).toNat = scale at hunits hscale ⊢
  generalize d * (Nat.pow 10 k.toNat * den) = point at hunits ⊢
  have hle (n : Nat) : n * scale ≤ point ↔ (n : ℚ) ≤ onGrid den d k := by
    rw [← mul_le_mul_iff_of_pos_right hscale, ← hunits]
    norm_cast
  have hge (n : Nat) : point ≤ n * scale ↔ onGrid den d k ≤ n := by
    rw [← mul_le_mul_iff_of_pos_right hscale, ← hunits]
    norm_cast
  cases closed with
  | true => simp [Inside, hle, hge]
  | false => simp [Inside, ← not_le, hle, hge]

/-- Of the two neighbours of the number one that is inside is found, if there is any. -/
theorem gridPoint?_cases (low value high den : Nat) (closed : Bool) (k : Int) :
    (∃ d, gridPoint? low value high den closed k = some d ∧ insideGrid low high den closed k d) ∨
      gridPoint? low value high den closed k = none ∧
        ¬ insideGrid low high den closed k (below value den k) ∧
        ¬ insideGrid low high den closed k (below value den k + 1) := by
  have hcases (inside : Nat → Bool) (d : Nat) (nearer : Bool) :
      (∃ d', (if inside d && (nearer || !inside (d + 1)) then some d
          else if inside (d + 1) then some (d + 1) else none) = some d' ∧ inside d') ∨
        (if inside d && (nearer || !inside (d + 1)) then some d
          else if inside (d + 1) then some (d + 1) else none) = none ∧
        ¬ inside d ∧ ¬ inside (d + 1) := by
    cases hd : inside d <;> cases hnext : inside (d + 1) <;> cases nearer <;> simp [*]
  exact hcases (insideGrid low high den closed k) (below value den k)
    (2 * (value * Nat.pow 10 (-k).toNat % (Nat.pow 10 k.toNat * den)) < Nat.pow 10 k.toNat * den)

theorem gridPoint?_eq_some {d : Nat} (h : gridPoint? low value high den closed k = some d) :
    Inside low high closed (onGrid den d k) := by
  obtain ⟨d', hd', hinside⟩ | ⟨hnone, _⟩ := gridPoint?_cases low value high den closed k
  · cases h.symm.trans hd'
    exact insideGrid_iff.mp hinside
  · cases h.symm.trans hnone

/-- If neither neighbour of the number is inside, no point of the grid is. -/
theorem gridPoint?_eq_none (hden : 0 < den) (hlow : low < value) (hhigh : value < high)
    (h : gridPoint? low value high den closed k = none) (p : Nat) :
    ¬ Inside low high closed (onGrid den p k) := by
  obtain ⟨d, hsome, _⟩ | ⟨_, hbelow, hnext⟩ := gridPoint?_cases low value high den closed k
  · cases h.symm.trans hsome
  · rw [insideGrid_iff] at hbelow hnext
    obtain ⟨hfloor, hceil⟩ := below_bounds value k hden
    have hvalue : Inside low high closed value :=
      .of_lt (Nat.cast_lt.mpr hlow) (Nat.cast_lt.mpr hhigh)
    intro hp
    by_cases hside : p ≤ below value den k
    · exact hbelow (hp.between hvalue (onGrid_mono den k hside) hfloor)
    · exact hnext (hvalue.between hp hceil.le (onGrid_mono den k (by omega)))

theorem shortestFrom_mod_ten (hden : 0 < den) (hlow : low < value) (hhigh : value < high)
    {before : Int} {fuel n : Nat}
    (hcoarse : ∀ p, ¬ Inside low high closed (onGrid den p (before - n + 1)))
    (hfine : ∃ j p, n ≤ j ∧ j < n + fuel ∧ Inside low high closed (onGrid den p (before - j))) :
    (shortestFrom low value high den closed before fuel n).1 % 10 ≠ 0 := by
  induction fuel generalizing n with
  | zero =>
    obtain ⟨j, _, hj, hj', _⟩ := hfine
    omega
  | succ fuel ih =>
    unfold shortestFrom
    cases hpoint : gridPoint? low value high den closed (before - n) with
    | some d =>
      intro hzero
      have htens : d = d / 10 * 10 := (Nat.div_mul_cancel (Nat.dvd_of_mod_eq_zero hzero)).symm
      have hinside := gridPoint?_eq_some hpoint
      rw [htens, onGrid_ten] at hinside
      exact hcoarse _ hinside
    | none =>
      have hnone := gridPoint?_eq_none hden hlow hhigh hpoint
      refine ih (fun p => ?_) ?_
      · have hk : before - ((n + 1 : Nat) : Int) + 1 = before - n := by omega
        rw [hk]
        exact hnone p
      · obtain ⟨j, p, hj, hj', hinside⟩ := hfine
        have hne : j ≠ n := by
          rintro rfl
          exact hnone p hinside
        exact ⟨j, p, by omega, by omega, hinside⟩

end Grid

/-! ### The first grid -/

theorem onGrid_succ (den d : Nat) (k : Int) :
    onGrid den (d + 1) k = onGrid den d k + onGrid den 1 k := by
  unfold onGrid
  push_cast
  ring

theorem onGrid_mul_pow (den d n : Nat) (k : Int) :
    onGrid den d k * 10 ^ n = onGrid den d (k + n) := by
  rw [onGrid, onGrid, zpow_add₀ (by norm_num), zpow_natCast]
  ring

theorem onGrid_natCast (den d j : Nat) : onGrid den d j = (d * (den * 10 ^ j) : Nat) := by
  rw [onGrid, zpow_natCast]
  push_cast
  rfl

theorem onGrid_neg (den d j : Nat) : onGrid den d (-j) * (10 ^ j : Nat) = (d * den : Nat) := by
  rw [onGrid, zpow_neg, zpow_natCast]
  push_cast
  field_simp

theorem length_toDigits {n : Nat} (hn : 0 < n) :
    ∃ j, (Nat.toDigits 10 n).length = j + 1 ∧ 10 ^ j ≤ n ∧ n < 10 ^ (j + 1) := by
  induction n using Nat.strongRecOn with
  | ind n ih =>
    by_cases hsmall : n < 10
    · exact ⟨0, by rw [Nat.toDigits_of_lt_base hsmall]; rfl, hn, hsmall⟩
    · obtain ⟨j, hlength, hlow, hhigh⟩ := ih (n / 10) (by omega) (by omega)
      refine ⟨j + 1, ?_, ?_, ?_⟩
      · rw [Nat.toDigits_of_base_le (by decide) (by omega), List.length_append, hlength]
        rfl
      · rw [Nat.pow_succ]
        omega
      · rw [Nat.pow_succ]
        omega

/-- How often a number below `den` can be taken ten times before it reaches `den`. -/
theorem zeros_bounds {den fuel num : Nat} (hsmall : num < den) (henough : den ≤ num * 10 ^ fuel) :
    ∃ j : Nat, digitsBefore.zeros den fuel num = -j ∧ num * 10 ^ j < den ∧
      den ≤ num * 10 ^ (j + 1) := by
  induction fuel generalizing num with
  | zero => omega
  | succ fuel ih =>
    unfold digitsBefore.zeros
    split
    · next hreached => exact ⟨0, rfl, by omega, by omega⟩
    · next hbelow =>
      rw [Nat.pow_succ', ← Nat.mul_assoc] at henough
      obtain ⟨j, hzeros, hlow, hhigh⟩ := ih (by omega) henough
      refine ⟨j + 1, by rw [hzeros]; omega, ?_, ?_⟩
      · rwa [Nat.pow_succ', ← Nat.mul_assoc]
      · rwa [Nat.pow_succ', ← Nat.mul_assoc]

/-- The number lies between the grids of `digitsBefore`, and of one digit less. -/
theorem digitsBefore_bounds {num den : Nat} (hden : 0 < den) (henough : den ≤ num * 10 ^ 400) :
    onGrid den 1 (digitsBefore num den - 1) ≤ num ∧ num < onGrid den 1 (digitsBefore num den) := by
  unfold digitsBefore
  split
  · next hlarge =>
    obtain ⟨j, hlength, hlow, hhigh⟩ := length_toDigits (Nat.div_pos hlarge hden)
    have hbefore : ((Nat.toDigits 10 (num / den)).length : Int) - 1 = j := by omega
    rw [hbefore, hlength, onGrid_natCast, onGrid_natCast, Nat.cast_le, Nat.cast_lt]
    rw [Nat.le_div_iff_mul_le hden] at hlow
    rw [Nat.div_lt_iff_lt_mul hden] at hhigh
    constructor <;> linarith
  · next hsmall =>
    obtain ⟨j, hzeros, hlow, hhigh⟩ := zeros_bounds (by omega) henough
    have hpower (j : Nat) : (0 : ℚ) < (10 ^ j : Nat) := Nat.cast_pos.mpr (Nat.pow_pos (by decide))
    have hbefore : -(j : Int) - 1 = -((j + 1 : Nat) : Int) := by omega
    rw [hzeros, hbefore]
    constructor
    · rw [← mul_le_mul_iff_of_pos_right (hpower (j + 1)), onGrid_neg, Nat.one_mul]
      exact_mod_cast hhigh
    · rw [← mul_lt_mul_iff_of_pos_right (hpower j), onGrid_neg, Nat.one_mul]
      exact_mod_cast hlow

/-- On a grid that the number has sixteen digits on, one of its neighbours is inside. -/
theorem exists_inside {low value high den : Nat} {closed : Bool} {k : Int} (hden : 0 < den)
    (hvalue : 0 < value) (hlow : value + 2 ^ 54 * low ≤ 2 ^ 54 * value)
    (hhigh : value + 2 ^ 54 * value ≤ 2 ^ 54 * high) (hk : onGrid den 1 k * 10 ^ 16 ≤ value) :
    ∃ p, Inside low high closed (onGrid den p k) := by
  obtain ⟨hfloor, hceil⟩ := below_bounds value k hden
  rw [onGrid_succ] at hceil
  have hvalue' : (0 : ℚ) < value := Nat.cast_pos.mpr hvalue
  have hlow' : (value : ℚ) + 2 ^ 54 * low ≤ 2 ^ 54 * value := by exact_mod_cast hlow
  have hhigh' : (value : ℚ) + 2 ^ 54 * value ≤ 2 ^ 54 * high := by exact_mod_cast hhigh
  generalize hpoint : onGrid den (below value den k) k = y at hfloor hceil
  generalize hunit : onGrid den 1 k = u at hceil hk
  by_cases hnear : 2 * (value - y) ≤ u
  · refine ⟨below value den k, .of_lt ?_ ?_⟩ <;> rw [hpoint] <;> linarith
  · refine ⟨below value den k + 1, .of_lt ?_ ?_⟩ <;> rw [onGrid_succ, hpoint, hunit] <;> linarith

theorem two_pow_le_ten_pow {n k : Nat} (h : n ≤ 3 * k) : 2 ^ n ≤ 10 ^ k :=
  calc 2 ^ n ≤ 2 ^ (3 * k) := Nat.pow_le_pow_right (by decide) h
    _ = 8 ^ k := Nat.pow_mul 2 3 k
    _ ≤ 10 ^ k := Nat.pow_le_pow_left (by decide) k

/-- No point with a digit less than the number is inside. -/
theorem not_inside_before {low value high den p : Nat} {closed : Bool} {before : Int}
    (hlow : 0 < low) (hhigh : high ≤ 2 * value) (hbefore : value < onGrid den 1 before) :
    ¬ Inside low high closed (onGrid den p (before + 1)) := by
  intro hinside
  obtain ⟨hfrom, hto⟩ := hinside.bounds
  have hlow' : (0 : ℚ) < low := Nat.cast_pos.mpr hlow
  have hhigh' : (high : ℚ) ≤ 2 * value := by exact_mod_cast hhigh
  cases p with
  | zero =>
    have hzero : onGrid den 0 (before + 1) = 0 := by simp [onGrid]
    linarith
  | succ p =>
    have hfirst := onGrid_mono den (before + 1) (Nat.succ_le_succ (Nat.zero_le p))
    have htens := onGrid_mul_pow den 1 1 before
    norm_num at htens
    linarith

/-- The number itself is inside of what reads as it, with room on both sides. -/
theorem readingInterval_eq {m : Nat} {q : Int} (hm : m ≤ 2 * smallest) :
    ∃ below, readingInterval m q = (4 * m - below, 4 * m, 4 * m + 2) ∧ 0 < below ∧ below ≤ 2 ∧
      4 * m ≤ 2 ^ 54 * below := by
  unfold smallest at hm
  refine ⟨if m = smallest ∧ lowest < q then 1 else 2, rfl, ?_⟩
  split
  · next hleast =>
    rw [hleast.1]
    decide
  · omega

/-- **A shortest decimal does not end in a zero**: ten times a point of one grid is a point of the
next finer one, where it is not looked for. -/
theorem shortest_mod_ten {m : Nat} {q : Int} (hm : 0 < m) (hm' : m ≤ 2 * smallest)
    (hq : lowest ≤ q) : (shortest m q).1 % 10 ≠ 0 := by
  obtain ⟨below, hreading, hpos, hbelow, hwide⟩ := readingInterval_eq (q := q) hm'
  unfold shortest
  rw [hreading]
  dsimp only
  have hup : 0 < Nat.pow 2 (q - 2).toNat := Nat.pow_pos (by decide)
  have hden : 0 < Nat.pow 2 (2 - q).toNat := Nat.pow_pos (by decide)
  have hden' : Nat.pow 2 (2 - q).toNat ≤ 10 ^ 400 := by
    unfold lowest at hq
    exact two_pow_le_ten_pow (by omega)
  generalize Nat.pow 2 (q - 2).toNat = up at hup ⊢
  generalize Nat.pow 2 (2 - q).toNat = den at hden hden' ⊢
  have hlow : 4 * m - below < 4 * m := by omega
  have hroom : 4 * m + 2 ^ 54 * (4 * m - below) ≤ 2 ^ 54 * (4 * m) := by omega
  have hroom' : 4 * m + 2 ^ 54 * (4 * m) ≤ 2 ^ 54 * (4 * m + 2) := by omega
  have hlowPos : 0 < 4 * m - below := by omega
  generalize 4 * m - below = l at hlow hroom hlowPos ⊢
  have hvalue : 0 < 4 * m * up := by positivity
  have henough : den ≤ 4 * m * up * 10 ^ 400 := hden'.trans (Nat.le_mul_of_pos_left _ hvalue)
  obtain ⟨hfirst, hlast⟩ := digitsBefore_bounds hden henough
  refine shortestFrom_mod_ten hden (Nat.mul_lt_mul_of_pos_right hlow hup)
    (Nat.mul_lt_mul_of_pos_right (by omega) hup) (fun p => ?_) ?_
  · rw [Nat.cast_zero, sub_zero]
    exact not_inside_before (Nat.mul_pos hlowPos hup) (by nlinarith) hlast
  · have hsixteen : onGrid den 1 (digitsBefore (4 * m * up) den - (17 : Nat)) * 10 ^ 16 ≤
        ((4 * m * up : Nat) : ℚ) := by
      have hback : digitsBefore (4 * m * up) den - (17 : Nat) + (16 : Nat) =
          digitsBefore (4 * m * up) den - 1 := by omega
      rwa [onGrid_mul_pow, hback]
    have hlow' : 4 * m * up + 2 ^ 54 * (l * up) ≤ 2 ^ 54 * (4 * m * up) := by nlinarith
    have hhigh' : 4 * m * up + 2 ^ 54 * (4 * m * up) ≤ 2 ^ 54 * ((4 * m + 2) * up) := by nlinarith
    obtain ⟨p, hp⟩ := exists_inside hden hvalue hlow' hhigh' hsixteen
    exact ⟨17, p, by omega, by omega, hp⟩

end LookupTap.Binary64
