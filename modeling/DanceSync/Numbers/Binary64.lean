import Mathlib

/-!
# Rounding to binary64

An operation on doubles gives the double nearest to its exact result, and of two the one whose last
digit is even. A finite double is a rational here; the exponent has a least value and no greatest
one, so a result from `2 ^ 1024 - 2 ^ 970` on, which is infinite, stays a number.

## Main definitions

* `roundEven`, `round`.

## Main results

* `round_mono`, `round_round`: rounding keeps the order, and what is rounded.
* `round_intCast`: whole numbers up to `2 ^ 53` are doubles.
-/

namespace Binary64

/-! ### To the nearest integer -/

/-- The integer nearest to `x`, the even one of two. -/
def roundEven (x : ℚ) : ℤ :=
  if x - ⌊x⌋ < 1 / 2 ∨ (x - ⌊x⌋ = 1 / 2 ∧ Even ⌊x⌋) then ⌊x⌋ else ⌊x⌋ + 1

@[simp] theorem roundEven_intCast (n : ℤ) : roundEven n = n := by
  simp [roundEven]

theorem floor_le_roundEven (x : ℚ) : ⌊x⌋ ≤ roundEven x := by
  unfold roundEven
  split_ifs <;> omega

theorem roundEven_le_floor_add_one (x : ℚ) : roundEven x ≤ ⌊x⌋ + 1 := by
  unfold roundEven
  split_ifs <;> omega

theorem roundEven_mono : Monotone roundEven := by
  intro x y h
  rcases (Int.floor_le_floor h).lt_or_eq with hlt | heq
  · calc roundEven x ≤ ⌊x⌋ + 1 := roundEven_le_floor_add_one x
      _ ≤ ⌊y⌋ := hlt
      _ ≤ roundEven y := floor_le_roundEven y
  -- Between the same integers: what is rounded up stays above a half.
  · unfold roundEven
    rw [← heq]
    split_ifs with hx hy hy
    · exact le_rfl
    · omega
    · refine absurd (hy.imp (fun hy => ?_) fun hy => ?_) hx
      · linarith
      · refine ⟨le_antisymm (by linarith) (not_lt.mp fun hx' => hx (Or.inl hx')), hy.2⟩
    · exact le_rfl

/-! ### To the nearest double -/

/-- The exponent of the last of the 53 binary digits of a double near `x`. -/
def lastPlace (x : ℚ) : ℤ := max (Int.log 2 |x| - 52) (-1074)

/-- The double nearest to `x`. -/
def round (x : ℚ) : ℚ := roundEven (x / 2 ^ lastPlace x) * 2 ^ lastPlace x

theorem roundEven_grid (m p : ℤ) : (roundEven (m * 2 ^ p / 2 ^ p) * 2 ^ p : ℚ) = m * 2 ^ p := by
  rw [mul_div_cancel_right₀ _ (by positivity), roundEven_intCast]

/-- Rounding on one grid keeps the order. -/
theorem roundEven_div_mono (p : ℤ) {x y : ℚ} (h : x ≤ y) :
    (roundEven (x / 2 ^ p) * 2 ^ p : ℚ) ≤ roundEven (y / 2 ^ p) * 2 ^ p := by
  gcongr
  exact roundEven_mono (by gcongr)

/-- A number on its own grid is a double. -/
theorem round_eq_self {x : ℚ} {m : ℤ} (h : x = m * 2 ^ lastPlace x) : round x = x :=
  calc round x = roundEven (m * 2 ^ lastPlace x / 2 ^ lastPlace x) * 2 ^ lastPlace x := by
        rw [round, ← h]
    _ = m * 2 ^ lastPlace x := roundEven_grid ..
    _ = x := h.symm

/-- No number is rounded past a point of its grid. -/
theorem round_le_grid {x : ℚ} {m : ℤ} (h : x ≤ m * 2 ^ lastPlace x) :
    round x ≤ m * 2 ^ lastPlace x :=
  (roundEven_div_mono _ h).trans_eq (roundEven_grid ..)

theorem grid_le_round {x : ℚ} {m : ℤ} (h : m * 2 ^ lastPlace x ≤ x) :
    m * 2 ^ lastPlace x ≤ round x :=
  (roundEven_grid ..).symm.trans_le (roundEven_div_mono _ h)

/-- A power of two lies on the grid of every smaller one. -/
theorem exists_zpow_eq_mul {k p : ℤ} (h : p ≤ k) : ∃ m : ℤ, (2 ^ k : ℚ) = m * 2 ^ p := by
  refine ⟨2 ^ (k - p).toNat, ?_⟩
  rw [Int.cast_pow, Int.cast_ofNat, ← zpow_natCast, ← zpow_add₀ (by norm_num)]
  congr 1
  omega

section Powers

variable {x : ℚ} {k : ℤ}

theorem round_le_zpow (h : x ≤ 2 ^ k) (hk : lastPlace x ≤ k) : round x ≤ 2 ^ k := by
  obtain ⟨m, hm⟩ := exists_zpow_eq_mul hk
  rw [hm] at h ⊢
  exact round_le_grid h

theorem zpow_le_round (h : 2 ^ k ≤ x) (hk : lastPlace x ≤ k) : 2 ^ k ≤ round x := by
  obtain ⟨m, hm⟩ := exists_zpow_eq_mul hk
  rw [hm] at h ⊢
  exact grid_le_round h

theorem round_le_neg_zpow (h : x ≤ -2 ^ k) (hk : lastPlace x ≤ k) : round x ≤ -2 ^ k := by
  obtain ⟨m, hm⟩ := exists_zpow_eq_mul hk
  rw [hm, ← neg_mul, ← Int.cast_neg] at h ⊢
  exact round_le_grid h

theorem neg_zpow_le_round (h : -2 ^ k ≤ x) (hk : lastPlace x ≤ k) : -2 ^ k ≤ round x := by
  obtain ⟨m, hm⟩ := exists_zpow_eq_mul hk
  rw [hm, ← neg_mul, ← Int.cast_neg] at h ⊢
  exact grid_le_round h

end Powers

@[simp] theorem round_zero : round 0 = 0 :=
  round_eq_self (m := 0) (by simp)

theorem round_nonneg {x : ℚ} (h : 0 ≤ x) : 0 ≤ round x := by
  simpa using grid_le_round (x := x) (m := 0) (by simpa using h)

theorem round_nonpos {x : ℚ} (h : x ≤ 0) : round x ≤ 0 := by
  simpa using round_le_grid (x := x) (m := 0) (by simpa using h)

/-- A number with a coarser grid is at least a power of two that both grids have. -/
theorem exists_zpow_between {x y : ℚ} (hy : y ≠ 0) (h : lastPlace x < lastPlace y) :
    ∃ k, lastPlace x ≤ k ∧ lastPlace y ≤ k ∧ |x| ≤ 2 ^ k ∧ 2 ^ k ≤ |y| := by
  simp only [lastPlace] at h ⊢
  refine ⟨Int.log 2 |y|, by omega, by omega, ?_, ?_⟩
  · calc |x| ≤ 2 ^ (Int.log 2 |x| + 1) := (Int.lt_zpow_succ_log_self (by norm_num) |x|).le
      _ ≤ 2 ^ Int.log 2 |y| := zpow_le_zpow_right₀ (by norm_num) (by omega)
  · exact Int.zpow_log_le_self (by norm_num) (abs_pos.mpr hy)

/-- Rounding keeps the order. -/
theorem round_mono : Monotone round := by
  intro x y h
  rcases eq_or_ne x 0 with rfl | hx
  · rw [round_zero]
    exact round_nonneg h
  rcases eq_or_ne y 0 with rfl | hy
  · rw [round_zero]
    exact round_nonpos h
  rcases lt_trichotomy (lastPlace x) (lastPlace y) with hlt | heq | hlt
  -- On different grids a power of two lies between the numbers.
  · obtain ⟨k, hkx, hky, hxk, hyk⟩ := exists_zpow_between hy hlt
    rcases le_abs.mp hyk with hyk | hyk
    · exact (round_le_zpow ((le_abs_self x).trans hxk) hkx).trans (zpow_le_round hyk hky)
    · have hxk' := neg_le_of_abs_le hxk
      have heq : y = x := le_antisymm (by linarith) h
      rw [heq]
  · simp only [round, heq]
    exact roundEven_div_mono _ h
  · obtain ⟨k, hky, hkx, hyk, hxk⟩ := exists_zpow_between hx hlt
    rcases le_abs.mp hxk with hxk | hxk
    · have hyk' := (abs_le.mp hyk).2
      have heq : y = x := le_antisymm (by linarith) h
      rw [heq]
    · exact (round_le_neg_zpow (by linarith) hkx).trans
        (neg_zpow_le_round (neg_le_of_abs_le hyk) hky)

/-- Whole numbers of 53 binary digits are doubles. -/
@[simp] theorem round_intCast {n : ℤ} (h : |n| ≤ 2 ^ 53) : round n = n := by
  rcases eq_or_ne n 0 with rfl | hn
  · exact_mod_cast round_zero
  have habs : (0 : ℚ) < |(n : ℚ)| := abs_pos.mpr (by exact_mod_cast hn)
  rcases h.lt_or_eq with hlt | heq
  · have hlog : Int.log 2 |(n : ℚ)| < 53 :=
      (Int.lt_zpow_iff_log_lt (by norm_num) habs).mp (by exact_mod_cast hlt)
    obtain ⟨m, hm⟩ := exists_zpow_eq_mul (k := 0) (p := lastPlace n) (by
      simp only [lastPlace]
      omega)
    refine round_eq_self (m := n * m) ?_
    rw [Int.cast_mul, mul_assoc, ← hm]
    simp
  · have hplace : lastPlace n = 1 := by
      have hpow : |(n : ℚ)| = (2 : ℕ) ^ (53 : ℤ) := by exact_mod_cast heq
      rw [lastPlace, hpow, Int.log_zpow (by norm_num)]
      rfl
    obtain ⟨m, hm⟩ : ∃ m : ℤ, n = m * 2 := by
      rcases eq_or_eq_neg_of_abs_eq heq with rfl | rfl
      · exact ⟨2 ^ 52, by norm_num⟩
      · exact ⟨-2 ^ 52, by norm_num⟩
    refine round_eq_self (m := m) ?_
    rw [hplace, hm]
    norm_num

/-- What is rounded is a double. -/
@[simp] theorem round_round (x : ℚ) : round (round x) = round x := by
  -- `x` and its rounding lie between the powers of two of exponent `k`.
  set k := max (Int.log 2 |x| + 1) (lastPlace x) with hk
  have hplace : lastPlace x ≤ k := le_max_right ..
  have habs : |x| ≤ 2 ^ k :=
    (Int.lt_zpow_succ_log_self (by norm_num) |x|).le.trans
      (zpow_le_zpow_right₀ (by norm_num) (le_max_left ..))
  have hround : |round x| ≤ 2 ^ k := by
    rw [abs_le] at habs ⊢
    exact ⟨neg_zpow_le_round habs.1 hplace, round_le_zpow habs.2 hplace⟩
  rcases eq_or_ne (round x) 0 with hzero | hne
  · rw [hzero, round_zero]
  rcases hround.lt_or_eq with hlt | heq
  · have hlog : Int.log 2 |round x| < k :=
      (Int.lt_zpow_iff_log_lt (by norm_num) (abs_pos.mpr hne)).mp (by exact_mod_cast hlt)
    have hfiner : lastPlace (round x) ≤ lastPlace x := by
      simp only [lastPlace] at hk ⊢
      omega
    obtain ⟨m, hm⟩ := exists_zpow_eq_mul hfiner
    refine round_eq_self (m := roundEven (x / 2 ^ lastPlace x) * m) ?_
    rw [Int.cast_mul, mul_assoc, ← hm, round]
  · have hcoarser : lastPlace (round x) ≤ k := by
      have hpow : |round x| = (2 : ℕ) ^ k := by exact_mod_cast heq
      have hmin : -1074 ≤ k := (le_max_right _ (-1074)).trans hplace
      rw [lastPlace, hpow, Int.log_zpow (by norm_num)]
      omega
    obtain ⟨m, hm⟩ := exists_zpow_eq_mul hcoarser
    rcases eq_or_eq_neg_of_abs_eq heq with heq' | heq'
    · exact round_eq_self (m := m) (heq'.trans hm)
    · refine round_eq_self (m := -m) ?_
      rw [Int.cast_neg, neg_mul, ← hm, heq']

/-- A whole number that bounds a number bounds the double nearest to it. -/
theorem round_le_intCast {x : ℚ} {n : ℤ} (hn : |n| ≤ 2 ^ 53) (h : x ≤ n) : round x ≤ n :=
  (round_mono h).trans_eq (round_intCast hn)

theorem intCast_le_round {x : ℚ} {n : ℤ} (hn : |n| ≤ 2 ^ 53) (h : n ≤ x) : n ≤ round x :=
  (round_intCast hn).symm.trans_le (round_mono h)

/-- Below `2 ^ 53` rounding adds less than 1. -/
theorem round_le_add_one {x : ℚ} (h : |x| ≤ 2 ^ 53) : round x ≤ x + 1 := by
  obtain ⟨hlower, hupper⟩ := abs_le.mp h
  have hceil : |⌈x⌉| ≤ 2 ^ 53 := by
    refine abs_le.mpr ⟨Int.cast_le.mp (hlower.trans' (by norm_num) |>.trans (Int.le_ceil x)), ?_⟩
    exact Int.ceil_le.mpr (by exact_mod_cast hupper)
  exact (round_le_intCast hceil (Int.le_ceil x)).trans (Int.ceil_lt_add_one x).le

end Binary64
