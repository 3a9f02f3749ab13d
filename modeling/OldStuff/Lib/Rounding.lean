import Mathlib

/-!
# Lib — rounding to a number of binary places

The arithmetic of binary floating point without the limits of its exponent: the result of every
operation is rounded to `p` binary places, to the nearest number that has so many and, where two
are equally near, to the one that ends in a zero.  Only what is not negative is looked at here.

Rounding is monotone (`round_mono`) and relatively exact (`round_rel`).  `Rel` is the second in a
form that composes: a computation of several operations is as far off as they are together.
-/

namespace OldStuff.Lib.Rounding

/-- The nearest integer; of two, the even one. -/
def nearest (x : ℚ) : ℤ :=
  if Int.fract x < 1 / 2 then ⌊x⌋
  else if 1 / 2 < Int.fract x then ⌊x⌋ + 1
  else if Even ⌊x⌋ then ⌊x⌋
  else ⌊x⌋ + 1

/-- What the last of `p` binary places is worth in a number of the size of `x`. -/
def ulp (p : ℕ) (x : ℚ) : ℚ := 2 ^ (Int.log 2 x + 1 - p)

/-- `x`, to `p` binary places. -/
def round (p : ℕ) (x : ℚ) : ℚ := nearest (x / ulp p x) * ulp p x

variable {p : ℕ} {x y z l h l' h' : ℚ}

/-! ### The nearest integer -/

@[simp] theorem nearest_intCast (n : ℤ) : nearest n = n := by simp [nearest]

theorem floor_le_nearest (x : ℚ) : ⌊x⌋ ≤ nearest x := by
  unfold nearest
  split_ifs <;> omega

theorem nearest_le_floor_add_one (x : ℚ) : nearest x ≤ ⌊x⌋ + 1 := by
  unfold nearest
  split_ifs <;> omega

theorem abs_nearest_sub_le (x : ℚ) : |nearest x - x| ≤ 1 / 2 := by
  have parts := Int.floor_add_fract x
  have nonneg := Int.fract_nonneg x
  have lt := Int.fract_lt_one x
  rw [abs_le]
  unfold nearest
  split_ifs
  all_goals
    push_cast
    constructor <;> linarith

/-- Between two integers, the nearest is the same or the next one up. -/
theorem nearest_mono (h : x ≤ y) : nearest x ≤ nearest y := by
  have le : ⌊x⌋ ≤ ⌊y⌋ := Int.floor_le_floor h
  rcases le.lt_or_eq with lt | eq
  · exact (nearest_le_floor_add_one x).trans (lt.trans_le (floor_le_nearest y))
  · have fract : Int.fract x ≤ Int.fract y := by
      rw [Int.fract, Int.fract, eq]
      linarith
    unfold nearest
    rw [eq]
    split_ifs <;> first | omega | linarith

theorem le_nearest {n : ℤ} (h : n ≤ x) : n ≤ nearest x := by
  have := nearest_mono h
  rwa [nearest_intCast] at this

theorem nearest_le {n : ℤ} (h : x ≤ n) : nearest x ≤ n := by
  have := nearest_mono h
  rwa [nearest_intCast] at this

/-! ### Rounding -/

theorem ulp_pos (p : ℕ) (x : ℚ) : 0 < ulp p x := by
  unfold ulp
  positivity

@[simp] theorem round_zero : round p 0 = 0 := by
  rw [round, zero_div, ← Int.cast_zero, nearest_intCast, Int.cast_zero, zero_mul]

/-- A binary place times all places is the number that is one place longer. -/
theorem ulp_mul (p : ℕ) (x : ℚ) : ulp p x * 2 ^ p = 2 * 2 ^ Int.log 2 x := by
  rw [ulp, ← zpow_natCast, ← zpow_add₀ two_ne_zero, sub_add_cancel, zpow_add₀ two_ne_zero, zpow_one,
    mul_comm]

theorem log_le (hx : 0 < x) : (2 : ℚ) ^ Int.log 2 x ≤ x := by
  simpa using Int.zpow_log_le_self (b := 2) (by decide) hx

theorem lt_log (x : ℚ) : x < 2 * 2 ^ Int.log 2 x := by
  have := Int.lt_zpow_succ_log_self (b := 2) (by decide) x
  rwa [zpow_add₀ (by norm_num), zpow_one, mul_comm, Nat.cast_ofNat] at this

/-- **Rounding is relatively exact.** -/
theorem abs_round_sub_le (hx : 0 < x) : |round p x - x| ≤ x / 2 ^ p := by
  have hu := ulp_pos p x
  have near := abs_nearest_sub_le (x / ulp p x)
  have scaled : round p x - x = (nearest (x / ulp p x) - x / ulp p x) * ulp p x := by
    rw [sub_mul, div_mul_cancel₀ x hu.ne']
    rfl
  have hp : (0 : ℚ) < 2 ^ p := by positivity
  rw [scaled, abs_mul, abs_of_pos hu, le_div_iff₀ hp, mul_assoc, ulp_mul]
  calc |nearest (x / ulp p x) - x / ulp p x| * (2 * 2 ^ Int.log 2 x)
      ≤ 1 / 2 * (2 * 2 ^ Int.log 2 x) := mul_le_mul_of_nonneg_right near (by positivity)
    _ = 2 ^ Int.log 2 x := by ring
    _ ≤ x := log_le hx

/-- A number is not rounded below the power of two that it has reached. -/
theorem log_le_round (hp : 0 < p) (hx : 0 < x) : 2 ^ Int.log 2 x ≤ round p x := by
  have hu := ulp_pos p x
  obtain ⟨q, rfl⟩ : ∃ q, p = q + 1 := ⟨p - 1, by omega⟩
  have full : (2 : ℚ) ^ Int.log 2 x = ((2 ^ q : ℤ) : ℚ) * ulp (q + 1) x := by
    have := ulp_mul (q + 1) x
    rw [pow_succ] at this
    push_cast
    linarith
  have le : ((2 ^ q : ℤ) : ℚ) ≤ x / ulp (q + 1) x := by
    rw [le_div_iff₀ hu, ← full]
    exact log_le hx
  rw [round, full]
  exact mul_le_mul_of_nonneg_right (by exact_mod_cast le_nearest le) hu.le

/-- Nor is it rounded beyond the next power of two. -/
theorem round_le_log (x : ℚ) : round p x ≤ 2 * 2 ^ Int.log 2 x := by
  have hu := ulp_pos p x
  have le : x / ulp p x ≤ ((2 ^ p : ℤ) : ℚ) := by
    rw [div_le_iff₀ hu]
    push_cast
    rw [mul_comm, ulp_mul]
    exact (lt_log x).le
  rw [← ulp_mul p x, mul_comm, round]
  exact mul_le_mul_of_nonneg_right (by exact_mod_cast nearest_le le) hu.le

theorem round_nonneg (hx : 0 ≤ x) : 0 ≤ round p x := by
  have := le_nearest (n := 0) (x := x / ulp p x) (by
    rw [Int.cast_zero]
    exact div_nonneg hx (ulp_pos p x).le)
  exact mul_nonneg (by exact_mod_cast this) (ulp_pos p x).le

/-- **Rounding is monotone.** -/
theorem round_mono (hp : 0 < p) (hx : 0 ≤ x) (h : x ≤ y) : round p x ≤ round p y := by
  rcases hx.eq_or_lt with rfl | hx
  · rw [round_zero]
    exact round_nonneg h
  · have le : Int.log 2 x ≤ Int.log 2 y := Int.log_mono_right hx h
    rcases le.lt_or_eq with lt | eq
    · calc round p x ≤ 2 * 2 ^ Int.log 2 x := round_le_log x
        _ = 2 ^ (Int.log 2 x + 1) := by rw [zpow_add₀ two_ne_zero, zpow_one, mul_comm]
        _ ≤ 2 ^ Int.log 2 y := zpow_le_zpow_right₀ one_le_two lt
        _ ≤ round p y := log_le_round hp (hx.trans_le h)
    · have same : ulp p x = ulp p y := by rw [ulp, ulp, eq]
      have hu := ulp_pos p y
      rw [round, round, same]
      refine mul_le_mul_of_nonneg_right ?_ hu.le
      exact_mod_cast nearest_mono (div_le_div_of_nonneg_right h hu.le)

/-! ### Relative error -/

/-- `y` is `x`, give or take: it lies between `x * l` and `x * h`. -/
structure Rel (l h x y : ℚ) : Prop where
  lower : x * l ≤ y
  upper : y ≤ x * h

theorem round_rel (p : ℕ) (hx : 0 ≤ x) : Rel (1 - 1 / 2 ^ p) (1 + 1 / 2 ^ p) x (round p x) := by
  rcases hx.eq_or_lt with rfl | hx
  · rw [round_zero]
    exact ⟨by rw [zero_mul], by rw [zero_mul]⟩
  · have near := abs_le.mp (abs_round_sub_le (p := p) hx)
    rw [div_eq_mul_one_div] at near
    constructor <;> linarith [near.1, near.2]

theorem Rel.trans (h₁ : Rel l h x y) (h₂ : Rel l' h' y z) (hl : 0 ≤ l') (hh : 0 ≤ h') :
    Rel (l * l') (h * h') x z where
  lower := by
    rw [← mul_assoc]
    exact (mul_le_mul_of_nonneg_right h₁.lower hl).trans h₂.lower
  upper := by
    rw [← mul_assoc]
    exact h₂.upper.trans (mul_le_mul_of_nonneg_right h₁.upper hh)

theorem Rel.mul_right (h₁ : Rel l h x y) (hz : 0 ≤ z) : Rel l h (x * z) (y * z) where
  lower := by
    rw [mul_right_comm]
    exact mul_le_mul_of_nonneg_right h₁.lower hz
  upper := by
    rw [mul_right_comm]
    exact mul_le_mul_of_nonneg_right h₁.upper hz

theorem Rel.div {x' y' : ℚ} (h₁ : Rel l h x y) (h₂ : Rel l' h' x' y') (hx : 0 ≤ x) (hx' : 0 < x')
    (hl : 0 ≤ l) (hh : 0 ≤ h) (hl' : 0 < l') : Rel (l / h') (h / l') (x / x') (y / y') where
  lower := by
    have pos : 0 < y' := (mul_pos hx' hl').trans_le h₂.lower
    rw [div_mul_div_comm]
    exact div_le_div₀ ((mul_nonneg hx hl).trans h₁.lower) h₁.lower pos h₂.upper
  upper := by
    rw [div_mul_div_comm]
    exact div_le_div₀ (mul_nonneg hx hh) h₁.upper (mul_pos hx' hl') h₂.lower

theorem Rel.mono (h₁ : Rel l h x y) (hx : 0 ≤ x) (hl : l' ≤ l) (hh : h ≤ h') : Rel l' h' x y where
  lower := (mul_le_mul_of_nonneg_left hl hx).trans h₁.lower
  upper := h₁.upper.trans (mul_le_mul_of_nonneg_left hh hx)

end OldStuff.Lib.Rounding
