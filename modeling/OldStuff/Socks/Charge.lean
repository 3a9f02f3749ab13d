import OldStuff.Lib.Rounding

/-!
# Socks — what bytes cost

`try_suspend` asks how long the bytes it has counted should have taken, computes that in `double`s
and drops what is left of the last millisecond.  A `double` has 53 binary places, to which every
operation is rounded (`FLT_EVAL_METHOD` is 0); no such quotient comes near the ends of its exponent.

`shouldTake` is not the quotient rounded down: 1001 bytes at 1000 bytes a second come to 1000
milliseconds.  But it is never far from it (`pace_rel`), and while the quotient has no more than 50
binary places it is the quotient rounded down or one less (`shouldTake_le_div`, `lt_shouldTake`).
-/

namespace OldStuff.Socks
open OldStuff.Lib

/-- `(double)x`, and what every operation on `double`s does to its result. -/
def double (x : ℚ) : ℚ := Rounding.round 53 x

/-- `(((double)suspended_bytes_piped)/((double)config::get_speed(remote_port)))*1000.0`. -/
def pace (bytes speed : ℕ) : ℚ := double (double (double bytes / double speed) * 1000)

/-- How long the bytes should have taken, in milliseconds. -/
def shouldTake (bytes speed : ℕ) : ℕ := ⌊pace bytes speed⌋₊

example : shouldTake 1001 1000 = 1000 := by decide +kernel
example : shouldTake 3003 1500 = 2001 := by decide +kernel

variable {m n S N : ℕ}

@[simp] theorem shouldTake_zero_left : shouldTake 0 S = 0 := by simp [shouldTake, pace, double]

@[simp] theorem shouldTake_zero_right : shouldTake n 0 = 0 := by simp [shouldTake, pace, double]

theorem double_nonneg {x : ℚ} (hx : 0 ≤ x) : 0 ≤ double x := Rounding.round_nonneg hx

theorem pace_nonneg (n S : ℕ) : 0 ≤ pace n S := by
  refine double_nonneg (mul_nonneg (double_nonneg (div_nonneg ?_ ?_)) (by norm_num))
  all_goals exact double_nonneg (Nat.cast_nonneg _)

/-- More bytes take longer. -/
theorem shouldTake_mono (h : m ≤ n) : shouldTake m S ≤ shouldTake n S := by
  have mono {x y : ℚ} (hx : 0 ≤ x) (h : x ≤ y) : double x ≤ double y :=
    Rounding.round_mono (by decide) hx h
  have pos {x : ℚ} (hx : 0 ≤ x) : 0 ≤ double x := double_nonneg hx
  have speed : (0 : ℚ) ≤ double S := pos (Nat.cast_nonneg _)
  have bytes : (0 : ℚ) ≤ double m := pos (Nat.cast_nonneg _)
  have more : double m ≤ double n := mono (Nat.cast_nonneg _) (by exact_mod_cast h)
  refine Nat.floor_mono (mono (mul_nonneg (pos (div_nonneg bytes speed)) (by norm_num)) ?_)
  refine mul_le_mul_of_nonneg_right ?_ (by norm_num)
  exact mono (div_nonneg bytes speed) (div_le_div_of_nonneg_right more speed)

/-! ### How far it is off -/

/-- **The four roundings** of `should_take` come to less than one part in `2 ^ 50`. -/
theorem pace_rel (hS : 0 < S) :
    Rounding.Rel (1 - 1 / 2 ^ 50) (1 + 1 / 2 ^ 50) (n / S * 1000) (pace n S) := by
  have exact {x : ℚ} (hx : 0 ≤ x) : Rounding.Rel (1 - 1 / 2 ^ 53) (1 + 1 / 2 ^ 53) x (double x) :=
    Rounding.round_rel 53 hx
  have hn : (0 : ℚ) ≤ n := Nat.cast_nonneg n
  have hS : (0 : ℚ) < S := Nat.cast_pos.mpr hS
  have quotient := (exact hn).div (exact hS.le) hn hS (by norm_num) (by norm_num) (by norm_num)
  have nonneg : (0 : ℚ) ≤ double n / double S :=
    div_nonneg (double_nonneg hn) (double_nonneg hS.le)
  have seconds := quotient.trans (exact nonneg) (by norm_num) (by norm_num)
  have millis := seconds.mul_right (z := 1000) (by norm_num)
  have all := millis.trans (exact (mul_nonneg (double_nonneg nonneg) (by norm_num)))
    (by norm_num) (by norm_num)
  exact all.mono (mul_nonneg (div_nonneg hn hS.le) (by norm_num)) (by norm_num) (by norm_num)

/-- Bytes that take no longer than `N` milliseconds are not said to take longer, unless they are
out of all proportion to the speed. -/
theorem shouldTake_le (hS : 0 < S) (h : 1000 * n ≤ S * N) (hn : 1000 * n < 2 ^ 50 * S) :
    shouldTake n S ≤ N := by
  have speed : (0 : ℚ) < S := Nat.cast_pos.mpr hS
  have upper := (pace_rel (n := n) hS).upper
  have exact : (n / S * 1000 : ℚ) ≤ N := by
    rw [div_mul_eq_mul_div, div_le_iff₀ speed, mul_comm, mul_comm (N : ℚ)]
    exact_mod_cast h
  have small : (n / S * 1000 : ℚ) < 2 ^ 50 := by
    rw [div_mul_eq_mul_div, div_lt_iff₀ speed, mul_comm]
    exact_mod_cast hn
  refine Nat.lt_add_one_iff.mp ((Nat.floor_lt (pace_nonneg n S)).mpr ?_)
  push_cast
  linarith

/-- Small numbers of bytes are not said to take longer than they do. -/
theorem shouldTake_le_div (hS : 0 < S) (hn : 1000 * n < 2 ^ 50) :
    shouldTake n S ≤ 1000 * n / S := by
  have speed : (0 : ℚ) < S := Nat.cast_pos.mpr hS
  have upper := (pace_rel (n := n) hS).upper
  -- the next millisecond is a byte's time away
  have next : (n / S * 1000 : ℚ) + 1 / S ≤ (1000 * n / S : ℕ) + 1 := by
    have : 1000 * n + 1 ≤ (1000 * n / S + 1) * S := by
      rw [Nat.add_mul (1000 * n / S), Nat.one_mul]
      exact Nat.lt_div_mul_add hS
    rw [div_mul_eq_mul_div, ← add_div, div_le_iff₀ speed, mul_comm (n : ℚ)]
    exact_mod_cast this
  have small : (n / S * 1000 : ℚ) * (1 / 2 ^ 50) < 1 / S := by
    rw [div_mul_eq_mul_div, div_mul_div_comm, mul_one, div_lt_div_iff₀ (by positivity) speed,
      one_mul, mul_comm (S : ℚ)]
    refine mul_lt_mul_of_pos_right ?_ speed
    rw [mul_comm]
    exact_mod_cast hn
  refine Nat.lt_add_one_iff.mp ((Nat.floor_lt (pace_nonneg n S)).mpr ?_)
  push_cast
  linarith

/-- Nor are they said to take less than a millisecond less. -/
theorem lt_shouldTake (hS : 0 < S) (hn : 1000 * n < 2 ^ 50 * S) :
    1000 * n < S * (shouldTake n S + 2) := by
  have speed : (0 : ℚ) < S := Nat.cast_pos.mpr hS
  have lower := (pace_rel (n := n) hS).lower
  have small : (n / S * 1000 : ℚ) < 2 ^ 50 := by
    rw [div_mul_eq_mul_div, div_lt_iff₀ speed, mul_comm]
    exact_mod_cast hn
  have next : pace n S < (shouldTake n S : ℚ) + 1 := Nat.lt_floor_add_one _
  have : (n / S * 1000 : ℚ) < shouldTake n S + 2 := by linarith
  rw [div_mul_eq_mul_div, div_lt_iff₀ speed, mul_comm, mul_comm (_ + _)] at this
  exact_mod_cast this

/-- What is said to take no time takes less than two milliseconds. -/
theorem lt_of_shouldTake_eq_zero (hS : 0 < S) (h : shouldTake n S = 0) : 1000 * n < 2 * S := by
  have speed : (0 : ℚ) < S := Nat.cast_pos.mpr hS
  have lower := (pace_rel (n := n) hS).lower
  have short : pace n S < 1 := Nat.floor_eq_zero.mp h
  have : (n / S * 1000 : ℚ) < 2 := by linarith
  rw [div_mul_eq_mul_div, div_lt_iff₀ speed, mul_comm] at this
  exact_mod_cast this

/-- Bytes that take half a millisecond more than `d`. -/
theorem shouldTake_half {d : ℕ} (hd : d < 2 ^ 48) : shouldTake (2 * d + 1) 2000 = d := by
  have rel := pace_rel (n := 2 * d + 1) (S := 2000) (by decide)
  have small : (d : ℚ) < 2 ^ 48 := by exact_mod_cast hd
  obtain ⟨lower, upper⟩ := rel
  push_cast at lower upper
  refine (Nat.floor_eq_iff (pace_nonneg _ _)).mpr ⟨?_, ?_⟩
  · linarith
  · linarith

end OldStuff.Socks
