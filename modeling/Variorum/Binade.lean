/-
Variorum/Binade.lean

Numbers by powers of two.

A number is its mantissa times two to its exponent.  From 1 on the exponent is
the whole part of the logarithm and the mantissa lies in [1, 2); smaller numbers
are in the first binade, as their own mantissas.

Rounding the mantissa rounds the number (`round`): what can be said of the
rounding of one binade, that it is monotone, that it moves nothing by more than
a factor, that it keeps the points of a grid, can be said of the rounding of all
numbers (`round_mono`, `close_round`, `round_mul_two_pow`).

Nothing here mentions a particular rounding.
-/
import Mathlib.Algebra.Order.Floor.Semiring
import Mathlib.Algebra.Order.Field.Basic
import Mathlib.Data.Nat.Log
import Mathlib.Tactic.NormNum.Basic
import Mathlib.Tactic.Positivity

namespace Binade

variable {K : Type*} [Field K] [LinearOrder K] [IsStrictOrderedRing K]

/-- Neither of two numbers is `c` times as large as the other. -/
def Close (c x y : K) : Prop := x < c * y ∧ y < c * x

section Close

variable {c x y k : K}

/-- Close numbers are close in any unit. -/
theorem close_mul_iff (hk : 0 < k) : Close c (x * k) (y * k) ↔ Close c x y := by
  unfold Close
  rw [← mul_assoc, ← mul_assoc, mul_lt_mul_iff_left₀ hk, mul_lt_mul_iff_left₀ hk]

/-- Neither quotient reaches the factor. -/
theorem max_div_lt_iff (hx : 0 < x) (hy : 0 < y) : max (x / y) (y / x) < c ↔ Close c x y := by
  rw [max_lt_iff, div_lt_iff₀ hy, div_lt_iff₀ hx, Close]

end Close

variable [FloorSemiring K]

/-- The whole part of the logarithm, or 0. -/
def exponent (x : K) : ℕ := Nat.log 2 ⌊x⌋₊

/-- What is left of a number in the first binade. -/
def mantissa (x : K) : K := x / 2 ^ exponent x

/-- The number with its mantissa rounded. -/
def round (r : K → K) (x : K) : K := r (mantissa x) * 2 ^ exponent x

variable {x x' : K}

/-! ### Exponents and mantissas -/

theorem mantissa_mul (x : K) : mantissa x * 2 ^ exponent x = x :=
  div_mul_cancel₀ x (pow_ne_zero _ two_ne_zero)

theorem mantissa_nonneg (h : 0 ≤ x) : 0 ≤ mantissa x := div_nonneg h (by positivity)

theorem exponent_mono (h : x ≤ x') : exponent x ≤ exponent x' :=
  Nat.log_mono_right (Nat.floor_mono h)

theorem lt_two_pow_exponent (x : K) : x < 2 ^ (exponent x + 1) := by
  have hfloor : ⌊x⌋₊ + 1 ≤ 2 ^ (exponent x + 1) :=
    Nat.lt_pow_succ_log_self (by decide) ⌊x⌋₊
  calc x < ⌊x⌋₊ + 1 := Nat.lt_floor_add_one x
    _ ≤ 2 ^ (exponent x + 1) := by exact_mod_cast hfloor

theorem two_pow_exponent_le (h : 1 ≤ x) : 2 ^ exponent x ≤ x := by
  have hpos : ⌊x⌋₊ ≠ 0 := (Nat.floor_pos.mpr h).ne'
  have hfloor : 2 ^ exponent x ≤ ⌊x⌋₊ := Nat.pow_log_le_self 2 hpos
  calc (2 : K) ^ exponent x ≤ ⌊x⌋₊ := by exact_mod_cast hfloor
    _ ≤ x := Nat.floor_le (zero_le_one.trans h)

theorem mantissa_lt_two (x : K) : mantissa x < 2 := by
  rw [mantissa, div_lt_iff₀ (by positivity), ← pow_succ']
  exact lt_two_pow_exponent x

theorem one_le_mantissa (h : 1 ≤ x) : 1 ≤ mantissa x := by
  rw [mantissa, le_div_iff₀ (by positivity), one_mul]
  exact two_pow_exponent_le h

/-- Below two a number is in the first binade. -/
theorem exponent_of_lt_two (h : x < 2) : exponent x = 0 := by
  have hfloor : ⌊x⌋₊ < 2 := (Nat.floor_lt' (by decide)).mpr (by exact_mod_cast h)
  exact Nat.log_of_lt hfloor

theorem mantissa_of_lt_two (h : x < 2) : mantissa x = x := by
  rw [mantissa, exponent_of_lt_two h, pow_zero, div_one]

theorem exponent_lt {k : ℕ} (hk : k ≠ 0) (h : x < 2 ^ k) : exponent x < k := by
  have hfloor : ⌊x⌋₊ < 2 ^ k :=
    (Nat.floor_lt' (Nat.two_pow_pos k).ne').mpr (by exact_mod_cast h)
  exact Nat.log_lt_of_lt_pow' hk hfloor

/-- A mantissa in its binade. -/
theorem exponent_mul_two_pow {q : K} (hq : 1 ≤ q) (hq' : q < 2) (k : ℕ) :
    exponent (q * 2 ^ k) = k := by
  have hpos : (0 : K) < 2 ^ k := by positivity
  refine Nat.log_eq_of_pow_le_of_lt_pow ?_ ?_
  · refine Nat.le_floor ?_
    rw [Nat.cast_pow, Nat.cast_ofNat]
    exact le_mul_of_one_le_left hpos.le hq
  · refine (Nat.floor_lt' (Nat.two_pow_pos _).ne').mpr ?_
    rw [Nat.cast_pow, Nat.cast_ofNat, pow_succ']
    exact mul_lt_mul_of_pos_right hq' hpos

theorem mantissa_mul_two_pow {q : K} (hq : 1 ≤ q) (hq' : q < 2) (k : ℕ) :
    mantissa (q * 2 ^ k) = q := by
  rw [mantissa, exponent_mul_two_pow hq hq', mul_div_cancel_right₀ q (by positivity)]

/-! ### Rounding -/

section Round

variable {r : K → K} {c : K}

/-- **A rounding of one binade is monotone everywhere.** -/
theorem round_mono (hmono : ∀ m m', 0 ≤ m → m ≤ m' → r m ≤ r m') (hone : ∀ m, 1 ≤ r m)
    (htwo : ∀ m, r m ≤ 2) (hx : 0 ≤ x) (h : x ≤ x') : round r x ≤ round r x' := by
  -- in different binades the rounding of the first does not leave its own
  rcases (exponent_mono h).lt_or_eq with hlt | heq
  · calc round r x ≤ 2 * 2 ^ exponent x := mul_le_mul_of_nonneg_right (htwo _) (by positivity)
      _ = 2 ^ (exponent x + 1) := (pow_succ' 2 _).symm
      _ ≤ 2 ^ exponent x' := pow_le_pow_right₀ one_le_two hlt
      _ ≤ round r x' := le_mul_of_one_le_left (by positivity) (hone _)
  · have hm : mantissa x ≤ mantissa x' := by
      rw [mantissa, mantissa, heq]
      exact div_le_div_of_nonneg_right h (by positivity)
    rw [round, round, heq]
    exact mul_le_mul_of_nonneg_right (hmono _ _ (mantissa_nonneg hx) hm) (by positivity)

/-- **It moves no number further than it moves the mantissa.** -/
theorem close_round (h : Close c (mantissa x) (r (mantissa x))) : Close c x (round r x) := by
  have hpos : (0 : K) < 2 ^ exponent x := by positivity
  obtain ⟨hlt, hgt⟩ := h
  constructor
  · calc x = mantissa x * 2 ^ exponent x := (mantissa_mul x).symm
      _ < c * r (mantissa x) * 2 ^ exponent x := mul_lt_mul_of_pos_right hlt hpos
      _ = c * round r x := mul_assoc _ _ _
  · calc round r x < c * mantissa x * 2 ^ exponent x := mul_lt_mul_of_pos_right hgt hpos
      _ = c * x := by rw [mul_assoc, mantissa_mul]

/-- **It keeps what it keeps in the first binade.** -/
theorem round_mul_two_pow {q : K} (hq : 1 ≤ q) (hq' : q < 2) (hr : r q = q) (k : ℕ) :
    round r (q * 2 ^ k) = q * 2 ^ k := by
  rw [round, mantissa_mul_two_pow hq hq', exponent_mul_two_pow hq hq', hr]

end Round

end Binade
