/-
Variorum/Bits.lean

Bit fields of registers, and C arithmetic on them: the `MASK_RANGE` and
`MASK_VAL` macros, a shifted `int` one, and the conversion of a double to an
unsigned 64-bit number.

Doubles are rational numbers throughout, so that sums and quotients are exact.
-/
import Mathlib.Algebra.Order.Floor.Ring
import Mathlib.Data.Rat.Floor

namespace Variorum

/-- `MASK_RANGE(m, n)`: ones from bit `n` to bit `m`. -/
def maskRange (m n : Nat) : BitVec 64 := ((1#64 <<< (m - n + 1)) - 1#64) <<< n

/-- `MASK_VAL(x, m, n)`: the field of `x` from bit `n` to bit `m`. -/
def maskVal (x : BitVec 64) (m n : Nat) : BitVec 64 := (x &&& maskRange m n) >>> n

/-- `(double)(1 << k)`, with the shift carried out on an `int`. -/
def shiftOne (k : Nat) : ℚ := ((1#32 <<< k).toInt : ℚ)

/-- `(uint64_t)x` for a double: the fraction is cut off. -/
def truncBits (x : ℚ) : BitVec 64 := BitVec.ofInt 64 (if 0 ≤ x then ⌊x⌋ else ⌈x⌉)

/-! ### Fields -/

theorem maskRange_getLsbD {m n : Nat} (hnm : n ≤ m) (hm : m < 64) (i : Nat) :
    (maskRange m n).getLsbD i = (decide (n ≤ i) && decide (i ≤ m)) := by
  have hones : ∀ k ≤ 64, ((1#64 <<< k) - 1#64).toNat = 2 ^ k - 1 := by
    intro k hk
    rcases Nat.lt_or_ge k 64 with hlt | hge
    · have hpow : 2 ^ k < 2 ^ 64 := Nat.pow_lt_pow_right (by decide) hlt
      have hshift : (1#64 <<< k).toNat = 2 ^ k := by
        rw [BitVec.toNat_shiftLeft, Nat.shiftLeft_eq, show (1#64).toNat = 1 from rfl, one_mul,
          Nat.mod_eq_of_lt hpow]
      rw [BitVec.toNat_sub_of_le, hshift]
      · rfl
      · rw [BitVec.le_def, hshift]
        exact Nat.two_pow_pos k
    · obtain rfl : k = 64 := by omega
      decide
  rw [maskRange, BitVec.getLsbD_shiftLeft, ← BitVec.testBit_toNat, hones _ (by omega),
    Nat.testBit_two_pow_sub_one]
  grind

/-- A field as a number. -/
theorem maskVal_toNat (x : BitVec 64) {m n : Nat} (hnm : n ≤ m) (hm : m < 64) :
    (maskVal x m n).toNat = x.toNat / 2 ^ n % 2 ^ (m - n + 1) := by
  apply Nat.eq_of_testBit_eq
  intro i
  rw [BitVec.testBit_toNat, maskVal, BitVec.getLsbD_ushiftRight, BitVec.getLsbD_and,
    maskRange_getLsbD hnm hm, Nat.testBit_mod_two_pow, Nat.testBit_div_two_pow,
    BitVec.testBit_toNat]
  grind

/-- A field bit by bit. -/
theorem maskVal_getLsbD (x : BitVec 64) {m n : Nat} (hnm : n ≤ m) (hm : m < 64) (i : Nat) :
    (maskVal x m n).getLsbD i = (decide (i ≤ m - n) && x.getLsbD (n + i)) := by
  rw [maskVal, BitVec.getLsbD_ushiftRight, BitVec.getLsbD_and, maskRange_getLsbD hnm hm]
  grind

/-- A number below `2 ^ k` has no bit from `k` on. -/
theorem getLsbD_of_toNat_lt {x : BitVec 64} {k i : Nat} (hx : x.toNat < 2 ^ k) (hi : k ≤ i) :
    x.getLsbD i = false := by
  rw [← BitVec.testBit_toNat]
  apply Nat.testBit_lt_two_pow
  calc x.toNat < 2 ^ k := hx
    _ ≤ 2 ^ i := Nat.pow_le_pow_right (by decide) hi

/-! ### Shifted ones -/

/-- Below the sign bit a shifted one is a power of two. -/
theorem shiftOne_of_lt {k : Nat} (h : k < 31) : shiftOne k = 2 ^ k := by
  have hint : ∀ k < 31, (1#32 <<< k).toInt = 2 ^ k := by decide
  rw [shiftOne, hint k h]
  norm_cast

/-- At the sign bit it is negative. -/
theorem shiftOne_sign : shiftOne 31 = -(2 ^ 31) := by
  have hint : (1#32 <<< 31).toInt = -(2 ^ 31) := by decide
  rw [shiftOne, hint]
  norm_cast

end Variorum
