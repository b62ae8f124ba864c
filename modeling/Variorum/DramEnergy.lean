/-
Variorum/DramEnergy.lean

The energy of the DRAM over two consecutive samples.

`read_rapl_data` translates a reading of the DRAM register with
`BITS_TO_JOULES_DRAM`, which is linear: every count is worth `dramUnit`, the
fixed `1 / 2^16` joules on architectures 63 and 79 and the energy unit of the
register elsewhere.  `delta_rapl_data` subtracts two such translations, but
where the register wrapped it translates the difference itself, less one
(`UINT_MAX` is not the modulus), and with `BITS_TO_JOULES`.

So a sample that wrapped is accounted for in the unit of the readings in one
case only: with the fixed unit, an energy unit of `1 / 2^15` and an advance of
two counts, where the count lost and the unit twice as large make up for each
other (`dramEnergy_iff`).
-/
import Mathlib.Tactic.IntervalCases
import Variorum.RaplEnergy

namespace Variorum

variable {n : Nat}

/-- What `gettimeofday` and `read_batch` deliver, with the counters of the DRAM
as the 32 bits they are. -/
structure DramSample (n : Nat) where
  now : Timeval
  pkg : Fin n → BitVec 64
  dram : Fin n → BitVec 32

def DramSample.toSample (sample : DramSample n) : RaplSample n where
  now := sample.now
  pkg := sample.pkg
  dram := fun i => (sample.dram i).setWidth 64

/-- The joules `read_rapl_data` sees in one count of the DRAM register. -/
def dramUnit (archId : Nat) (ru : RaplUnits) : ℚ :=
  (translate archId ru .bitsToJoulesDram 1 0).2

/-! ### The unit of the readings -/

section Unit

variable {archId : Nat} {ru : RaplUnits}

theorem dramUnit_of_fixed (h : archId = 63 ∨ archId = 79) : dramUnit archId ru = 1 / 65536 := by
  show (translate archId ru .bitsToJoulesDram 1 0).2 = 1 / 65536
  rw [translate, if_pos h, show (1 : BitVec 64).toNat = 1 from rfl, Nat.cast_one]

theorem dramUnit_of_not_fixed (h : ¬ (archId = 63 ∨ archId = 79)) :
    dramUnit archId ru = 1 / ru.joules := by
  show (translate archId ru .bitsToJoulesDram 1 0).2 = 1 / ru.joules
  rw [translate, if_neg h, show (1 : BitVec 64).toNat = 1 from rfl, Nat.cast_one]

/-- `BITS_TO_JOULES_DRAM` is linear, in the unit of the architecture. -/
theorem translate_dram (bits : BitVec 64) (units : ℚ) :
    (translate archId ru .bitsToJoulesDram bits units).2 = bits.toNat * dramUnit archId ru := by
  by_cases h : archId = 63 ∨ archId = 79
  · rw [dramUnit_of_fixed h, mul_one_div, translate, if_pos h]
  · rw [dramUnit_of_not_fixed h, mul_one_div, translate, if_neg h]

end Unit

/-! ### Two samples -/

theorem getPower_dram {cfg : RaplConfig n} {s : RaplState n} (sample : RaplSample n)
    (hr : s.readInit = true) (hd : s.deltaInit = true) (i : Fin n) :
    (getPower cfg s sample).data.dram i
      = deltaDomain cfg.archId (cfg.ru i) (sample.now.since s.data.now)
          ((s.data.dram i).age.load cfg.archId (cfg.ru i) .bitsToJoulesDram (sample.dram i)) := by
  simp [getPower, deltaRaplData, readRaplData, hr, hd]

/-- Whatever was before, a call leaves the reading and its translation. -/
theorem getPower_dram_sampled (cfg : RaplConfig n) (s : RaplState n) (sample : RaplSample n)
    (i : Fin n) :
    ((getPower cfg s sample).data.dram i).bits = sample.dram i ∧
      ((getPower cfg s sample).data.dram i).joules
        = (sample.dram i).toNat * dramUnit cfg.archId (cfg.ru i) := by
  rw [← translate_dram _ 0]
  simp only [getPower, deltaRaplData, readRaplData]
  split <;> simp [RaplDomain.load, translate_dram]

theorem toSample_dram_toNat (sample : DramSample n) (i : Fin n) :
    (sample.toSample.dram i).toNat = (sample.dram i).toNat := by
  show ((sample.dram i).setWidth 64).toNat = _
  rw [BitVec.toNat_setWidth, Nat.mod_eq_of_lt (by omega)]

/-- The counts of the DRAM between two samples. -/
def dramAdvance (first second : DramSample n) (i : Fin n) : Nat :=
  Counter.advance (2 ^ 32) (first.dram i).toNat (second.dram i).toNat

section TwoSamples

variable {archId : Nat} {reg : Fin n → BitVec 64}

/-- What the second of two calls accounts for: the counts in the unit of the
readings, or, if the register wrapped, one count less in the unit of the
register. -/
theorem dram_deltaJoules (s : RaplState n) (first second : DramSample n) (i : Fin n) :
    ((getPower (unitConfig archId reg) (getPower (unitConfig archId reg) s first.toSample)
        second.toSample).data.dram i).deltaJoules
      = if (first.dram i).toNat ≤ (second.dram i).toNat then
          dramAdvance first second i * dramUnit archId (getRaplPowerUnit (reg i))
        else (dramAdvance first second i - 1 : ℚ) / shiftOne (energyUnit (reg i)) := by
  obtain ⟨hr, hd⟩ := getPower_inits (unitConfig archId reg) s first.toSample
  obtain ⟨hbits, hjoules⟩ :=
    getPower_dram_sampled (unitConfig archId reg) s first.toSample i
  have hold := toSample_dram_toNat first i
  have hnew := toSample_dram_toNat second i
  have holdlt : (first.dram i).toNat < 2 ^ 32 := (first.dram i).isLt
  have hnewlt : (second.dram i).toNat < 2 ^ 32 := (second.dram i).isLt
  -- the code compares the counters in bits, and scales joules or bits by the case
  rw [getPower_dram _ hr hd]
  split
  · next hle =>
      rw [deltaDomain_of_le]
      · simp only [RaplDomain.load, RaplDomain.age, translate_dram, hjoules, hold, hnew]
        rw [← sub_mul, dramAdvance, Counter.advance_of_le hle hnewlt, Nat.cast_sub hle]
        rfl
      · simpa only [RaplDomain.load, RaplDomain.age, hbits, hold, hnew] using hle
  · next hwrap =>
      have hlt := Nat.not_le.mp hwrap
      rw [deltaDomain_of_lt]
      -- UINT_MAX is one short of the modulus, so a wrap loses one unit
      · have hdelta : ((second.toSample.dram i + maxJoules) - first.toSample.dram i).toNat
            = (second.dram i).toNat + (2 ^ 32 - (first.dram i).toNat) - 1 := by
          have hmax : maxJoules.toNat = 2 ^ 32 - 1 := rfl
          rw [BitVec.toNat_sub, BitVec.toNat_add, hold, hnew, hmax]
          omega
        simp only [RaplDomain.load, RaplDomain.age, hbits, hdelta]
        rw [dramAdvance, Counter.advance_of_lt hlt holdlt.le, Nat.cast_sub (by omega),
          Nat.cast_one]
        rfl
      · simpa only [RaplDomain.load, RaplDomain.age, hbits, hold, hnew] using hlt

/-- The counts after a wrap are at least one. -/
theorem dramAdvance_pos {first second : DramSample n} {i : Fin n}
    (h : ¬ (first.dram i).toNat ≤ (second.dram i).toNat) : 0 < dramAdvance first second i := by
  have hold : (first.dram i).toNat < 2 ^ 32 := (first.dram i).isLt
  rw [dramAdvance, Counter.advance_of_lt (Nat.not_le.mp h) hold.le]
  omega

end TwoSamples

/-! ### One count less in another unit -/

theorem shiftOne_ne_zero {k : Nat} (hk : k < 32) : shiftOne k ≠ 0 := by
  by_cases h : k = 31
  · rw [h, shiftOne_sign]
    norm_num
  · rw [shiftOne_of_lt (by omega)]
    exact pow_ne_zero k two_ne_zero

/-- In the same unit the count is missing. -/
theorem pred_div_ne {a J : ℚ} (hJ : J ≠ 0) : (a - 1) / J ≠ a * (1 / J) := by
  rw [mul_one_div, ne_eq, div_left_inj' hJ]
  intro h
  linarith

/-- The fixed unit is made up for by the one unit twice as large. -/
theorem pred_div_shiftOne_eq_iff {k a : Nat} (hk : k < 32) (ha : 0 < a) :
    ((a : ℚ) - 1) / shiftOne k = a * (1 / 65536) ↔ k = 15 ∧ a = 2 := by
  have hpos : (0 : ℚ) < a := Nat.cast_pos.mpr ha
  by_cases h : k = 31
  · have hone : (1 : ℚ) ≤ a := Nat.one_le_cast.mpr ha
    rw [h, shiftOne_sign]
    refine iff_of_false (fun heq => ?_) (by omega)
    rw [div_eq_iff (by norm_num)] at heq
    linarith
  · rw [shiftOne_of_lt (by omega), div_eq_iff (pow_ne_zero k two_ne_zero), mul_one_div,
      div_mul_eq_mul_div, eq_div_iff (by norm_num)]
    constructor
    · intro heq
      have hnat : a * 65536 = a * 2 ^ k + 65536 := by
        have : (a : ℚ) * 65536 = a * 2 ^ k + 65536 := by linarith
        exact_mod_cast this
      have hk15 : k ≤ 15 := by
        by_contra hlarge
        have hpow : 2 ^ 16 ≤ 2 ^ k := Nat.pow_le_pow_right (by decide) (by omega)
        have hmul : a * 2 ^ 16 ≤ a * 2 ^ k := Nat.mul_le_mul_left a hpow
        omega
      interval_cases k <;> omega
    · rintro ⟨rfl, rfl⟩
      norm_num

/-! ### The account -/

/-- **The energy of the DRAM over two consecutive samples is the advance of the
register in the unit of its readings** exactly if the register did not wrap
between them, or if the two faults of the other branch cancel. -/
theorem dramEnergy_iff (archId : Nat) (reg : Fin n → BitVec 64) (s : RaplState n)
    (first second : DramSample n) (i : Fin n) :
    ((getPower (unitConfig archId reg) (getPower (unitConfig archId reg) s first.toSample)
        second.toSample).data.dram i).deltaJoules
        = dramAdvance first second i * dramUnit archId (getRaplPowerUnit (reg i)) ↔
      (first.dram i).toNat ≤ (second.dram i).toNat ∨
        ((archId = 63 ∨ archId = 79) ∧ energyUnit (reg i) = 15 ∧
          dramAdvance first second i = 2) := by
  rw [dram_deltaJoules]
  split
  · next hle => exact iff_of_true rfl (.inl hle)
  · next hwrap =>
      rw [or_iff_right hwrap]
      by_cases hfixed : archId = 63 ∨ archId = 79
      · rw [and_iff_right hfixed, dramUnit_of_fixed hfixed]
        exact pred_div_shiftOne_eq_iff (energyUnit_lt _) (dramAdvance_pos hwrap)
      · rw [dramUnit_of_not_fixed hfixed]
        exact iff_of_false (pred_div_ne (shiftOne_ne_zero (energyUnit_lt _)))
          fun h => hfixed h.1

/-- With an energy unit of `1 / 2^14` the register of a Broadwell socket goes
from its last count to zero: one count, and the call accounts for nothing. -/
theorem dramEnergy_wrap :
    let cfg := unitConfig (n := 1) 79 fun _ => 0xE00
    let first : DramSample 1 := ⟨⟨0, 0⟩, fun _ => 0, fun _ => 0xFFFFFFFF⟩
    let second : DramSample 1 := ⟨⟨1, 0⟩, fun _ => 0, fun _ => 0⟩
    ((getPower cfg (getPower cfg (.start 1) first.toSample) second.toSample).data.dram
        0).deltaJoules
      ≠ dramAdvance first second 0 * dramUnit 79 (cfg.ru 0) := by
  intro cfg first second
  have hadvance : dramAdvance first second 0 = 1 := by decide
  rw [dram_deltaJoules, if_neg (by decide), hadvance, dramUnit_of_fixed (.inr rfl)]
  norm_num

end Variorum
