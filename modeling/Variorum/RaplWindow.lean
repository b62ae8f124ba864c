/-
Variorum/RaplWindow.lean

The time window of a power limit.

A window is stored as an exponent of five bits and a multiplier of two: the
encoding splits the logarithm of the window, in time units, into its whole part
and a remainder that three thresholds sort into the multipliers 1, 5/4, 3/2 and
7/4.  Seen from the windows themselves this rounds the mantissa
(`roundMultiplier`), and never moves it by 8/7 (`close_roundMultiplier`).

What the encoding has no fields for it does not refuse: the bounds check is
commented out.  `windowEncoding_iff` says exactly which windows the field can
express and hence which come back within 8/7.
-/
import Mathlib.Tactic.IntervalCases
import Variorum.Binade
import Variorum.PowerCapExact

namespace Variorum

open Binade

/-! ### The multiplier -/

/-- A remainder of the logarithm above a threshold, in twentieths. -/
def Above (k : Nat) (m : ℚ) : Prop := 2 ^ k < m ^ 20

instance (k : Nat) (m : ℚ) : Decidable (Above k m) := by unfold Above; infer_instance

/-- `timeval_z` for a mantissa, by the thresholds 0.15, 0.45 and 0.7. -/
def timevalZ (m : ℚ) : Nat :=
  if Above 14 m then 3 else if Above 9 m then 2 else if Above 3 m then 1 else 0

/-- The mantissa a multiplier stands for. -/
def multiplier (z : Nat) : ℚ := 1 + 1 / 4 * z

/-- The mantissa that comes back. -/
def roundMultiplier (m : ℚ) : ℚ := multiplier (timevalZ m)

section Multiplier

variable {m m' : ℚ} {k k' : Nat}

theorem Above.mono (hm : 0 ≤ m) (hle : m ≤ m') (h : Above k m) : Above k m' :=
  h.trans_le (pow_le_pow_left₀ hm hle 20)

theorem Above.of_le (hk : k' ≤ k) (h : Above k m) : Above k' m :=
  (pow_le_pow_right₀ one_le_two hk).trans_lt h

/-- A number whose logarithm is no greater than the threshold is passed. -/
theorem Above.lt {a : ℚ} (ha : a ^ 20 ≤ 2 ^ k) (hm : 0 ≤ m) (h : Above k m) : a < m :=
  lt_of_pow_lt_pow_left₀ 20 hm (ha.trans_lt h)

theorem lt_of_not_above {b : ℚ} (hb : 2 ^ k < b ^ 20) (hb' : 0 ≤ b) (h : ¬ Above k m) : m < b :=
  lt_of_pow_lt_pow_left₀ 20 hb' ((not_lt.mp h).trans_lt hb)

theorem timevalZ_lt (m : ℚ) : timevalZ m < 4 := by
  unfold timevalZ
  split_ifs <;> decide

theorem timevalZ_mono (hm : 0 ≤ m) (hle : m ≤ m') : timevalZ m ≤ timevalZ m' := by
  have hmono : ∀ k, Above k m → Above k m' := fun k => Above.mono hm hle
  have hfirst := hmono 3
  have hsecond := hmono 9
  have hthird := hmono 14
  have hnest : Above 14 m' → Above 9 m' := Above.of_le (by decide)
  have hnest' : Above 9 m' → Above 3 m' := Above.of_le (by decide)
  unfold timevalZ
  grind

/-- The multipliers lie in their own cells. -/
theorem timevalZ_multiplier {z : Nat} (hz : z < 4) : timevalZ (multiplier z) = z := by
  unfold timevalZ multiplier Above
  interval_cases z <;> norm_num

theorem multiplier_mono {z z' : Nat} (h : z ≤ z') : multiplier z ≤ multiplier z' := by
  have hcast : (z : ℚ) ≤ z' := by exact_mod_cast h
  unfold multiplier
  linarith

theorem one_le_multiplier (z : Nat) : 1 ≤ multiplier z := by
  have hpos : (0 : ℚ) ≤ z := Nat.cast_nonneg z
  unfold multiplier
  linarith

theorem multiplier_le {z : Nat} (hz : z < 4) : multiplier z ≤ 7 / 4 := by
  have hcast : (z : ℚ) ≤ 3 := by exact_mod_cast Nat.le_of_lt_succ hz
  unfold multiplier
  linarith

/-- **The thresholds are placed well**: within a cell the multiplier is never off by
8/7, which the end of the last cell would reach. -/
theorem close_roundMultiplier (hlo : 7 / 8 < m) (hhi : m < 2) :
    Close (8 / 7) m (roundMultiplier m) := by
  have hm : 0 ≤ m := by linarith
  unfold Close roundMultiplier timevalZ
  -- in each cell the thresholds are compared as twentieth powers
  split_ifs with hthird hsecond hfirst
  · -- here the upper bound is the end of the binade
    have hlt : 49 / 32 < m := hthird.lt (by norm_num) hm
    norm_num [multiplier]
    constructor <;> linarith
  · have hlt : 21 / 16 < m := hsecond.lt (by norm_num) hm
    have hgt : m < 12 / 7 := lt_of_not_above (by norm_num) (by norm_num) hthird
    norm_num [multiplier]
    constructor <;> linarith
  · have hlt : 35 / 32 < m := hfirst.lt (by norm_num) hm
    have hgt : m < 10 / 7 := lt_of_not_above (by norm_num) (by norm_num) hsecond
    norm_num [multiplier]
    constructor <;> linarith
  · -- the only cell that reaches below one
    have hgt : m < 8 / 7 := lt_of_not_above (by norm_num) (by norm_num) hfirst
    norm_num [multiplier]
    constructor <;> linarith

end Multiplier

/-! ### The window field -/

/-- The field with an exponent and a multiplier. -/
def windowField (y z : Nat) : BitVec 64 := BitVec.ofNat 64 y ||| (BitVec.ofNat 64 z <<< 5)

/-- The window that an exponent and a multiplier stand for, in seconds. -/
def windowSeconds (unitReg : BitVec 64) (y z : Nat) : ℚ :=
  multiplier z * 2 ^ y / 2 ^ timeUnit unitReg

section Field

variable {unitReg : BitVec 64} {y z : Nat}

theorem windowField_toNat_lt (hy : y < 32) (hz : z < 4) : (windowField y z).toNat < 2 ^ 7 := by
  have hall : ∀ y < 32, ∀ z < 4, (windowField y z).toNat < 2 ^ 7 := by decide
  exact hall y hy z hz

/-- Every field stands for some window. -/
theorem decodeSeconds_eq (unitReg bits : BitVec 64) (units : ℚ) :
    (translate 79 (getRaplPowerUnit unitReg) .bitsToSecondsStd bits units).2
      = windowSeconds unitReg (bits &&& 0x1F).toNat ((bits &&& 0x60) >>> 5).toNat := by
  show (1 + 1 / 4 * ((_ : Nat) : ℚ)) * 2 ^ (_ : Nat) / (getRaplPowerUnit unitReg).seconds = _
  rw [getRaplPowerUnit_seconds]
  rfl

theorem exponentField_lt (bits : BitVec 64) : (bits &&& 0x1F).toNat < 32 := by
  rw [BitVec.toNat_and]
  exact Nat.and_lt_two_pow _ (show (0x1F#64).toNat < 2 ^ 5 by decide)

theorem multiplierField_lt (bits : BitVec 64) : ((bits &&& 0x60) >>> 5).toNat < 4 := by
  have hlt : (bits &&& 0x60).toNat < 2 ^ 7 := by
    rw [BitVec.toNat_and]
    exact Nat.and_lt_two_pow _ (show (0x60#64).toNat < 2 ^ 7 by decide)
  rw [BitVec.toNat_ushiftRight, Nat.shiftRight_eq_div_pow]
  omega

/-- The field is taken apart again. -/
theorem decodeSeconds_windowField (hy : y < 32) (hz : z < 4) (units : ℚ) :
    (translate 79 (getRaplPowerUnit unitReg) .bitsToSecondsStd (windowField y z) units).2
      = windowSeconds unitReg y z := by
  have hall : ∀ y < 32, ∀ z < 4, (windowField y z &&& 0x1F).toNat = y ∧
      ((windowField y z &&& 0x60) >>> 5).toNat = z := by decide
  obtain ⟨hexp, hmul⟩ := hall y hy z hz
  rw [decodeSeconds_eq, hexp, hmul]

/-- A window comes from the fields it comes back from. -/
theorem windowSeconds_mul (unitReg : BitVec 64) (y z : Nat) :
    windowSeconds unitReg y z * 2 ^ timeUnit unitReg = multiplier z * 2 ^ y :=
  div_mul_cancel₀ _ (by positivity)

/-- No window is shorter than one unit, or as long as 7/4 of the greatest power. -/
theorem one_le_windowSeconds_mul (unitReg : BitVec 64) (y z : Nat) :
    1 ≤ windowSeconds unitReg y z * 2 ^ timeUnit unitReg := by
  rw [windowSeconds_mul]
  exact one_le_mul_of_one_le_of_one_le (one_le_multiplier z) (one_le_pow₀ one_le_two)

theorem windowSeconds_mul_le (unitReg : BitVec 64) (hy : y < 32) (hz : z < 4) :
    windowSeconds unitReg y z * 2 ^ timeUnit unitReg ≤ 7 / 4 * 2 ^ 31 := by
  rw [windowSeconds_mul]
  exact mul_le_mul (multiplier_le hz) (pow_le_pow_right₀ one_le_two (by omega)) (by positivity)
    (by norm_num)

end Field

/-! ### The encoding -/

section Encoding

variable {unitReg : BitVec 64} {s : ℚ}

/-- From half a unit on the logarithm is cut off to the exponent. -/
theorem truncLog2_eq {x : ℚ} (h : 1 / 2 < x) : truncLog2 x = exponent x := by
  unfold truncLog2
  split_ifs with hone
  · rw [Int.floor_toNat]
    rfl
  · -- a logarithm between -1 and 0 is cut off to 0
    have hlt : x < 1 := not_le.mp hone
    have hinv : 1 / x < 2 := by
      rw [div_lt_iff₀ (by linarith)]
      linarith
    have hexp : exponent (1 / x) = 0 := exponent_of_lt_two hinv
    rw [Int.floor_toNat]
    show -((exponent (1 / x) : Nat) : Int) = _
    rw [hexp, exponent_of_lt_two (by linarith)]
    rfl

theorem logRemainderGt_eq (x : ℚ) (k : Nat) :
    logRemainderGt x (exponent x : Nat) k = decide (Above k (mantissa x)) := by
  rw [logRemainderGt, decide_eq_true (Int.natCast_nonneg _), Bool.true_and, Int.toNat_natCast]
  rfl

/-- **`SECONDS_TO_BITS_STD`** stores the exponent and the rounded mantissa. -/
theorem encodeSeconds_eq (h : 1 / 2 < s * 2 ^ timeUnit unitReg) (bits : BitVec 64) :
    (translate 79 (getRaplPowerUnit unitReg) .secondsToBitsStd bits s).1
      = windowField (exponent (s * 2 ^ timeUnit unitReg))
          (timevalZ (mantissa (s * 2 ^ timeUnit unitReg))) := by
  have hnest : ∀ m : ℚ, Above 14 m → Above 9 m := fun m => Above.of_le (by decide)
  have hnest' : ∀ m : ℚ, Above 9 m → Above 3 m := fun m => Above.of_le (by decide)
  simp only [translate, getRaplPowerUnit_seconds, truncLog2_eq h, logRemainderGt_eq]
  -- the chain of tests, from its last threshold down
  rw [BitVec.ofInt_natCast, windowField, timevalZ]
  congr 2
  split_ifs <;> grind

/-- **What comes back** is the window with its mantissa rounded. -/
theorem windowSeconds_exponent (unitReg : BitVec 64) (s : ℚ) :
    windowSeconds unitReg (exponent (s * 2 ^ timeUnit unitReg))
        (timevalZ (mantissa (s * 2 ^ timeUnit unitReg))) * 2 ^ timeUnit unitReg
      = round roundMultiplier (s * 2 ^ timeUnit unitReg) :=
  windowSeconds_mul _ _ _

end Encoding

/-! ### A call -/

/-- The two limits of the register. -/
inductive LimitHalf
  | lower
  | upper
  deriving DecidableEq, Repr

/-- The offset of a limit. -/
def LimitHalf.offset : LimitHalf → Nat
  | .lower => 0
  | .upper => 32

theorem LimitHalf.offset_le (half : LimitHalf) : half.offset ≤ 32 := by cases half <;> decide

/-- What a call of `calc_rapl_bits` finds, but for the window. -/
structure EncodeCall where
  e : MsrEnv
  socket : Nat
  msr : Nat
  st : PowerState
  half : LimitHalf
  watts : {w : ℚ // 0 ≤ w}

/-- A window asked for, in seconds. -/
abbrev Window : Type := {s : ℚ // 0 < s}

namespace EncodeCall

variable (c : EncodeCall)

/-- The unit register in use. -/
def unitReg : BitVec 64 := (translateUnits c.e c.msr c.st).1 c.socket

/-- `calc_rapl_bits` on a limit without bits. -/
def encode (s : Window) : Option RaplLimit × PowerState :=
  calcRaplBits c.e c.socket ⟨0, c.watts, s⟩ c.half.offset c.msr c.st

/-- The window that `calc_rapl_from_bits` finds in the bits of a limit. -/
def decode (bits : BitVec 64) (st : PowerState) : ℚ :=
  (calcRaplFromBits c.e c.socket ⟨bits, 0, 0⟩ c.half.offset c.msr st).1.seconds

/-- The windows that come back from a call for a window; none when it returns -1. -/
def ComesBack (s : Window) (t : ℚ) : Prop :=
  ∃ limit st, c.encode s = (some limit, st) ∧ t = c.decode limit.bits st

/-- The watts in whole power units, in the 64 bits of `watts_bits`. -/
def wattsUnits : Nat := ⌊(c.watts : ℚ) * 2 ^ powerUnit c.unitReg⌋₊ % 2 ^ 64

/-- A window that some field stands for. -/
def fieldWindow (y z : Nat) : Window :=
  ⟨windowSeconds c.unitReg y z, by unfold windowSeconds multiplier; positivity⟩

/-- A window in time units. -/
def units (s : Window) : ℚ := s * 2 ^ timeUnit c.unitReg

/-- The limit is well formed, and its window comes back within 8/7. -/
structure WellEncoded (s : Window) (limit : RaplLimit) (st : PowerState) : Prop where
  fields : ∀ i, limit.bits.getLsbD i = true →
    (c.half.offset ≤ i ∧ i ≤ 14 + c.half.offset) ∨
      (17 + c.half.offset ≤ i ∧ i ≤ 23 + c.half.offset)
  watts : (maskVal limit.bits (14 + c.half.offset) (0 + c.half.offset)).toNat = c.wattsUnits
  window : max (s / c.decode limit.bits st) (c.decode limit.bits st / s) < 8 / 7

/-- What is said of the encoding, for two windows. -/
structure EncodesWindows (s s' : Window) : Prop where
  first : ∀ limit st, c.encode s = (some limit, st) → c.WellEncoded s limit st
  second : ∀ limit st, c.encode s' = (some limit, st) → c.WellEncoded s' limit st
  monotone : s ≤ s' → ∀ t t', c.ComesBack s t → c.ComesBack s' t' → t ≤ t'
  roundTrip : ∀ y < 32, ∀ z < 4, ∀ t, c.ComesBack (c.fieldWindow y z) t → t = c.fieldWindow y z

/-- The window fits between the shortest one and the end of the greatest power. -/
def InRange (s : Window) : Prop := 7 / 8 < c.units s ∧ c.units s < 2 ^ 32

end EncodeCall

/-! ### The bits of a limit -/

/-- The fields of a limit put together at an offset. -/
def packLimit (offset : Nat) (watts seconds : BitVec 64) : BitVec 64 :=
  0 ||| (watts <<< (0 + offset)) ||| (seconds <<< (17 + offset))

section Pack

variable {offset : Nat} {watts seconds : BitVec 64}

theorem packLimit_getLsbD (hoff : offset ≤ 32) (hwatts : watts.toNat < 2 ^ 15)
    (hseconds : seconds.toNat < 2 ^ 7) (i : Nat) :
    (packLimit offset watts seconds).getLsbD i
      = if offset ≤ i ∧ i ≤ 14 + offset then watts.getLsbD (i - offset)
        else if 17 + offset ≤ i ∧ i ≤ 23 + offset then seconds.getLsbD (i - (17 + offset))
        else false := by
  have hw : ∀ i, 15 ≤ i → watts.getLsbD i = false := fun i => getLsbD_of_toNat_lt hwatts
  have hs : ∀ i, 7 ≤ i → seconds.getLsbD i = false := fun i => getLsbD_of_toNat_lt hseconds
  simp only [packLimit, BitVec.getLsbD_or, BitVec.getLsbD_shiftLeft, BitVec.ofNat_eq_ofNat,
    BitVec.getLsbD_zero, Nat.zero_add]
  grind

theorem packLimit_watts (hoff : offset ≤ 32) (hwatts : watts.toNat < 2 ^ 15)
    (hseconds : seconds.toNat < 2 ^ 7) :
    maskVal (packLimit offset watts seconds) (14 + offset) (0 + offset) = watts := by
  apply BitVec.eq_of_getLsbD_eq
  intro i _
  rw [maskVal_getLsbD _ (by omega) (by omega), packLimit_getLsbD hoff hwatts hseconds]
  have hw : 15 ≤ i → watts.getLsbD i = false := getLsbD_of_toNat_lt hwatts
  grind

theorem packLimit_seconds (hoff : offset ≤ 32) (hwatts : watts.toNat < 2 ^ 15)
    (hseconds : seconds.toNat < 2 ^ 7) :
    maskVal (packLimit offset watts seconds) (23 + offset) (17 + offset) = seconds := by
  apply BitVec.eq_of_getLsbD_eq
  intro i _
  rw [maskVal_getLsbD _ (by omega) (by omega), packLimit_getLsbD hoff hwatts hseconds]
  have hs : 7 ≤ i → seconds.getLsbD i = false := getLsbD_of_toNat_lt hseconds
  grind

theorem packLimit_fields (hoff : offset ≤ 32) (hwatts : watts.toNat < 2 ^ 15)
    (hseconds : seconds.toNat < 2 ^ 7) {i : Nat}
    (h : (packLimit offset watts seconds).getLsbD i = true) :
    (offset ≤ i ∧ i ≤ 14 + offset) ∨ (17 + offset ≤ i ∧ i ≤ 23 + offset) := by
  rw [packLimit_getLsbD hoff hwatts hseconds] at h
  grind

end Pack

/-! ### What a call does -/

namespace EncodeCall

variable (c : EncodeCall) {s s' : Window} {t : ℚ} {limit : RaplLimit} {st : PowerState}

/-- `watts_bits` as the conversion by the units gives them. -/
def wattsBits : BitVec 64 :=
  (translate 79 (getRaplPowerUnit c.unitReg) .wattsToBits 0 c.watts).1

/-- `seconds_bits` as the conversion by the units gives them. -/
def secondsBits (s : Window) : BitVec 64 :=
  (translate 79 (getRaplPowerUnit c.unitReg) .secondsToBitsStd 0 s).1

theorem wattsBits_toNat : c.wattsBits.toNat = c.wattsUnits := by
  have hpos : 0 ≤ (c.watts : ℚ) * 2 ^ powerUnit c.unitReg := mul_nonneg c.watts.2 (by positivity)
  have hfloor : ⌊(c.watts : ℚ) * 2 ^ powerUnit c.unitReg⌋
      = (⌊(c.watts : ℚ) * 2 ^ powerUnit c.unitReg⌋₊ : Int) := (Int.natCast_floor_eq_floor hpos).symm
  show (truncBits ((c.watts : ℚ) / (getRaplPowerUnit c.unitReg).watts)).toNat = _
  rw [getRaplPowerUnit_watts, div_div_eq_mul_div, div_one, truncBits, if_pos hpos, hfloor,
    BitVec.ofInt_natCast, BitVec.toNat_ofNat]
  rfl

/-- **`calc_rapl_bits`** either reports the watts or puts the fields together; the
window is never looked at. -/
theorem encode_eq (s : Window) :
    ∃ st, st.ru = some (translateUnits c.e c.msr c.st).1 ∧
      c.encode s = if c.wattsUnits < 2 ^ 15 then
          (some ⟨packLimit c.half.offset c.wattsBits (c.secondsBits s), c.watts, s⟩, st)
        else (none, { st with tooLarge := st.tooLarge ++ [c.socket] }) := by
  have hru := translateUnits_ru c.e c.msr c.st
  have hcond : c.wattsUnits < 2 ^ 15 ↔ ¬ c.wattsBits.toNat > 2 ^ 15 - 1 := by
    rw [c.wattsBits_toNat]
    omega
  refine ⟨(translateUnits c.e c.msr c.st).2, hru, ?_⟩
  rw [if_congr hcond rfl rfl, ite_not]
  simp only [encode, calcRaplBits, translateUnits_of_some hru]
  rfl

theorem encode_of_some (h : c.encode s = (some limit, st)) :
    c.wattsUnits < 2 ^ 15 ∧ limit.bits = packLimit c.half.offset c.wattsBits (c.secondsBits s) ∧
      st.ru = some (translateUnits c.e c.msr c.st).1 := by
  obtain ⟨st', hru, heq⟩ := c.encode_eq s
  rw [heq] at h
  split_ifs at h with hlt
  · obtain ⟨hlimit, rfl⟩ := Prod.mk.inj h
    obtain rfl := Option.some.inj hlimit
    exact ⟨hlt, rfl, hru⟩
  · cases h

theorem encode_of_lt (h : c.wattsUnits < 2 ^ 15) (s : Window) :
    ∃ limit st, c.encode s = (some limit, st) := by
  obtain ⟨st, -, heq⟩ := c.encode_eq s
  exact ⟨_, _, heq.trans (if_pos h)⟩

theorem decode_eq (hru : st.ru = some (translateUnits c.e c.msr c.st).1) (bits : BitVec 64) :
    c.decode bits st = (translate 79 (getRaplPowerUnit c.unitReg) .bitsToSecondsStd
      (maskVal bits (23 + c.half.offset) (17 + c.half.offset)) 0).2 := by
  rw [decode, calcRaplFromBits_cached hru]
  rfl

/-- Whatever a field holds, its window has between one and `7/4 * 2 ^ 31` units. -/
theorem decode_bounds (hru : st.ru = some (translateUnits c.e c.msr c.st).1) (bits : BitVec 64) :
    1 ≤ c.decode bits st * 2 ^ timeUnit c.unitReg ∧
      c.decode bits st * 2 ^ timeUnit c.unitReg ≤ 7 / 4 * 2 ^ 31 := by
  rw [c.decode_eq hru, decodeSeconds_eq]
  exact ⟨one_le_windowSeconds_mul _ _ _,
    windowSeconds_mul_le _ (exponentField_lt _) (multiplierField_lt _)⟩

/-- **A window that comes back within 8/7 is in range**, however it was encoded. -/
theorem inRange_of_wellEncoded (hru : st.ru = some (translateUnits c.e c.msr c.st).1)
    (h : c.WellEncoded s limit st) : c.InRange s := by
  obtain ⟨hlo, hhi⟩ := c.decode_bounds hru limit.bits
  have hpow : (0 : ℚ) < 2 ^ timeUnit c.unitReg := by positivity
  have hpos : 0 < c.decode limit.bits st := pos_of_mul_pos_left (by linarith) hpow.le
  obtain ⟨hlt, hgt⟩ := (close_mul_iff hpow).mpr ((max_div_lt_iff s.2 hpos).mp h.window)
  constructor
  · show 7 / 8 < (s : ℚ) * 2 ^ timeUnit c.unitReg
    linarith
  · show (s : ℚ) * 2 ^ timeUnit c.unitReg < 2 ^ 32
    linarith

section InRange

variable {c}

theorem InRange.half_lt (h : c.InRange s) : 1 / 2 < (s : ℚ) * 2 ^ timeUnit c.unitReg := by
  have hlo : 7 / 8 < (s : ℚ) * 2 ^ timeUnit c.unitReg := h.1
  linarith

theorem InRange.exponent_lt (h : c.InRange s) : exponent (c.units s) < 32 :=
  Binade.exponent_lt (by decide) h.2

theorem InRange.secondsBits (h : c.InRange s) :
    c.secondsBits s
      = windowField (exponent (c.units s)) (timevalZ (mantissa (c.units s))) :=
  encodeSeconds_eq h.half_lt 0

theorem InRange.secondsBits_lt (h : c.InRange s) : (c.secondsBits s).toNat < 2 ^ 7 := by
  rw [h.secondsBits]
  exact windowField_toNat_lt h.exponent_lt (timevalZ_lt _)

/-- **A window in range comes back rounded.** -/
theorem InRange.decode (h : c.InRange s) (henc : c.encode s = (some limit, st)) :
    c.decode limit.bits st * 2 ^ timeUnit c.unitReg = round roundMultiplier (c.units s) := by
  obtain ⟨hlt, hbits, hru⟩ := c.encode_of_some henc
  rw [c.decode_eq hru, hbits, packLimit_seconds c.half.offset_le (c.wattsBits_toNat.symm ▸ hlt)
    h.secondsBits_lt, h.secondsBits, decodeSeconds_windowField h.exponent_lt (timevalZ_lt _)]
  exact windowSeconds_exponent c.unitReg s

/-- **And everything else is as it should be.** -/
theorem InRange.wellEncoded (h : c.InRange s) (henc : c.encode s = (some limit, st)) :
    c.WellEncoded s limit st := by
  obtain ⟨hlt, hbits, hru⟩ := c.encode_of_some henc
  have hwatts : c.wattsBits.toNat < 2 ^ 15 := c.wattsBits_toNat.symm ▸ hlt
  constructor
  case fields =>
    rw [hbits]
    exact fun i => packLimit_fields c.half.offset_le hwatts h.secondsBits_lt
  case watts =>
    rw [hbits, packLimit_watts c.half.offset_le hwatts h.secondsBits_lt, c.wattsBits_toNat]
  case window =>
    have hpow : (0 : ℚ) < 2 ^ timeUnit c.unitReg := by positivity
    have hpos : 0 < c.decode limit.bits st :=
      pos_of_mul_pos_left (zero_lt_one.trans_le (c.decode_bounds hru limit.bits).1) hpow.le
    rw [max_div_lt_iff s.2 hpos, ← close_mul_iff hpow, h.decode henc]
    show Close (8 / 7) (c.units s) (round roundMultiplier (c.units s))
    refine close_round (close_roundMultiplier ?_ (mantissa_lt_two _))
    -- below one unit the window is its own mantissa
    rcases lt_or_ge (c.units s) 1 with hlt | hge
    · rw [mantissa_of_lt_two (by linarith)]
      exact h.1
    · have hone := one_le_mantissa hge
      linarith

theorem InRange.comesBack (h : c.InRange s) (ht : c.ComesBack s t) :
    t * 2 ^ timeUnit c.unitReg = round roundMultiplier (c.units s) := by
  obtain ⟨limit, st, henc, rfl⟩ := ht
  exact h.decode henc

end InRange

/-- A longer window comes back no shorter. -/
theorem comesBack_mono (hs : c.InRange s) (hs' : c.InRange s') (hle : s ≤ s') {t t' : ℚ}
    (ht : c.ComesBack s t) (ht' : c.ComesBack s' t') : t ≤ t' := by
  have hpow : (0 : ℚ) < 2 ^ timeUnit c.unitReg := by positivity
  have hunits : c.units s ≤ c.units s' := mul_le_mul_of_nonneg_right hle hpow.le
  refine le_of_mul_le_mul_right ?_ hpow
  rw [hs.comesBack ht, hs'.comesBack ht']
  refine round_mono (fun m m' hm hle => multiplier_mono (timevalZ_mono hm hle))
    (fun m => one_le_multiplier _) (fun m => ?_) (mul_nonneg s.2.le hpow.le) hunits
  exact (multiplier_le (timevalZ_lt m)).trans (by norm_num)

section FieldWindow

variable {y z : Nat}

theorem units_fieldWindow (y z : Nat) : c.units (c.fieldWindow y z) = multiplier z * 2 ^ y :=
  windowSeconds_mul _ _ _

theorem inRange_fieldWindow (hy : y < 32) (hz : z < 4) : c.InRange (c.fieldWindow y z) := by
  have hlo := one_le_windowSeconds_mul c.unitReg y z
  have hhi := windowSeconds_mul_le c.unitReg hy hz
  constructor
  · show 7 / 8 < windowSeconds c.unitReg y z * 2 ^ timeUnit c.unitReg
    linarith
  · show windowSeconds c.unitReg y z * 2 ^ timeUnit c.unitReg < 2 ^ 32
    linarith

/-- What a field stands for comes back unchanged. -/
theorem comesBack_fieldWindow (hy : y < 32) (hz : z < 4)
    (ht : c.ComesBack (c.fieldWindow y z) t) : t = c.fieldWindow y z := by
  have hpow : (2 : ℚ) ^ timeUnit c.unitReg ≠ 0 := by positivity
  have hlt : multiplier z < 2 := (multiplier_le hz).trans_lt (by norm_num)
  have hround : roundMultiplier (multiplier z) = multiplier z :=
    congrArg multiplier (timevalZ_multiplier hz)
  apply mul_right_cancel₀ hpow
  rw [(c.inRange_fieldWindow hy hz).comesBack ht, units_fieldWindow,
    round_mul_two_pow (one_le_multiplier z) hlt hround]
  exact (windowSeconds_mul _ _ _).symm

end FieldWindow

/-- **The encoding of windows, exactly.**  All is well for two windows where the watts
are refused, as nothing is encoded then, and otherwise exactly if both are in range:
above 7/8 of the unit of time, and below 2^32 of these units.  A shorter or longer
window does not come back within 8/7, whatever the field is filled with. -/
theorem encodesWindows_iff (s s' : Window) :
    c.EncodesWindows s s' ↔ 2 ^ 15 ≤ c.wattsUnits ∨ (c.InRange s ∧ c.InRange s') := by
  constructor
  · intro h
    -- what comes back lies between the shortest and the longest window of the field
    refine (Nat.lt_or_ge c.wattsUnits (2 ^ 15)).symm.imp_right fun hlt => ?_
    obtain ⟨limit, st, henc⟩ := c.encode_of_lt hlt s
    obtain ⟨limit', st', henc'⟩ := c.encode_of_lt hlt s'
    exact ⟨c.inRange_of_wellEncoded (c.encode_of_some henc).2.2 (h.first limit st henc),
      c.inRange_of_wellEncoded (c.encode_of_some henc').2.2 (h.second limit' st' henc')⟩
  · rintro (hlarge | ⟨hs, hs'⟩)
    · -- a call that reports the watts encodes nothing
      have hnone : ∀ s limit st, c.encode s ≠ (some limit, st) := fun s limit st henc =>
        absurd (c.encode_of_some henc).1 (Nat.not_lt.mpr hlarge)
      refine ⟨fun limit st henc => absurd henc (hnone _ _ _),
        fun limit st henc => absurd henc (hnone _ _ _), fun _ t t' ht _ => ?_,
        fun y hy z hz t => c.comesBack_fieldWindow hy hz⟩
      obtain ⟨limit, st, henc, -⟩ := ht
      exact absurd henc (hnone _ _ _)
    · exact ⟨fun limit st => hs.wellEncoded, fun limit st => hs'.wellEncoded,
        fun hle t t' => c.comesBack_mono hs hs' hle,
        fun y hy z hz t => c.comesBack_fieldWindow hy hz⟩

end EncodeCall

/-- 1 watt for as long as `2 ^ 32` time units take, where the units are those of a
register of 0. -/
def longCall : EncodeCall where
  e := ⟨twoSockets, ⟨fun _ _ => false⟩, false⟩
  socket := 0
  msr := 0x606
  st := zeroState
  half := .lower
  watts := ⟨1, by decide⟩

def longWindow : Window := ⟨2 ^ 32, by norm_num⟩

theorem longWindow_not_encoded : ¬ longCall.EncodesWindows longWindow longWindow := by
  intro h
  have htime : timeUnit longCall.unitReg = 0 := by decide
  have hpower : powerUnit longCall.unitReg = 0 := by decide
  have hwatts : longCall.wattsUnits < 2 ^ 15 := by
    have hone : (longCall.watts : ℚ) = 1 := rfl
    rw [EncodeCall.wattsUnits, hpower, hone]
    norm_num
  obtain ⟨limit, st, henc⟩ := longCall.encode_of_lt hwatts longWindow
  have hin := longCall.inRange_of_wellEncoded (longCall.encode_of_some henc).2.2
    (h.first limit st henc)
  have hunits : longCall.units longWindow = 2 ^ 32 := by
    rw [EncodeCall.units, htime, pow_zero, mul_one]
    rfl
  exact absurd hin.2 (hunits ▸ lt_irrefl _)

end Variorum
