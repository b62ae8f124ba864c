/-
Variorum/RaplEnergy.lean

The energy account of a call of `get_power`, reading by reading.

The energy register that is read for a socket shows the energy consumed so far, in
units of `1 / 2^ESU` joules, modulo `2^32`.  `EnergyNode` carries that energy along
with the sampling state, and an `Interval` is what happens between one call and the
next: time passes, and less than `2^32` units are consumed, so that the register
wraps at most once.

Where the register wraps, `delta_rapl_data` adds `UINT_MAX`, which is one less than
the modulus, and the account loses one unit; and `1 << ESU` is negative for the
largest unit.  Elsewhere every call accounts for what was consumed
(`callAccounted_iff`).  Which register is read for which socket, and whole runs, are
the matter of `RaplAccount`.
-/
import Variorum.Counter
import Variorum.Rapl

namespace Variorum

variable {n : Nat}

/-! ### The hardware -/

/-- What the energy register shows after `energy` units. -/
def energyStatus (energy : Nat) : BitVec 64 := BitVec.ofNat 64 (energy % 2 ^ 32)

/-- From one call to the next: the time of the call, the units that are consumed in
between, by socket, and what is read of the DRAM. -/
structure Interval (n : Nat) where
  now : Timeval
  used : Fin n → BitVec 32
  dram : Fin n → BitVec 64

/-- The units consumed so far, as they are read for the sockets, and the sampling state. -/
structure EnergyNode (n : Nat) where
  energy : Fin n → Nat
  rapl : RaplState n

/-- The configuration in which the units in use are those of the registers. -/
def unitConfig (archId : Nat) (reg : Fin n → BitVec 64) : RaplConfig n where
  archId := archId
  ru := fun i => getRaplPowerUnit (reg i)

namespace EnergyNode

/-- A call of `get_power` at the end of an interval. -/
def call (cfg : RaplConfig n) (node : EnergyNode n) (iv : Interval n) : EnergyNode n :=
  let energy := fun i => node.energy i + (iv.used i).toNat
  { energy := energy
    rapl := getPower cfg node.rapl ⟨iv.now, fun i => energyStatus (energy i), iv.dram⟩ }

end EnergyNode

/-! ### One domain -/

section Domain

variable {archId : Nat} {ru : RaplUnits} {elapsed : ℚ} {x : RaplDomain}

@[simp] theorem deltaDomain_bits : (deltaDomain archId ru elapsed x).bits = x.bits := by
  unfold deltaDomain
  split <;> rfl

@[simp] theorem deltaDomain_oldBits : (deltaDomain archId ru elapsed x).oldBits = x.oldBits := by
  unfold deltaDomain
  split <;> rfl

@[simp] theorem deltaDomain_joules : (deltaDomain archId ru elapsed x).joules = x.joules := by
  unfold deltaDomain
  split <;> rfl

theorem deltaDomain_watts : (deltaDomain archId ru elapsed x).watts
    = if elapsed > 0 then (deltaDomain archId ru elapsed x).deltaJoules / elapsed else 0 := rfl

theorem deltaDomain_of_le (h : x.oldBits.toNat ≤ x.bits.toNat) :
    (deltaDomain archId ru elapsed x).deltaJoules = x.joules - x.oldJoules := by
  have hneg : ¬ (x.bits.toNat : ℚ) - x.oldBits.toNat < 0 := by
    rw [sub_neg, Nat.cast_lt]
    exact Nat.not_lt.mpr h
  simp only [deltaDomain, hneg, if_false]

theorem deltaDomain_of_lt (h : x.bits.toNat < x.oldBits.toNat) :
    (deltaDomain archId ru elapsed x).deltaJoules
      = ((x.bits + maxJoules) - x.oldBits).toNat / ru.joules := by
  have hneg : (x.bits.toNat : ℚ) - x.oldBits.toNat < 0 := by
    rw [sub_neg, Nat.cast_lt]
    exact h
  simp only [deltaDomain, hneg, if_true, translate]

end Domain

/-- After the first call, a call of `get_power` ages what was sampled last,
loads the register and takes the difference. -/
theorem getPower_pkg {cfg : RaplConfig n} {s : RaplState n} (sample : RaplSample n)
    (hr : s.readInit = true) (hd : s.deltaInit = true) (i : Fin n) :
    (getPower cfg s sample).data.pkg i
      = deltaDomain cfg.archId (cfg.ru i) (sample.now.since s.data.now)
          ((s.data.pkg i).age.load cfg.archId (cfg.ru i) .bitsToJoules (sample.pkg i)) := by
  simp [getPower, deltaRaplData, readRaplData, hr, hd]

theorem getPower_inits (cfg : RaplConfig n) (s : RaplState n) (sample : RaplSample n) :
    (getPower cfg s sample).readInit = true ∧ (getPower cfg s sample).deltaInit = true := by
  unfold getPower deltaRaplData
  split
  · next h => exact ⟨rfl, h⟩
  · exact ⟨rfl, rfl⟩

theorem energyStatus_toNat (energy : Nat) : (energyStatus energy).toNat = energy % 2 ^ 32 := by
  have hlt : energy % 2 ^ 32 < 2 ^ 32 := Nat.mod_lt _ (by decide)
  rw [energyStatus, BitVec.toNat_ofNat, Nat.mod_eq_of_lt (hlt.trans (by decide))]

/-! ### The account of one call -/

/-- What is asked of one call: the previous sample is kept, the joules are the
difference of the readings modulo `2^32`, the watts are the joules over the time
elapsed. -/
def CallAccounted (cfg : RaplConfig n) (reg : Fin n → BitVec 64) (node : EnergyNode n)
    (iv : Interval n) : Prop :=
  ∀ i, let x := (node.call cfg iv).rapl.data.pkg i
    let elapsed := iv.now.since node.rapl.data.now
    x.oldBits = (node.rapl.data.pkg i).bits ∧
      x.deltaJoules
        = (Counter.advance (2 ^ 32) x.oldBits.toNat x.bits.toNat : ℕ) / 2 ^ energyUnit (reg i) ∧
      x.watts = if elapsed > 0 then x.deltaJoules / elapsed else 0

/-- The calls that meet it: no register wraps, and where the energy unit is the
largest nothing was consumed. -/
def CallPre (reg : Fin n → BitVec 64) (node : EnergyNode n) (iv : Interval n) : Prop :=
  ∀ i, node.energy i % 2 ^ 32 + (iv.used i).toNat < 2 ^ 32 ∧
    (energyUnit (reg i) ≠ 31 ∨ iv.used i = 0)

/-- The invariant between calls: what was sampled last is what the registers
show. -/
structure Sampled (cfg : RaplConfig n) (node : EnergyNode n) : Prop where
  readInit : node.rapl.readInit = true
  deltaInit : node.rapl.deltaInit = true
  bits : ∀ i, (node.rapl.data.pkg i).bits = energyStatus (node.energy i)
  joules : ∀ i, (node.rapl.data.pkg i).joules
    = (energyStatus (node.energy i)).toNat / (cfg.ru i).joules

theorem sampled_call (cfg : RaplConfig n) (node : EnergyNode n) (iv : Interval n) :
    Sampled cfg (node.call cfg iv) := by
  obtain ⟨hr, hd⟩ := getPower_inits cfg node.rapl
    ⟨iv.now, fun i => energyStatus (node.energy i + (iv.used i).toNat), iv.dram⟩
  refine ⟨hr, hd, fun i => ?_, fun i => ?_⟩
  · simp only [EnergyNode.call, getPower, deltaRaplData, readRaplData]
    split <;> simp [RaplDomain.load]
  · simp only [EnergyNode.call, getPower, deltaRaplData, readRaplData]
    split <;> simp [RaplDomain.load, translate]

section Call

variable {archId : Nat} {reg : Fin n → BitVec 64} {node : EnergyNode n} {iv : Interval n}

/-- What a call accounts for: the units used, less one if the register
wrapped. -/
theorem call_deltaJoules (hs : Sampled (unitConfig archId reg) node) (i : Fin n) :
    ((node.call (unitConfig archId reg) iv).rapl.data.pkg i).deltaJoules
      = (if node.energy i % 2 ^ 32 + (iv.used i).toNat < 2 ^ 32 then ((iv.used i).toNat : ℚ)
          else (iv.used i).toNat - 1) / shiftOne (energyUnit (reg i)) := by
  have hnew := energyStatus_toNat (node.energy i + (iv.used i).toNat)
  have hold := energyStatus_toNat (node.energy i)
  have hu : (iv.used i).toNat < 2 ^ 32 := (iv.used i).isLt
  rw [EnergyNode.call, getPower_pkg _ hs.readInit hs.deltaInit]
  by_cases hwrap : node.energy i % 2 ^ 32 + (iv.used i).toNat < 2 ^ 32
  · have hadd := Counter.mod_add_of_lt hwrap
    rw [deltaDomain_of_le, if_pos hwrap]
    · simp only [RaplDomain.load, RaplDomain.age, translate, hs.joules, hnew, hold, hadd]
      rw [← sub_div, Nat.cast_add, add_sub_cancel_left]
      rfl
    · simp only [RaplDomain.load, RaplDomain.age, hs.bits, hnew, hold, hadd]
      omega
  · have hadd := Counter.mod_add_of_le hu (Nat.not_lt.mp hwrap)
    rw [deltaDomain_of_lt, if_neg hwrap]
    · have hbits : ((energyStatus (node.energy i + (iv.used i).toNat) + maxJoules)
          - energyStatus (node.energy i)).toNat = (iv.used i).toNat - 1 := by
        have hmax : maxJoules.toNat = 2 ^ 32 - 1 := rfl
        rw [BitVec.toNat_sub, BitVec.toNat_add, hnew, hold, hmax]
        omega
      simp only [RaplDomain.load, RaplDomain.age, hs.bits, hbits]
      rw [Nat.cast_sub (by omega), Nat.cast_one]
      rfl
    · simp only [RaplDomain.load, RaplDomain.age, hs.bits, hnew, hold]
      omega

/-- Dividing by the shifted one is dividing by the power of two, except where
the shift reached the sign. -/
theorem div_shiftOne_eq_iff {k : Nat} (hk : k < 32) (a : ℚ) :
    a / shiftOne k = a / 2 ^ k ↔ k ≠ 31 ∨ a = 0 := by
  by_cases h : k = 31
  · subst h
    rw [shiftOne_sign, or_iff_right (not_not.mpr rfl), div_neg, neg_eq_iff_add_eq_zero,
      ← add_div, div_eq_zero_iff]
    constructor
    · rintro (h | h)
      · linarith
      · norm_num at h
    · rintro rfl
      exact .inl (add_zero 0)
  · rw [shiftOne_of_lt (by omega)]
    exact iff_of_true rfl (.inl h)

/-- A unit lost is never made up for by the unit of the register. -/
theorem pred_div_shiftOne_ne {k u : Nat} (hk : k < 32) (hu : 0 < u) :
    ((u : ℚ) - 1) / shiftOne k ≠ u / 2 ^ k := by
  have hpow : (2 : ℚ) ^ k ≠ 0 := pow_ne_zero k two_ne_zero
  have hpos : (0 : ℚ) < u := Nat.cast_pos.mpr hu
  by_cases h : k = 31
  · subst h
    have hone : (1 : ℚ) ≤ u := Nat.one_le_cast.mpr hu
    rw [shiftOne_sign, div_neg, neg_div', ne_eq, div_left_inj' hpow]
    intro heq
    linarith
  · rw [shiftOne_of_lt (by omega), ne_eq, div_left_inj' hpow]
    intro heq
    linarith

/-- The part of the account that does not depend on the energy consumed. -/
theorem call_frame (iv : Interval n) (hs : Sampled (unitConfig archId reg) node) (i : Fin n) :
    let x := (node.call (unitConfig archId reg) iv).rapl.data.pkg i
    let elapsed := iv.now.since node.rapl.data.now
    x.oldBits = (node.rapl.data.pkg i).bits ∧
      x.watts = if elapsed > 0 then x.deltaJoules / elapsed else 0 := by
  simp only [EnergyNode.call, getPower_pkg _ hs.readInit hs.deltaInit, deltaDomain_oldBits]
  exact ⟨rfl, deltaDomain_watts⟩

/-- The difference of the readings is what was consumed. -/
theorem call_advance (hs : Sampled (unitConfig archId reg) node) (i : Fin n) :
    Counter.advance (2 ^ 32)
        ((node.call (unitConfig archId reg) iv).rapl.data.pkg i).oldBits.toNat
        ((node.call (unitConfig archId reg) iv).rapl.data.pkg i).bits.toNat
      = (iv.used i).toNat := by
  rw [(call_frame iv hs i).1, hs.bits, (sampled_call _ node iv).bits, energyStatus_toNat,
    energyStatus_toNat]
  exact Counter.advance_mod (iv.used i).isLt

/-- **A call accounts for what was consumed exactly when no register wraps and
the unit has a positive value.** -/
theorem callAccounted_iff (hs : Sampled (unitConfig archId reg) node) :
    CallAccounted (unitConfig archId reg) reg node iv ↔ CallPre reg node iv := by
  refine forall_congr' fun i => ?_
  have hframe := call_frame iv hs i
  simp only [hframe.1, hframe.2, true_and, and_true]
  rw [← hframe.1, call_advance hs, call_deltaJoules hs]
  split
  · next hfit =>
      have hzero : (iv.used i).toNat = 0 ↔ iv.used i = 0 := BitVec.toNat_inj (y := 0)
      rw [div_shiftOne_eq_iff (energyUnit_lt _), Nat.cast_eq_zero, hzero]
      exact (and_iff_right hfit).symm
  · next hwrap =>
      have hr : node.energy i % 2 ^ 32 < 2 ^ 32 := Nat.mod_lt _ (by decide)
      exact iff_of_false (pred_div_shiftOne_ne (energyUnit_lt _) (by omega))
        fun h => hwrap h.1

end Call

end Variorum
