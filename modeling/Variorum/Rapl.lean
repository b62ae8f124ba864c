/-
Variorum/Rapl.lean

RAPL units and energy sampling: `translate`, `get_rapl_power_unit`,
`read_rapl_data`, `delta_rapl_data` and `get_power`.

`struct rapl_data` keeps the same quantities for the package and for the DRAM
of each socket.  They are one record here, `RaplDomain`, and what
`delta_rapl_data` does to the two is one function, `deltaDomain`.  The static
flags by which the functions recognise their first call are part of the state.

A call of `get_power` gets the time and the registers from outside
(`RaplSample`): `read_batch` succeeds and stores the registers in the `msrdata`
that `pkg_bits` and `dram_bits` point to.
-/
import Mathlib.Data.Nat.Log
import Variorum.Bits

namespace Variorum

/-! ### Units -/

/-- `struct rapl_units`. -/
structure RaplUnits where
  msrRaplPowerUnit : BitVec 64
  joules : ℚ
  seconds : ℚ
  watts : ℚ

/-- The units of one socket, from its `MSR_RAPL_POWER_UNIT`: the loop body of
`get_rapl_power_unit`. -/
def getRaplPowerUnit (reg : BitVec 64) : RaplUnits where
  msrRaplPowerUnit := reg
  seconds := shiftOne (maskVal reg 19 16).toNat
  joules := shiftOne (maskVal reg 12 8).toNat
  watts := 1 / shiftOne (maskVal reg 3 0).toNat

/-- `enum variorum_unit_conversions_e`. -/
inductive UnitConversion
  | bitsToWatts
  | wattsToBits
  | bitsToJoules
  | joulesToBits
  | bitsToSecondsStd
  | secondsToBitsStd
  | bitsToJoulesDram
  deriving DecidableEq, Repr

/-- `(uint64_t)log2(x)` before the conversion to unsigned, for positive `x`:
the fraction of the logarithm is cut off. -/
def truncLog2 (x : ℚ) : Int :=
  if 1 ≤ x then (Nat.log 2 ⌊x⌋.toNat : Int) else -(Nat.log 2 ⌊1 / x⌋.toNat : Int)

/-- Whether `log2(x) - (double)timeval_y > k / 20`.  A negative `timeval_y` has
become a huge unsigned number. -/
def logRemainderGt (x : ℚ) (y : Int) (k : Nat) : Bool :=
  0 ≤ y && decide ((2 : ℚ) ^ k < (x / 2 ^ y.toNat) ^ 20)

/-- `translate`: the cells behind `bits` and `units` after the conversion.
Architectures 63 and 79 (06_3F and 06_4F) have a fixed unit for the energy of
the DRAM. -/
def translate (archId : Nat) (ru : RaplUnits) (type : UnitConversion) (bits : BitVec 64)
    (units : ℚ) : BitVec 64 × ℚ :=
  match type with
  | .bitsToWatts => (bits, bits.toNat * ru.watts)
  | .bitsToJoulesDram =>
      if archId = 63 ∨ archId = 79 then (bits, bits.toNat / 65536)
      else (bits, bits.toNat / ru.joules)
  | .bitsToJoules => (bits, bits.toNat / ru.joules)
  | .wattsToBits => (truncBits (units / ru.watts), units)
  | .joulesToBits => (truncBits (units * ru.joules), units)
  | .bitsToSecondsStd =>
      let timevalY := (bits &&& 0x1F).toNat
      let timevalZ := ((bits &&& 0x60) >>> 5).toNat
      (bits, ((1 + (1 / 4) * timevalZ) * 2 ^ timevalY) / ru.seconds)
  | .secondsToBitsStd =>
      let timevalY := truncLog2 (units * ru.seconds)
      -- the thresholds 0.15, 0.45 and 0.7 in twentieths
      let gt := logRemainderGt (units * ru.seconds) timevalY
      let timevalZ : BitVec 64 :=
        if gt 3 && !gt 9 then 1 else if gt 9 && !gt 14 then 2 else if gt 14 then 3 else 0
      (BitVec.ofInt 64 timevalY ||| (timevalZ <<< 5), units)

/-- The energy status unit, bits 12:8 of the unit register. -/
def energyUnit (reg : BitVec 64) : Nat := (maskVal reg 12 8).toNat

theorem energyUnit_lt (reg : BitVec 64) : energyUnit reg < 32 := by
  rw [energyUnit, maskVal_toNat reg (by decide) (by decide)]
  exact Nat.mod_lt _ (by decide)

/-! ### Samples -/

/-- `struct timeval`. -/
structure Timeval where
  sec : Int
  usec : Int
  deriving DecidableEq, Repr

/-- Seconds from `old` to `now`. -/
def Timeval.since (now old : Timeval) : ℚ :=
  (now.sec - old.sec : Int) + (now.usec - old.usec : Int) / 1000000

/-- The data `struct rapl_data` keeps for one socket in one power domain. -/
structure RaplDomain where
  bits : BitVec 64
  oldBits : BitVec 64
  joules : ℚ
  oldJoules : ℚ
  deltaJoules : ℚ
  deltaBits : BitVec 64
  watts : ℚ

/-- A domain as `calloc` leaves it. -/
def RaplDomain.zero : RaplDomain := ⟨0, 0, 0, 0, 0, 0, 0⟩

/-- `struct rapl_data`, with the sockets as an index. -/
structure RaplData (n : Nat) where
  now : Timeval
  oldNow : Timeval
  elapsed : ℚ
  pkg : Fin n → RaplDomain
  dram : Fin n → RaplDomain

/-- The data and the `init` flags of `read_rapl_data` and `delta_rapl_data`. -/
structure RaplState (n : Nat) where
  data : RaplData n
  readInit : Bool
  deltaInit : Bool

/-- Before the first call; the data is not looked at. -/
def RaplState.start (n : Nat) : RaplState n where
  data := ⟨⟨0, 0⟩, ⟨0, 0⟩, 0, fun _ => .zero, fun _ => .zero⟩
  readInit := false
  deltaInit := false

/-- What a process finds: its processor model and the units in use. -/
structure RaplConfig (n : Nat) where
  archId : Nat
  ru : Fin n → RaplUnits

/-- What `gettimeofday` and `read_batch` deliver. -/
structure RaplSample (n : Nat) where
  now : Timeval
  pkg : Fin n → BitVec 64
  dram : Fin n → BitVec 64

namespace RaplDomain

/-- "Move current variables to old variables." -/
def age (x : RaplDomain) : RaplDomain := { x with oldBits := x.bits, oldJoules := x.joules }

/-- A register read into `bits` and translated into `joules`. -/
def load (archId : Nat) (ru : RaplUnits) (type : UnitConversion) (bits : BitVec 64)
    (x : RaplDomain) : RaplDomain :=
  { x with bits := bits, joules := (translate archId ru type bits x.joules).2 }

end RaplDomain

variable {n : Nat}

/-- `read_rapl_data`: the last sample becomes the old one, and a new one is read. -/
def readRaplData (cfg : RaplConfig n) (sample : RaplSample n) (s : RaplState n) : RaplState n :=
  let d := if s.readInit then s.data else (RaplState.start n).data
  let d := { d with oldNow := d.now, now := sample.now }
  let d :=
    if s.readInit then
      { d with
        elapsed := d.now.since d.oldNow
        pkg := fun i => (d.pkg i).age
        dram := fun i => (d.dram i).age }
    else d
  { s with
    readInit := true
    data := { d with
      pkg := fun i => (d.pkg i).load cfg.archId (cfg.ru i) .bitsToJoules (sample.pkg i)
      dram := fun i => (d.dram i).load cfg.archId (cfg.ru i) .bitsToJoulesDram (sample.dram i) } }

/-- `max_joules` as it enters the arithmetic: `(uint64_t)UINT_MAX`. -/
def maxJoules : BitVec 64 := 4294967295

/-- The loop body of `delta_rapl_data` for one domain of one socket. -/
def deltaDomain (archId : Nat) (ru : RaplUnits) (elapsed : ℚ) (x : RaplDomain) : RaplDomain :=
  let x :=
    if (x.bits.toNat : ℚ) - x.oldBits.toNat < 0 then
      -- "Check to see if there was wraparound"
      let deltaBits := (x.bits + maxJoules) - x.oldBits
      { x with
        deltaBits := deltaBits
        deltaJoules := (translate archId ru .bitsToJoules deltaBits x.deltaJoules).2 }
    else { x with deltaJoules := x.joules - x.oldJoules }
  { x with watts := if elapsed > 0 then x.deltaJoules / elapsed else 0 }

/-- `delta_rapl_data`: what changed between the two samples, and the power of it. -/
def deltaRaplData (cfg : RaplConfig n) (s : RaplState n) : RaplState n :=
  if s.deltaInit then
    { s with
      data := { s.data with
        pkg := fun i => deltaDomain cfg.archId (cfg.ru i) s.data.elapsed (s.data.pkg i)
        dram := fun i => deltaDomain cfg.archId (cfg.ru i) s.data.elapsed (s.data.dram i) } }
  else
    { s with
      deltaInit := true
      data := { s.data with
        elapsed := 0
        pkg := fun i => { s.data.pkg i with watts := 0 }
        dram := fun i => { s.data.dram i with watts := 0 } } }

/-- `get_power`: a sample, and the differences to the one before. -/
def getPower (cfg : RaplConfig n) (s : RaplState n) (sample : RaplSample n) : RaplState n :=
  deltaRaplData cfg (readRaplData cfg sample s)

end Variorum
