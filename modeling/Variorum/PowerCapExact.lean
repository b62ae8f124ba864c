/-
Variorum/PowerCapExact.lean

The power limit register of a package as `cap_package_power_limit` writes it
and as `get_package_rapl_limit` reads it back.

The register holds two limits of 32 bits each.  A cap replaces the lower half
and keeps the upper one, so the second limit survives it; the lower half is
made of the limit in power units, two enabling bits and the window of one
second in time units.  `capReg_*` says this field by field.

`get_package_rapl_limit` takes the same fields apart with the same table of
units, at offset 0 for the first limit and at offset 32 for the second, and so
finds what was asked for and what was there (`getPackageRaplLimit_capReg`).

All of this is about the register of the CPU that the socket number flattens
to.  `capExact_iff` says that this is the CPU of the socket as long as
`socket * ncores` fits in 32 bits, and that nothing else can go wrong.
-/
import Mathlib.Data.List.Induction
import Variorum.PowerCap

namespace Variorum

open History

/-! ### Reading a limit -/

/-- `calc_rapl_from_bits`.  What `translate` returns is always 0, and the result of
`sockets_assert` is dropped. -/
def calcRaplFromBits (e : MsrEnv) (socket : Nat) (limit : RaplLimit) (offset msr : Nat)
    (st : PowerState) : RaplLimit × PowerState :=
  let _ := socketsAssert e.topo (BitVec.ofNat 32 socket)
  let wattsBits := maskVal limit.bits (14 + offset) (0 + offset)
  let secondsBits := maskVal limit.bits (23 + offset) (17 + offset)
  let (ru, st) := translateUnits e msr st
  let watts := (translate 79 (getRaplPowerUnit (ru socket)) .bitsToWatts wattsBits limit.watts).2
  let (ru, st) := translateUnits e msr st
  let seconds :=
    (translate 79 (getRaplPowerUnit (ru socket)) .bitsToSecondsStd secondsBits limit.seconds).2
  ({ limit with watts := watts, seconds := seconds }, st)

/-- `read_msr_by_coord` into the `bits` of a limit; what it returns is dropped. -/
def readLimit (e : MsrEnv) (socket msrPowerLimit : Nat) (limit : RaplLimit) (st : PowerState) :
    RaplLimit × PowerState :=
  match readMsrByCoord e.topo e.driver (BitVec.ofNat 32 socket) 0#32 0#32 msrPowerLimit
      (some limit.bits) st.machine with
  | (_, bits, m) => ({ limit with bits := bits.getD limit.bits }, { st with machine := m })

/-- `if (limit != NULL) { .. }`. -/
def onLimit (f : RaplLimit → PowerState → RaplLimit × PowerState) (limit : Option RaplLimit)
    (st : PowerState) : Option RaplLimit × PowerState :=
  match limit with
  | none => (none, st)
  | some limit =>
      match f limit st with
      | (limit, st) => (some limit, st)

/-- `get_package_rapl_limit`.  It sets `translate_bits` on both limits, and then
`calc_package_rapl_limit` comes to `calc_rapl_from_bits` for each. -/
def getPackageRaplLimit (e : MsrEnv) (socket : Nat) (limit1 limit2 : Option RaplLimit)
    (msrPowerLimit msrRaplUnit : Nat) (st : PowerState) :
    Option RaplLimit × Option RaplLimit × PowerState :=
  let (limit1, st) := onLimit (readLimit e socket msrPowerLimit) limit1 st
  let (limit2, st) := onLimit (readLimit e socket msrPowerLimit) limit2 st
  let (limit1, st) := onLimit (calcRaplFromBits e socket · 0 msrRaplUnit) limit1 st
  let (limit2, st) := onLimit (calcRaplFromBits e socket · 32 msrRaplUnit) limit2 st
  (limit1, limit2, st)

/-- The limit at an offset of a register, in the units of `unitReg`. -/
def decodeLimit (unitReg bits : BitVec 64) (offset : Nat) : RaplLimit where
  bits := bits
  watts := (translate 79 (getRaplPowerUnit unitReg) .bitsToWatts
    (maskVal bits (14 + offset) (0 + offset)) 0).2
  seconds := (translate 79 (getRaplPowerUnit unitReg) .bitsToSecondsStd
    (maskVal bits (23 + offset) (17 + offset)) 0).2

/-! ### The window of one second -/

/-- The time unit, bits 19:16 of the unit register. -/
def timeUnit (reg : BitVec 64) : Nat := (maskVal reg 19 16).toNat

theorem timeUnit_lt (reg : BitVec 64) : timeUnit reg < 16 := by
  rw [timeUnit, maskVal_toNat reg (by decide) (by decide)]
  exact Nat.mod_lt _ (by decide)

theorem getRaplPowerUnit_seconds (reg : BitVec 64) :
    (getRaplPowerUnit reg).seconds = 2 ^ timeUnit reg := by
  have hlt := timeUnit_lt reg
  exact shiftOne_of_lt (show timeUnit reg < 31 by omega)

/-- The logarithm of a power of two is cut off nowhere. -/
theorem truncLog2_two_pow (k : Nat) : truncLog2 (2 ^ k) = k := by
  have hone : (1 : ℚ) ≤ 2 ^ k := one_le_pow₀ (by norm_num)
  have hfloor : ⌊(2 : ℚ) ^ k⌋ = ((2 ^ k : Nat) : Int) := by
    rw [← Int.floor_natCast (R := ℚ) (2 ^ k)]
    norm_cast
  rw [truncLog2, if_pos hone, hfloor, Int.toNat_natCast, Nat.log_pow (by decide)]

/-- A power of two leaves no remainder in the logarithm. -/
theorem logRemainderGt_two_pow (k j : Nat) : logRemainderGt (2 ^ k) k j = false := by
  have hdiv : (2 : ℚ) ^ k / 2 ^ (k : Int).toNat = 1 := by
    rw [Int.toNat_natCast]
    exact div_self (by positivity)
  have hone : (1 : ℚ) ≤ 2 ^ j := one_le_pow₀ (by norm_num)
  rw [logRemainderGt, hdiv, one_pow, decide_eq_false (not_lt.mpr hone), Bool.and_false]

/-- One second is `2 ^ TU` time units: exponent `TU`, multiplier 0. -/
theorem windowBits_eq (reg : BitVec 64) : windowBits reg = BitVec.ofNat 64 (timeUnit reg) := by
  show BitVec.ofInt 64 (truncLog2 (1 * (getRaplPowerUnit reg).seconds)) ||| _ = _
  rw [getRaplPowerUnit_seconds, one_mul, truncLog2_two_pow]
  simp only [logRemainderGt_two_pow, Bool.false_and, Bool.false_eq_true, if_false]
  rw [BitVec.ofInt_natCast]
  exact BitVec.or_zero

theorem windowBits_toNat (reg : BitVec 64) : (windowBits reg).toNat = timeUnit reg := by
  have hlt := timeUnit_lt reg
  rw [windowBits_eq, BitVec.toNat_ofNat]
  exact Nat.mod_eq_of_lt (by omega)

/-- The window read back is one second again. -/
theorem translate_windowBits (archId : Nat) (reg : BitVec 64) (units : ℚ) :
    (translate archId (getRaplPowerUnit reg) .bitsToSecondsStd (windowBits reg) units).2 = 1 := by
  have hy : (windowBits reg &&& 0x1F).toNat = timeUnit reg := by
    have hlt := timeUnit_lt reg
    rw [BitVec.toNat_and, windowBits_toNat]
    exact (Nat.and_two_pow_sub_one_eq_mod _ 5).trans (Nat.mod_eq_of_lt (by omega))
  have hz : ((windowBits reg &&& 0x60) >>> 5).toNat = 0 := by
    have hnone : ∀ tu < 16, (BitVec.ofNat 64 tu &&& 0x60) >>> 5 = 0 := by decide
    rw [windowBits_eq, hnone _ (timeUnit_lt reg)]
    rfl
  show (1 + 1 / 4 * ((_ : Nat) : ℚ)) * 2 ^ (_ : Nat) / (getRaplPowerUnit reg).seconds = 1
  rw [hy, hz, getRaplPowerUnit_seconds]
  field_simp
  norm_num

/-! ### The register after a cap -/

/-- The value a cap of `watts` writes over `v` in the units of `unitReg`. -/
def capReg (unitReg v : BitVec 64) (watts : BitVec 32) : BitVec 64 :=
  limitReg v (wattsBits unitReg watts) (windowBits unitReg)

/-- The register holds the cap field by field: `v` is what it held before. -/
structure RegCapped (unitReg v : BitVec 64) (watts : BitVec 32) (reg : BitVec 64) : Prop where
  upper : maskVal reg 63 32 = maskVal v 63 32
  limit : ((maskVal reg 14 0).toNat : Int) = watts.toInt * 2 ^ powerUnit unitReg
  enabled : reg.getLsbD 15 = true
  clamped : reg.getLsbD 16 = true
  window : (decodeLimit unitReg reg 0).seconds = 1
  unused : maskVal reg 31 24 = 0

section Fields

variable {unitReg v : BitVec 64} {watts : BitVec 32}

/-- **The register bit by bit.** -/
theorem capReg_getLsbD (h : Encodable unitReg watts) (v : BitVec 64) {i : Nat} (hi : i < 64) :
    (capReg unitReg v watts).getLsbD i
      = if i < 15 then (wattsBits unitReg watts).getLsbD i
        else if i < 17 then true
        else if i < 24 then (windowBits unitReg).getLsbD (i - 17)
        else if i < 32 then false
        else v.getLsbD i := by
  have hupper : ∀ i, (0xFFFFFFFF00000000 : BitVec 64).getLsbD i
      = (decide (32 ≤ i) && decide (i ≤ 63)) := by
    intro i
    rw [← maskRange_getLsbD (show 32 ≤ 63 by decide) (show 63 < 64 by decide)]
    exact congrArg (BitVec.getLsbD · i) (show _ = maskRange 63 32 by decide)
  have hone : ∀ k < 17, (1#64 <<< k).getLsbD i = decide (i = k) := by
    intro k hk
    rw [← BitVec.twoPow_eq, BitVec.getLsbD_twoPow]
    grind
  have hwatts : ∀ i, 15 ≤ i → (wattsBits unitReg watts).getLsbD i = false := by
    intro i hi
    have hle := wattsBits_toNat_le_iff.mpr h
    exact getLsbD_of_toNat_lt (by omega) hi
  have hwindow : ∀ i, 7 ≤ i → (windowBits unitReg).getLsbD i = false := by
    intro i hi
    have hlt := timeUnit_lt unitReg
    exact getLsbD_of_toNat_lt (windowBits_toNat unitReg ▸ (by omega)) hi
  simp only [capReg, limitReg, BitVec.getLsbD_or, BitVec.getLsbD_and, hone 15 (by decide),
    hone 16 (by decide), BitVec.getLsbD_shiftLeft, BitVec.getLsbD_zero]
  grind

/-- The second limit survives: fields of the upper half are those of `v`. -/
theorem capReg_upper (h : Encodable unitReg watts) (v : BitVec 64) {m n : Nat} (hn : 32 ≤ n)
    (hnm : n ≤ m) (hm : m < 64) :
    maskVal (capReg unitReg v watts) m n = maskVal v m n := by
  apply BitVec.eq_of_getLsbD_eq
  intro i _
  rw [maskVal_getLsbD _ hnm hm, maskVal_getLsbD _ hnm hm]
  rcases Nat.lt_or_ge (m - n) i with hi | hi
  · rw [decide_eq_false (Nat.not_le.mpr hi), Bool.false_and, Bool.false_and]
  · rw [capReg_getLsbD h v (show n + i < 64 by omega)]
    grind

theorem capReg_limit (h : Encodable unitReg watts) (v : BitVec 64) :
    maskVal (capReg unitReg v watts) 14 0 = wattsBits unitReg watts :=
  limitReg_limit _ _ (wattsBits_toNat_le_iff.mpr h)

theorem capReg_window (h : Encodable unitReg watts) (v : BitVec 64) :
    maskVal (capReg unitReg v watts) 23 17 = windowBits unitReg := by
  apply BitVec.eq_of_getLsbD_eq
  intro i _
  rw [maskVal_getLsbD _ (by decide) (by decide)]
  rcases Nat.lt_or_ge 6 i with hi | hi
  · have hhigh : (windowBits unitReg).getLsbD i = false := by
      have hlt := timeUnit_lt unitReg
      exact getLsbD_of_toNat_lt (windowBits_toNat unitReg ▸ (by omega)) (show 7 ≤ i from hi)
    rw [hhigh]
    grind
  · rw [capReg_getLsbD h v (show 17 + i < 64 by omega)]
    grind

theorem capReg_unused (h : Encodable unitReg watts) (v : BitVec 64) :
    maskVal (capReg unitReg v watts) 31 24 = 0 := by
  apply BitVec.eq_of_getLsbD_eq
  intro i _
  rw [maskVal_getLsbD _ (by decide) (by decide), BitVec.ofNat_eq_ofNat, BitVec.getLsbD_zero]
  rcases Nat.lt_or_ge 7 i with hi | hi
  · rw [decide_eq_false (by omega), Bool.false_and]
  · rw [capReg_getLsbD h v (show 24 + i < 64 by omega)]
    grind

/-- The first limit read back is the one asked for. -/
theorem decodeLimit_capReg (h : Encodable unitReg watts) (v : BitVec 64) :
    (decodeLimit unitReg (capReg unitReg v watts) 0).watts = watts.toInt ∧
      (decodeLimit unitReg (capReg unitReg v watts) 0).seconds = 1 := by
  constructor
  · show ((maskVal (capReg unitReg v watts) 14 0).toNat : ℚ) * (getRaplPowerUnit unitReg).watts = _
    have hfield : ((wattsBits unitReg watts).toNat : ℚ) = watts.toInt * 2 ^ powerUnit unitReg := by
      exact_mod_cast wattsBits_toNat h
    rw [capReg_limit h, hfield, getRaplPowerUnit_watts]
    field_simp
  · show (translate 79 _ .bitsToSecondsStd (maskVal (capReg unitReg v watts) 23 17) 0).2 = 1
    rw [capReg_window h]
    exact translate_windowBits _ _ _

/-- The second limit read back is the one that was there. -/
theorem decodeLimit_capReg_upper (h : Encodable unitReg watts) (v : BitVec 64) :
    (decodeLimit unitReg (capReg unitReg v watts) 32).watts = (decodeLimit unitReg v 32).watts ∧
      (decodeLimit unitReg (capReg unitReg v watts) 32).seconds
        = (decodeLimit unitReg v 32).seconds := by
  unfold decodeLimit
  rw [capReg_upper h v (by decide) (by decide) (by decide),
    capReg_upper h v (by decide) (by decide) (by decide)]
  exact ⟨rfl, rfl⟩

/-- **What a cap leaves in the register.** -/
theorem regCapped_capReg (h : Encodable unitReg watts) (v : BitVec 64) :
    RegCapped unitReg v watts (capReg unitReg v watts) where
  upper := capReg_upper h v (by decide) (by decide) (by decide)
  limit := by
    rw [capReg_limit h]
    exact wattsBits_toNat h
  enabled := capReg_getLsbD h v (by decide)
  clamped := capReg_getLsbD h v (by decide)
  window := (decodeLimit_capReg h v).2
  unused := capReg_unused h v

/-- A second cap finds nothing of the first but what it keeps. -/
theorem capReg_capReg {watts' : BitVec 32} (h : Encodable unitReg watts) (v : BitVec 64)
    (h' : Encodable unitReg watts') :
    capReg unitReg (capReg unitReg v watts) watts' = capReg unitReg v watts' := by
  apply BitVec.eq_of_getLsbD_eq
  intro i hi
  rw [capReg_getLsbD h' _ hi, capReg_getLsbD h' v hi, capReg_getLsbD h v hi]
  grind

end Fields

/-! ### Calls with the units at hand -/

section Cached

variable {e : MsrEnv} {socket msrPowerLimit msrRaplUnit : Nat} {watts : BitVec 32}
variable {st st' : PowerState} {ru : Nat → BitVec 64}

/-- A call with the table there already: a read, and a write unless the limit does
not fit. -/
theorem capPackagePowerLimit_cached (hs : socket < e.topo.nsockets) (hru : st.ru = some ru)
    (watts : BitVec 32) (msrPowerLimit msrRaplUnit : Nat) :
    capPackagePowerLimit e socket watts msrPowerLimit msrRaplUnit st
      = let st' := st.logged ⟨.read, socketIndex e.topo socket, msrPowerLimit⟩
        if Encodable (ru socket) watts then
          let w := st'.machine.pwrite e.driver (socketIndex e.topo socket) msrPowerLimit
            (capReg (ru socket) (currentval e msrPowerLimit st socket) watts)
          ((if ReadRefused e msrPowerLimit st socket then VariorumError.msrRead.code else 0) +
              (if w.1 then 0 else VariorumError.msrWrite.code),
            { st' with machine := w.2 })
        else (-1, { st' with tooLarge := st'.tooLarge ++ [socket] }) := by
  have htable : translateUnits e msrRaplUnit
      (st.logged ⟨.read, socketIndex e.topo socket, msrPowerLimit⟩)
        = (ru, st.logged ⟨.read, socketIndex e.topo socket, msrPowerLimit⟩) :=
    translateUnits_of_some hru
  rw [capPackagePowerLimit_eq hs, htable]
  rfl

/-- The history grows and the table stays, whatever happens. -/
theorem capPackagePowerLimit_keeps (hs : socket < e.topo.nsockets) (hru : st.ru = some ru)
    (hst' : (capPackagePowerLimit e socket watts msrPowerLimit msrRaplUnit st).2 = st') :
    st.machine.log <+: st'.machine.log ∧ st'.ru = some ru := by
  rw [capPackagePowerLimit_cached hs hru] at hst'
  simp only at hst'
  split at hst'
  · subst hst'
    refine ⟨?_, hru⟩
    rw [Machine.pwrite_log]
    exact (List.prefix_append _ _).trans (List.prefix_append _ _)
  · subst hst'
    exact ⟨List.prefix_append _ _, hru⟩

/-- **A cap that fits**, when its read and its write are let through. -/
theorem capPackagePowerLimit_of_encodable (msrPowerLimit msrRaplUnit : Nat)
    (hs : socket < e.topo.nsockets) (hru : st.ru = some ru) (henc : Encodable (ru socket) watts)
    (hclean : st.machine.Clean e.driver
      (capPackagePowerLimit e socket watts msrPowerLimit msrRaplUnit st).2.machine) :
    (capPackagePowerLimit e socket watts msrPowerLimit msrRaplUnit st).1 = 0 ∧
      (capPackagePowerLimit e socket watts msrPowerLimit msrRaplUnit st).2.machine.msr
        = st.machine.store (socketIndex e.topo socket) msrPowerLimit
          (capReg (ru socket) (st.machine.msr (socketIndex e.topo socket) msrPowerLimit)
            watts) := by
  rw [capPackagePowerLimit_cached hs hru] at hclean ⊢
  simp only [if_pos henc] at hclean ⊢
  have hacc : Accepted e.driver.fails st.machine.log.length
      [⟨.read, socketIndex e.topo socket, msrPowerLimit⟩,
        ⟨.write, socketIndex e.topo socket, msrPowerLimit⟩] := by
    rw [← clean_append_iff]
    unfold Machine.Clean at hclean
    rw [Machine.pwrite_log] at hclean
    simpa [PowerState.logged] using hclean
  obtain ⟨hread, hwrite, -⟩ := hacc
  have hok : ReadRefused e msrPowerLimit st socket = false := hread
  have hval : currentval e msrPowerLimit st socket
      = st.machine.msr (socketIndex e.topo socket) msrPowerLimit :=
    if_neg (by rw [hok]; exact Bool.false_ne_true)
  have hwrite' : e.driver.fails
      (st.logged ⟨.read, socketIndex e.topo socket, msrPowerLimit⟩).machine.log.length
      ⟨.write, socketIndex e.topo socket, msrPowerLimit⟩ = false := by
    show e.driver.fails (st.machine.log ++ [_]).length _ = false
    rw [List.length_append]
    exact hwrite
  rw [Machine.pwrite_of_ok _ _ _ _ _ hwrite', hok, hval]
  exact ⟨rfl, rfl⟩

/-- **A cap that does not fit** returns -1 and changes no register. -/
theorem capPackagePowerLimit_of_not_encodable (msrPowerLimit msrRaplUnit : Nat)
    (hs : socket < e.topo.nsockets) (hru : st.ru = some ru) (henc : ¬ Encodable (ru socket) watts) :
    (capPackagePowerLimit e socket watts msrPowerLimit msrRaplUnit st).1 = -1 ∧
      (capPackagePowerLimit e socket watts msrPowerLimit msrRaplUnit st).2.machine.msr
        = st.machine.msr := by
  have heq := capPackagePowerLimit_cached hs hru watts msrPowerLimit msrRaplUnit
  simp only [if_neg henc] at heq
  rw [heq]
  exact ⟨rfl, rfl⟩

theorem readLimit_eq (hs : socket < e.topo.nsockets) (limit : RaplLimit) (st : PowerState) :
    readLimit e socket msrPowerLimit limit st
      = ({ limit with
            bits := if ReadRefused e msrPowerLimit st socket then limit.bits
              else st.machine.msr (socketIndex e.topo socket) msrPowerLimit },
          st.logged ⟨.read, socketIndex e.topo socket, msrPowerLimit⟩) := by
  unfold readLimit
  rw [readMsrByCoord_socket hs]
  cases h : ReadRefused e msrPowerLimit st socket <;>
    unfold ReadRefused at h <;>
    simp [Machine.pread, h, PowerState.logged]

theorem calcRaplFromBits_cached (hru : st.ru = some ru) (limit : RaplLimit) (offset : Nat) :
    calcRaplFromBits e socket limit offset msrRaplUnit st
      = (decodeLimit (ru socket) limit.bits offset, st) := by
  simp only [calcRaplFromBits, translateUnits_of_some hru]
  rfl

/-- **`get_package_rapl_limit`**: the register taken apart twice, when its two reads
are let through. -/
theorem getPackageRaplLimit_cached (hs : socket < e.topo.nsockets) (hru : st.ru = some ru)
    (limit1 limit2 : RaplLimit)
    (hclean : st.machine.Clean e.driver
      (getPackageRaplLimit e socket (some limit1) (some limit2) msrPowerLimit msrRaplUnit
        st).2.2.machine) :
    let reg := st.machine.msr (socketIndex e.topo socket) msrPowerLimit
    ∃ st', getPackageRaplLimit e socket (some limit1) (some limit2) msrPowerLimit msrRaplUnit st
      = (some (decodeLimit (ru socket) reg 0), some (decodeLimit (ru socket) reg 32), st') := by
  have hru' : ((st.logged ⟨.read, socketIndex e.topo socket, msrPowerLimit⟩).logged
      ⟨.read, socketIndex e.topo socket, msrPowerLimit⟩).ru = some ru := hru
  simp only [getPackageRaplLimit, onLimit, readLimit_eq hs, calcRaplFromBits_cached hru']
    at hclean ⊢
  have hacc : Accepted e.driver.fails st.machine.log.length
      [⟨.read, socketIndex e.topo socket, msrPowerLimit⟩,
        ⟨.read, socketIndex e.topo socket, msrPowerLimit⟩] := by
    rw [← clean_append_iff]
    simpa [Machine.Clean, PowerState.logged] using hclean
  obtain ⟨hfirst, hsecond, -⟩ := hacc
  have hok : ReadRefused e msrPowerLimit st socket = false := hfirst
  have hok' : ReadRefused e msrPowerLimit
      (st.logged ⟨.read, socketIndex e.topo socket, msrPowerLimit⟩) socket = false := by
    show e.driver.fails (st.machine.log ++ [_]).length _ = false
    rw [List.length_append]
    exact hsecond
  rw [hok, hok']
  exact ⟨_, rfl⟩

end Cached

/-! ### The exact read-modify-write -/

/-- What is said of a call that returned `ret` and went from `st` to `st'`: `unitReg`
has the units of the socket, and `v` is what was in its limit register. -/
structure CallExact (e : MsrEnv) (socket msrPowerLimit msrRaplUnit : Nat) (unitReg : BitVec 64)
    (watts : BitVec 32) (st : PowerState) (ret : Int) (st' : PowerState) : Prop where
  tooLarge : 32767 < watts.toInt * 2 ^ powerUnit unitReg →
    ret = -1 ∧ st'.machine.msr = st.machine.msr
  returns : watts.toInt * 2 ^ powerUnit unitReg ≤ 32767 → ret = 0
  frame : watts.toInt * 2 ^ powerUnit unitReg ≤ 32767 →
    ∀ cpu msr, cpu ≠ e.topo.cpu socket 0 0 ∨ msr ≠ msrPowerLimit →
      st'.machine.msr cpu msr = st.machine.msr cpu msr
  reg : watts.toInt * 2 ^ powerUnit unitReg ≤ 32767 →
    RegCapped unitReg (st.machine.msr (e.topo.cpu socket 0 0) msrPowerLimit) watts
      (st'.machine.msr (e.topo.cpu socket 0 0) msrPowerLimit)
  decode : watts.toInt * 2 ^ powerUnit unitReg ≤ 32767 →
    ∀ given1 given2 limit1 limit2 st'',
      getPackageRaplLimit e socket (some given1) (some given2) msrPowerLimit msrRaplUnit st'
        = (limit1, limit2, st'') → st'.machine.Clean e.driver st''.machine →
      ∃ l1 l2, limit1 = some l1 ∧ limit2 = some l2 ∧ l1.watts = watts.toInt ∧ l1.seconds = 1 ∧
        ∀ before1 before2 st₀,
          getPackageRaplLimit e socket (some given1) (some given2) msrPowerLimit msrRaplUnit st
            = (before1, before2, st₀) → st.machine.Clean e.driver st₀.machine →
          ∃ l, before2 = some l ∧ l2.watts = l.watts ∧ l2.seconds = l.seconds

/-- Caps of one socket in a row: the watts of the last that returned 0, and the
state after them. -/
def capRun (e : MsrEnv) (socket msrPowerLimit msrRaplUnit : Nat) (ws : List (BitVec 32))
    (st : PowerState) : Option (BitVec 32) × PowerState :=
  ws.foldl
    (fun (last, st) watts =>
      match capPackagePowerLimit e socket watts msrPowerLimit msrRaplUnit st with
      | (ret, st) => (if ret = 0 then some watts else last, st))
    (none, st)

/-- The read-modify-write of a socket is exact: for all register contents and all
units in the table, whatever is let through is as `CallExact` says, and of caps
in a row the last that succeeded has the say, as if it had been the only one.  In
particular a repeated cap changes nothing. -/
structure CapExact (t : Topology) (socket msrPowerLimit msrRaplUnit : Nat) : Prop where
  call : ∀ (d : Driver) (batchfd : Bool) (st : PowerState) (ru : Nat → BitVec 64)
    (watts : BitVec 32) (ret : Int) (st' : PowerState),
    st.ru = some ru → 0 ≤ watts.toInt →
    capPackagePowerLimit ⟨t, d, batchfd⟩ socket watts msrPowerLimit msrRaplUnit st = (ret, st') →
    st.machine.Clean d st'.machine →
    CallExact ⟨t, d, batchfd⟩ socket msrPowerLimit msrRaplUnit (ru socket) watts st ret st'
  run : ∀ (d : Driver) (batchfd : Bool) (st : PowerState) (ru : Nat → BitVec 64)
    (ws : List (BitVec 32)) (last : Option (BitVec 32)) (st' : PowerState),
    st.ru = some ru → (∀ watts ∈ ws, 0 ≤ watts.toInt) →
    capRun ⟨t, d, batchfd⟩ socket msrPowerLimit msrRaplUnit ws st = (last, st') →
    st.machine.Clean d st'.machine →
    match last with
    | none => st'.machine.msr = st.machine.msr
    | some watts => ∀ ret st₁,
        capPackagePowerLimit ⟨t, d, batchfd⟩ socket watts msrPowerLimit msrRaplUnit st
          = (ret, st₁) →
        st.machine.Clean d st₁.machine → st'.machine.msr = st₁.machine.msr

/-! ### One call -/

section Exact

variable {e : MsrEnv} {socket : Nat} {ru : Nat → BitVec 64} {st : PowerState}

/-- For a number of watts that is not negative, to be encodable is to fit. -/
theorem encodable_iff_of_nonneg {unitReg : BitVec 64} {watts : BitVec 32} (h : 0 ≤ watts.toInt) :
    Encodable unitReg watts ↔ watts.toInt * 2 ^ powerUnit unitReg ≤ 32767 := by
  rw [Encodable, and_iff_right h]
  exact Int.lt_add_one_iff (b := 32767)

/-- **A call on a socket whose number flattens to its CPU is exact.** -/
theorem callExact_of_fits (hs : socket < e.topo.nsockets) (hfit : socket * e.topo.ncores < 2 ^ 32)
    (hru : st.ru = some ru) {watts : BitVec 32} (hwatts : 0 ≤ watts.toInt)
    {msrPowerLimit msrRaplUnit : Nat} {ret : Int} {st' : PowerState}
    (hcall : capPackagePowerLimit e socket watts msrPowerLimit msrRaplUnit st = (ret, st'))
    (hclean : st.machine.Clean e.driver st'.machine) :
    CallExact e socket msrPowerLimit msrRaplUnit (ru socket) watts st ret st' := by
  have hcpu : socketIndex e.topo socket = e.topo.cpu socket 0 0 := socketIndex_of_fits hs hfit
  have hru' : st'.ru = some ru := (capPackagePowerLimit_keeps hs hru (by rw [hcall])).2
  -- what a call that fits does, with the CPU of the socket in place of the index
  have hdone : watts.toInt * 2 ^ powerUnit (ru socket) ≤ 32767 →
      Encodable (ru socket) watts ∧ ret = 0 ∧ st'.machine.msr
        = st.machine.store (e.topo.cpu socket 0 0) msrPowerLimit
          (capReg (ru socket) (st.machine.msr (e.topo.cpu socket 0 0) msrPowerLimit) watts) := by
    intro hle
    have henc := (encodable_iff_of_nonneg hwatts).mpr hle
    have hspec := capPackagePowerLimit_of_encodable msrPowerLimit msrRaplUnit hs hru henc
      (by rw [hcall]; exact hclean)
    rw [hcall, hcpu] at hspec
    exact ⟨henc, hspec⟩
  constructor
  case tooLarge =>
    intro hlarge
    have henc : ¬ Encodable (ru socket) watts :=
      fun h => absurd ((encodable_iff_of_nonneg hwatts).mp h) (not_le.mpr hlarge)
    have hspec := capPackagePowerLimit_of_not_encodable msrPowerLimit msrRaplUnit hs hru henc
    rwa [hcall] at hspec
  case returns =>
    intro hle
    exact (hdone hle).2.1
  case frame =>
    intro hle cpu msr hne
    rw [(hdone hle).2.2]
    exact Machine.store_of_ne _ _ _ _ hne
  case reg =>
    intro hle
    obtain ⟨henc, -, hmsr⟩ := hdone hle
    rw [hmsr, Machine.store_self]
    exact regCapped_capReg henc _
  case decode =>
    intro hle given1 given2 limit1 limit2 st'' hget hcleanGet
    obtain ⟨henc, -, hmsr⟩ := hdone hle
    obtain ⟨st₁, hread⟩ := getPackageRaplLimit_cached hs hru' given1 given2
      (by rw [hget]; exact hcleanGet)
    rw [hget, hcpu, hmsr, Machine.store_self] at hread
    obtain ⟨rfl, rfl, rfl⟩ : _ ∧ _ ∧ _ := by simpa using hread
    refine ⟨_, _, rfl, rfl, (decodeLimit_capReg henc _).1, (decodeLimit_capReg henc _).2, ?_⟩
    intro before1 before2 st₀ hbefore hcleanBefore
    obtain ⟨st₂, hread₀⟩ := getPackageRaplLimit_cached hs hru given1 given2
      (by rw [hbefore]; exact hcleanBefore)
    rw [hbefore, hcpu] at hread₀
    obtain ⟨rfl, rfl, rfl⟩ : _ ∧ _ ∧ _ := by simpa using hread₀
    exact ⟨_, rfl, decodeLimit_capReg_upper henc _⟩

/-! ### Calls in a row -/

variable {msrPowerLimit msrRaplUnit : Nat}

theorem capRun_concat (ws : List (BitVec 32)) (watts : BitVec 32) :
    capRun e socket msrPowerLimit msrRaplUnit (ws ++ [watts]) st
      = match capRun e socket msrPowerLimit msrRaplUnit ws st with
        | (last, st) =>
            match capPackagePowerLimit e socket watts msrPowerLimit msrRaplUnit st with
            | (ret, st) => (if ret = 0 then some watts else last, st) := by
  rw [capRun, List.foldl_concat]
  rfl

/-- A later store to the same register leaves nothing of an earlier one. -/
theorem Machine.store_store {m m' : Machine} {cpu msr : Nat} {val : BitVec 64}
    (h : m'.msr = m.store cpu msr val) (val' : BitVec 64) :
    m'.store cpu msr val' = m.store cpu msr val' := by
  simp only [store, h, Function.update_self, Function.update_idem]

/-- The registers as the cap of one number of watts leaves them, or none. -/
def capOver (unitReg : BitVec 64) (m : Machine) (cpu msr : Nat) :
    Option (BitVec 32) → Nat → Nat → BitVec 64
  | none => m.msr
  | some watts => m.store cpu msr (capReg unitReg (m.msr cpu msr) watts)

/-- A further cap replaces the one before it. -/
theorem capOver_capOver {unitReg : BitVec 64} {m m' : Machine} {cpu msr : Nat}
    {last : Option (BitVec 32)} {watts : BitVec 32} (h : m'.msr = capOver unitReg m cpu msr last)
    (hlast : ∀ w, last = some w → Encodable unitReg w) (hwatts : Encodable unitReg watts) :
    m'.store cpu msr (capReg unitReg (m'.msr cpu msr) watts)
      = capOver unitReg m cpu msr (some watts) := by
  cases last with
  | none => rw [Machine.store, show m'.msr = m.msr from h, capOver, Machine.store]
  | some w =>
      rw [Machine.store_store h, h, capOver, Machine.store_self,
        capReg_capReg (hlast w rfl) _ hwatts]
      rfl

/-- **Caps in a row**: by induction on the calls, the last one on its own.  The
register is as the last cap that succeeded would have left it on the contents
the run started from. -/
theorem capRun_spec (hs : socket < e.topo.nsockets) (hru : st.ru = some ru)
    {ws : List (BitVec 32)} {last : Option (BitVec 32)} {st' : PowerState}
    (hrun : capRun e socket msrPowerLimit msrRaplUnit ws st = (last, st')) :
    st.machine.log <+: st'.machine.log ∧ st'.ru = some ru ∧
      (st.machine.Clean e.driver st'.machine →
        (∀ watts, last = some watts → Encodable (ru socket) watts) ∧
          st'.machine.msr
            = capOver (ru socket) st.machine (socketIndex e.topo socket) msrPowerLimit last) := by
  -- by induction on the calls from the last one back: what counts is the last that could be
  -- encoded
  induction ws using List.reverseRecOn generalizing last st' with
  | nil =>
      obtain ⟨rfl, rfl⟩ := Prod.mk.inj hrun
      exact ⟨List.prefix_refl _, hru, fun _ => ⟨nofun, rfl⟩⟩
  | append_singleton ws watts ih =>
      rw [capRun_concat] at hrun
      rcases hrun₁ : capRun e socket msrPowerLimit msrRaplUnit ws st with ⟨last₁, st₁⟩
      obtain ⟨hgrows, hru₁, hih⟩ := ih hrun₁
      rcases hcall : capPackagePowerLimit e socket watts msrPowerLimit msrRaplUnit st₁ with
        ⟨ret, st₂⟩
      simp only [hrun₁, hcall] at hrun
      obtain ⟨hlast, rfl⟩ := Prod.mk.inj hrun
      have hkeeps := capPackagePowerLimit_keeps hs hru₁ (show _ = st₂ by rw [hcall])
      refine ⟨hgrows.trans hkeeps.1, hkeeps.2, fun hclean => ?_⟩
      obtain ⟨hclean₁, hclean₂⟩ := (clean_trans_iff hgrows hkeeps.1).mp hclean
      obtain ⟨hlast₁, hmsr₁⟩ := hih hclean₁
      by_cases henc : Encodable (ru socket) watts
      · -- this call succeeds, on what the run before it has left
        have hspec := capPackagePowerLimit_of_encodable msrPowerLimit msrRaplUnit hs hru₁ henc
          (by rw [hcall]; exact hclean₂)
        rw [hcall] at hspec
        rw [if_pos hspec.1] at hlast
        subst hlast
        refine ⟨fun w hw => Option.some.inj hw ▸ henc, ?_⟩
        exact hspec.2.trans (capOver_capOver hmsr₁ hlast₁ henc)
      -- a call that is refused leaves the cap of the run before it
      · have hspec := capPackagePowerLimit_of_not_encodable msrPowerLimit msrRaplUnit hs hru₁ henc
        rw [hcall] at hspec
        have hret : ret ≠ 0 := by
          rw [show ret = -1 from hspec.1]
          decide
        rw [if_neg hret] at hlast
        subst hlast
        exact ⟨hlast₁, hspec.2.trans hmsr₁⟩

end Exact

/-- **The read-modify-write of a socket whose number flattens to its CPU is exact.** -/
theorem capExact_of_fits {t : Topology} {socket : Nat} (hs : socket < t.nsockets)
    (hfit : socket * t.ncores < 2 ^ 32) (msrPowerLimit msrRaplUnit : Nat) :
    CapExact t socket msrPowerLimit msrRaplUnit := by
  constructor
  case call =>
    intro d batchfd st ru watts ret st' hru hwatts hcall hclean
    exact callExact_of_fits (e := ⟨t, d, batchfd⟩) hs hfit hru hwatts hcall hclean
  case run =>
    intro d batchfd st ru ws last st' hru hws hrun hclean
    have hspec := (capRun_spec (e := ⟨t, d, batchfd⟩) hs hru hrun).2.2 hclean
    obtain ⟨hlast, hmsr⟩ := hspec
    cases last with
    | none => exact hmsr
    | some watts =>
        intro ret st₁ hcall hclean₁
        have henc := hlast watts rfl
        have honce := (capPackagePowerLimit_of_encodable (e := ⟨t, d, batchfd⟩) msrPowerLimit
          msrRaplUnit hs hru henc (by rw [hcall]; exact hclean₁)).2
        rw [hcall] at honce
        exact hmsr.trans honce.symm

/-! ### The socket number -/

/-- Registers that hold 0, and units that are 1 watt and 1 second. -/
def zeroState : PowerState where
  machine := ⟨fun _ _ => 0, []⟩
  unitData _ := 0
  ru := some fun _ => 0
  tooLarge := []

/-- A cap of 1 watt on registers that hold 0: it returns 0, having written to the CPU
its socket number flattens to. -/
theorem capPackagePowerLimit_zeroState {t : Topology} {socket : Nat} (hs : socket < t.nsockets)
    (msrPowerLimit msrRaplUnit : Nat) :
    capPackagePowerLimit ⟨t, ⟨fun _ _ => false⟩, false⟩ socket 1 msrPowerLimit msrRaplUnit zeroState
      = (0, { zeroState with
          machine := ⟨zeroState.machine.store (socketIndex t socket) msrPowerLimit (capReg 0 0 1),
            [⟨.read, socketIndex t socket, msrPowerLimit⟩,
              ⟨.write, socketIndex t socket, msrPowerLimit⟩]⟩ }) := by
  rw [capPackagePowerLimit_cached (e := ⟨t, ⟨fun _ _ => false⟩, false⟩) hs
    (show _ = some _ from rfl)]
  simp only [if_pos (show Encodable 0 1 by decide)]
  rfl

/-- **Where the socket number overflows, another CPU gets the cap.** -/
theorem not_capExact_of_overflow {t : Topology} {socket : Nat} (hs : socket < t.nsockets)
    (hover : 2 ^ 32 ≤ socket * t.ncores) (msrPowerLimit msrRaplUnit : Nat) :
    ¬ CapExact t socket msrPowerLimit msrRaplUnit := by
  intro h
  have hcall := capPackagePowerLimit_zeroState hs msrPowerLimit msrRaplUnit
  have hclean : zeroState.machine.Clean ⟨fun _ _ => false⟩
      ⟨zeroState.machine.store (socketIndex t socket) msrPowerLimit (capReg 0 0 1),
        [⟨.read, socketIndex t socket, msrPowerLimit⟩,
          ⟨.write, socketIndex t socket, msrPowerLimit⟩]⟩ :=
    ⟨_, rfl, rfl, rfl, trivial⟩
  have hexact := h.call _ _ _ _ _ _ _ rfl (by decide) hcall hclean
  have henabled : (zeroState.machine.store (socketIndex t socket) msrPowerLimit (capReg 0 0 1)
      (t.cpu socket 0 0) msrPowerLimit).getLsbD 15 = true := (hexact.reg (by decide)).enabled
  have hcpu : socketIndex t socket ≠ t.cpu socket 0 0 := by
    have hlt := flatIndex_lt_of_overflow t (BitVec.ofNat 32 socket) 0#32 0#32
      (by rwa [socket_toNat hs])
    rw [socket_toNat hs] at hlt
    exact Nat.ne_of_lt hlt
  -- the register of the socket's own CPU still holds 0
  rw [Machine.store_of_ne _ _ _ _ (.inl hcpu.symm)] at henabled
  rw [show zeroState.machine.msr _ _ = 0 from rfl, BitVec.ofNat_eq_ofNat, BitVec.getLsbD_zero]
    at henabled
  exact Bool.false_ne_true henabled

/-- **The power limit register is read, modified and written exactly** on every
socket whose number times the number of cores fits in 32 bits, and on no
other. -/
theorem capExact_iff (t : Topology) (socket : Fin t.nsockets) (msrPowerLimit msrRaplUnit : Nat) :
    CapExact t socket msrPowerLimit msrRaplUnit ↔ socket * t.ncores < 2 ^ 32 := by
  constructor
  · intro h
    by_contra hover
    exact not_capExact_of_overflow socket.isLt (not_lt.mp hover) _ _ h
  · intro hfit
    exact capExact_of_fits socket.isLt hfit _ _

theorem manySockets_pos : 0 < 65537 := by decide

theorem manySockets_dvd : 65537 ∣ 65537 := dvd_rfl

theorem manySockets_lt : 65537 < 2 ^ 31 := by decide

/-- A node of 65537 sockets, each with one core. -/
def manySockets : Topology where
  nsockets := 65537
  ncores := 65537
  nthreads := 65537
  nsockets_pos := manySockets_pos
  ncores_pos := manySockets_pos
  nthreads_pos := manySockets_pos
  nsockets_dvd := manySockets_dvd
  ncores_dvd := manySockets_dvd
  nthreads_lt := manySockets_lt

/-- The cap of its last socket goes to CPU 0: the call returns 0 and the register of
CPU 65536 holds what it held. -/
theorem capPackagePowerLimit_other_socket :
    let r := capPackagePowerLimit ⟨manySockets, ⟨fun _ _ => false⟩, false⟩ 65536 1 0x610 0x606
      zeroState
    r.1 = 0 ∧ r.2.machine.msr 65536 0x610 = 0 ∧ r.2.machine.msr 0 0x610 = capReg 0 0 1 ∧
      ¬ CapExact manySockets 65536 0x610 0x606 := by
  have hs : 65536 < manySockets.nsockets := by decide
  have hindex : socketIndex manySockets 65536 = 0 := by decide
  simp only [capPackagePowerLimit_zeroState hs, hindex]
  refine ⟨trivial, ?_, Machine.store_self _ _ _ _, ?_⟩
  · exact Machine.store_of_ne _ _ _ _ (.inl (by decide))
  · exact not_capExact_of_overflow hs (by decide) _ _

end Variorum
