/-
Variorum/PowerCap.lean

The power limit of a package: `cap_package_power_limit` and what it calls.

The limit is written in units that the hardware states in a register of its
own.  `translate` keeps them in a static table that its first call fills
through the batch `RAPL_UNIT` of `get_rapl_power_unit`; nobody looks at what
that batch answers, and a refused read leaves zero, or what an earlier batch
left, in the table.  A limit that does not fit in 15 bits of the unit is
reported and refused.  So three things decide what a call does: the accesses,
the units the table ends up with, and the encoding.

`capPackagePowerLimit_eq` takes a call apart along these lines, and
`capSockets_spec` says of the loop over the sockets when nothing goes wrong in
it and what is in the registers then.
-/
import Variorum.BatchImage
import Variorum.Rapl

namespace Variorum

open History

/-- `struct rapl_limit`.  Its `translate_bits` is 0 here. -/
structure RaplLimit where
  bits : BitVec 64
  watts : ℚ
  seconds : ℚ

/-- The registers and what the process keeps: the `msrdata` of the batch
`RAPL_UNIT`, the table `ru` of `translate`, each entry by the register it was
made from (NULL before the first call), and the sockets for which "Power limit
is too large" was reported. -/
structure PowerState where
  machine : Machine
  unitData : Nat → BitVec 64
  ru : Option (Nat → BitVec 64)
  tooLarge : List Nat

/-- The state with one more access on record. -/
def PowerState.logged (st : PowerState) (a : Access) : PowerState :=
  { st with machine := { st.machine with log := st.machine.log ++ [a] } }

/-! ### The functions -/

/-- The operation of the batch `RAPL_UNIT` for a socket. -/
def unitOp (t : Topology) (msr : Nat) (unitData : Nat → BitVec 64) (socket : Nat) : MsrBatchOp :=
  { MsrBatchOp.zero.fill msr (socket * t.coresPerSocket) with msrdata := unitData socket }

/-- `get_rapl_power_unit` for all sockets, as far as the registers read. -/
def readRaplPowerUnits (e : MsrEnv) (msr : Nat) (st : PowerState) : PowerState :=
  let (ops, m) :=
    readOps e ((List.range e.topo.nsockets).map (unitOp e.topo msr st.unitData)) st.machine
  { st with
    machine := m
    unitData := fun socket => ((ops.map (·.msrdata))[socket]?).getD (st.unitData socket) }

/-- The first lines of `translate`: the table, filled on the first call. -/
def translateUnits (e : MsrEnv) (msr : Nat) (st : PowerState) : (Nat → BitVec 64) × PowerState :=
  match st.ru with
  | some ru => (ru, st)
  | none =>
      let st := readRaplPowerUnits e msr st
      (st.unitData, { st with ru := some st.unitData })

/-- `calc_rapl_bits`; `none` is its -1. -/
def calcRaplBits (e : MsrEnv) (socket : Nat) (limit : RaplLimit) (offset msr : Nat)
    (st : PowerState) : Option RaplLimit × PowerState :=
  let wattsBits := maskVal limit.bits (14 + offset) (0 + offset)
  let secondsBits := maskVal limit.bits (23 + offset) (17 + offset)
  let (ru, st) := translateUnits e msr st
  let secondsBits :=
    (translate 79 (getRaplPowerUnit (ru socket)) .secondsToBitsStd secondsBits limit.seconds).1
  let (ru, st) := translateUnits e msr st
  let wattsBits :=
    (translate 79 (getRaplPowerUnit (ru socket)) .wattsToBits wattsBits limit.watts).1
  if wattsBits.toNat > 2 ^ 15 - 1 then (none, { st with tooLarge := st.tooLarge ++ [socket] })
  else
    (some { limit with
      bits := limit.bits ||| (wattsBits <<< (0 + offset)) ||| (secondsBits <<< (17 + offset)) }, st)

/-- `cap_package_power_limit`.  Of its two limits the second is NULL, and
`calc_package_rapl_limit` comes to `calc_rapl_bits` for the first. -/
def capPackagePowerLimit (e : MsrEnv) (socket : Nat) (packagePowerLimit : BitVec 32)
    (msrPowerLimit msrRaplUnit : Nat) (st : PowerState) : Int × PowerState :=
  let limit1 : RaplLimit := { bits := 0, watts := packagePowerLimit.toInt, seconds := 1 }
  let _ := socketsAssert e.topo (BitVec.ofNat 32 socket)
  match readMsrByCoord e.topo e.driver (BitVec.ofNat 32 socket) 0#32 0#32 msrPowerLimit (some 0)
      st.machine with
  | (ret, currentval, m) =>
      -- "We want to keep the upper limit so mask off all other bits."
      let val := currentval.getD 0 &&& 0xFFFFFFFF00000000
      match calcRaplBits e socket limit1 0 msrRaplUnit { st with machine := m } with
      | (none, st) => (-1, st)
      | (some limit1, st) =>
          let val := val ||| (limit1.bits ||| (1#64 <<< 15) ||| (1#64 <<< 16))
          match writeMsrByCoord e.topo e.driver (BitVec.ofNat 32 socket) 0#32 0#32 msrPowerLimit
              val st.machine with
          | (ret', m) => (ret + ret', { st with machine := m })

/-! ### Limits and units -/

/-- The power unit, bits 3:0 of the unit register. -/
def powerUnit (reg : BitVec 64) : Nat := (maskVal reg 3 0).toNat

/-- A number of watts that fits in the field, in the units of `unitReg`. -/
def Encodable (unitReg : BitVec 64) (watts : BitVec 32) : Prop :=
  0 ≤ watts.toInt ∧ watts.toInt * 2 ^ powerUnit unitReg < 2 ^ 15

instance (unitReg : BitVec 64) (watts : BitVec 32) : Decidable (Encodable unitReg watts) := by
  unfold Encodable; infer_instance

/-- The register limits the package to `watts`: limit 1 comes to that many in
the units of `unitReg`, is enabled and clamps. -/
structure HoldsPowerLimit (unitReg : BitVec 64) (watts : BitVec 32) (reg : BitVec 64) : Prop where
  limit : ((maskVal reg 14 0).toNat : ℚ) * (getRaplPowerUnit unitReg).watts = watts.toInt
  enabled : reg.getLsbD 15 = true
  clamped : reg.getLsbD 16 = true

/-! ### The table of units -/

/-- The CPU that the unit batch reads for a socket; the field of a batch
operation has 16 bits. -/
def unitCpu (t : Topology) (socket : Nat) : Nat := socket * t.coresPerSocket % 2 ^ 16

/-- The accesses of the unit batch. -/
def unitAccesses (t : Topology) (msr : Nat) : List Access :=
  (List.range t.nsockets).map fun socket => ⟨.read, unitCpu t socket, msr⟩

/-- The accesses that fill the table; none when it is there already. -/
def fillAccesses (e : MsrEnv) (msr : Nat) (st : PowerState) : List Access :=
  if st.ru.isSome then [] else unitAccesses e.topo msr

/-- The unit register in use for a socket when no access is refused: the one in
the table, or else the one the batch finds. -/
def unitsInUse (e : MsrEnv) (msr : Nat) (st : PowerState) (socket : Nat) : BitVec 64 :=
  match st.ru with
  | some ru => ru socket
  | none => st.machine.msr (unitCpu e.topo socket) msr

section Units

variable {e : MsrEnv} {msr : Nat} {st : PowerState}

theorem unitCpu_lt {t : Topology} {socket : Nat} (h : socket < t.nsockets) :
    unitCpu t socket < t.nthreads := by
  have hcpu := (Topology.valid_socket h).cpu_lt
  rw [Topology.cpu_socket] at hcpu
  exact (Nat.mod_le _ _).trans_lt hcpu

theorem unitOp_cpu (t : Topology) (data : Nat → BitVec 64) (socket : Nat) :
    (unitOp t msr data socket).cpu.toNat = unitCpu t socket := BitVec.toNat_ofNat _ _

theorem unitOp_msr (hmsr : msr < 2 ^ 32) (t : Topology) (data : Nat → BitVec 64) (socket : Nat) :
    (unitOp t msr data socket).msr.toNat = msr :=
  (BitVec.toNat_ofNat _ _).trans (Nat.mod_eq_of_lt hmsr)

theorem unitOp_readAccess (hmsr : msr < 2 ^ 32) (t : Topology) (data : Nat → BitVec 64)
    (socket : Nat) :
    (unitOp t msr data socket).readAccess = ⟨.read, unitCpu t socket, msr⟩ := by
  rw [MsrBatchOp.readAccess, unitOp_cpu, unitOp_msr hmsr]

/-- The unit register of a socket as the unit batch leaves it in `unitData`. -/
def unitImage (e : MsrEnv) (msr : Nat) (st : PowerState) (socket : Nat) : BitVec 64 :=
  if e.driver.fails (st.machine.log.length + socket) ⟨.read, unitCpu e.topo socket, msr⟩ then
    st.unitData socket
  else st.machine.msr (unitCpu e.topo socket) msr

theorem unitOps_uniform (t : Topology) (msr : Nat) (data : Nat → BitVec 64) :
    Uniform t ((List.range t.nsockets).map (unitOp t msr data)) := by
  constructor
  · intro op hop
    obtain ⟨socket, hsocket, rfl⟩ := List.mem_map.mp hop
    rw [unitOp_cpu]
    exact unitCpu_lt (List.mem_range.mp hsocket)
  · refine ⟨true, fun op hop => ?_⟩
    obtain ⟨socket, -, rfl⟩ := List.mem_map.mp hop
    rfl

/-- **`get_rapl_power_unit`** reads the unit register once for each socket. -/
theorem readRaplPowerUnits_spec (hmsr : msr < 2 ^ 32) (e : MsrEnv) (st : PowerState) :
    (readRaplPowerUnits e msr st).machine
        = { st.machine with log := st.machine.log ++ unitAccesses e.topo msr } ∧
      ∀ socket < e.topo.nsockets,
        (readRaplPowerUnits e msr st).unitData socket = unitImage e msr st socket := by
  obtain ⟨hmachine, -, hdata⟩ :=
    readOps_image (unitOps_uniform e.topo msr st.unitData) st.machine
  have hacc : ((List.range e.topo.nsockets).map (unitOp e.topo msr st.unitData)).map
      (·.readAccess) = unitAccesses e.topo msr := by
    rw [List.map_map]
    exact List.map_congr_left fun socket _ => unitOp_readAccess hmsr _ _ socket
  rw [hacc] at hmachine
  refine ⟨hmachine, fun socket hsocket => ?_⟩
  simp only [readRaplPowerUnits]
  rw [hdata, image, List.getElem?_mapIdx, List.getElem?_map, List.getElem?_range hsocket]
  simp only [Option.map_some, Option.getD_some, unitOp_readAccess hmsr, unitOp_cpu, unitOp_msr hmsr]
  rfl

/-- The unit register that the table holds for a socket after a call. -/
def tableUnits (e : MsrEnv) (msr : Nat) (st : PowerState) (socket : Nat) : BitVec 64 :=
  match st.ru with
  | some ru => ru socket
  | none => unitImage e msr st socket

/-- Where no access is refused, these are the units in use. -/
theorem tableUnits_of_accepted {socket : Nat} (hs : socket < e.topo.nsockets)
    (hacc : Accepted e.driver.fails st.machine.log.length (fillAccesses e msr st)) :
    tableUnits e msr st socket = unitsInUse e msr st socket := by
  unfold tableUnits unitsInUse
  cases hru : st.ru with
  | some ru => rfl
  | none =>
      rw [fillAccesses, hru] at hacc
      have hget : (unitAccesses e.topo msr)[socket]?
          = some ⟨.read, unitCpu e.topo socket, msr⟩ := by
        rw [unitAccesses, List.getElem?_map, List.getElem?_range hs]
        rfl
      show unitImage e msr st socket = _
      rw [unitImage, if_neg]
      rw [accepted_getElem hacc hget]
      exact Bool.false_ne_true

theorem translateUnits_ru (e : MsrEnv) (msr : Nat) (st : PowerState) :
    (translateUnits e msr st).2.ru = some (translateUnits e msr st).1 := by
  unfold translateUnits
  cases hru : st.ru with
  | some ru => exact hru
  | none => rfl

/-- **The table.**  Getting it takes the accesses that fill it, and what is in it
then depends on which of them are refused. -/
theorem translateUnits_spec (hmsr : msr < 2 ^ 32) (e : MsrEnv) (st : PowerState) :
    (translateUnits e msr st).2.machine
        = { st.machine with log := st.machine.log ++ fillAccesses e msr st } ∧
      (translateUnits e msr st).2.tooLarge = st.tooLarge ∧
      ∀ socket < e.topo.nsockets,
        (translateUnits e msr st).1 socket = tableUnits e msr st socket := by
  unfold translateUnits fillAccesses tableUnits
  cases hru : st.ru with
  | some ru => exact ⟨by simp, rfl, fun _ _ => rfl⟩
  | none =>
      obtain ⟨hmachine, hdata⟩ := readRaplPowerUnits_spec hmsr e st
      exact ⟨hmachine, rfl, hdata⟩

/-- Once there, the table stays. -/
theorem translateUnits_of_some {ru : Nat → BitVec 64} (h : st.ru = some ru) :
    translateUnits e msr st = (ru, st) := by
  simp only [translateUnits, h]

end Units

/-! ### The encoding -/

section Encoding

variable {reg : BitVec 64} {watts : BitVec 32}

theorem powerUnit_lt (reg : BitVec 64) : powerUnit reg < 16 := by
  rw [powerUnit, maskVal_toNat reg (by decide) (by decide)]
  exact Nat.mod_lt _ (by decide)

theorem getRaplPowerUnit_watts (reg : BitVec 64) :
    (getRaplPowerUnit reg).watts = 1 / 2 ^ powerUnit reg := by
  show 1 / shiftOne (powerUnit reg) = _
  have hlt := powerUnit_lt reg
  rw [shiftOne_of_lt (by omega)]

/-- A whole number is converted without rounding. -/
theorem truncBits_intCast (k : Int) : truncBits (k : ℚ) = BitVec.ofInt 64 k := by
  unfold truncBits
  rw [Int.floor_intCast, Int.ceil_intCast, ite_self]

/-- The watts in units of the power unit. -/
def wattsBits (reg : BitVec 64) (watts : BitVec 32) : BitVec 64 :=
  BitVec.ofInt 64 (watts.toInt * 2 ^ powerUnit reg)

theorem translate_watts (archId : Nat) (bits : BitVec 64) :
    (translate archId (getRaplPowerUnit reg) .wattsToBits bits watts.toInt).1
      = wattsBits reg watts := by
  show truncBits ((watts.toInt : ℚ) / (getRaplPowerUnit reg).watts) = _
  rw [getRaplPowerUnit_watts, div_div_eq_mul_div, div_one, wattsBits, ← truncBits_intCast]
  congr 1
  norm_cast

/-- The window of one second in units of the time unit. -/
def windowBits (reg : BitVec 64) : BitVec 64 :=
  (translate 79 (getRaplPowerUnit reg) .secondsToBitsStd 0 1).1

theorem wattsBits_bounds (reg : BitVec 64) (watts : BitVec 32) :
    -2 ^ 46 ≤ watts.toInt * 2 ^ powerUnit reg ∧ watts.toInt * 2 ^ powerUnit reg ≤ 2 ^ 46 := by
  have hlo : -2 ^ 31 ≤ watts.toInt := BitVec.le_toInt watts
  have hhi : watts.toInt < 2 ^ 31 := BitVec.toInt_lt
  have hone : (1 : Int) ≤ 2 ^ powerUnit reg := by exact_mod_cast Nat.one_le_two_pow
  have hpow : (2 : Int) ^ powerUnit reg ≤ 2 ^ 15 := by
    have hlt := powerUnit_lt reg
    exact_mod_cast Nat.pow_le_pow_right (by decide) (show powerUnit reg ≤ 15 by omega)
  constructor <;> nlinarith

/-- The test of `calc_rapl_bits` lets the encodable limits through and no
others. -/
theorem wattsBits_toNat_le_iff :
    (wattsBits reg watts).toNat ≤ 2 ^ 15 - 1 ↔ Encodable reg watts := by
  obtain ⟨hlo, hhi⟩ := wattsBits_bounds reg watts
  have hsign : 0 ≤ watts.toInt * 2 ^ powerUnit reg ↔ 0 ≤ watts.toInt :=
    mul_nonneg_iff_of_pos_right (by positivity)
  rw [Encodable, ← hsign, wattsBits, BitVec.toNat_ofInt]
  omega

theorem wattsBits_toNat (h : Encodable reg watts) :
    ((wattsBits reg watts).toNat : Int) = watts.toInt * 2 ^ powerUnit reg := by
  obtain ⟨hsign, hlt⟩ := h
  have hnonneg : 0 ≤ watts.toInt * 2 ^ powerUnit reg := mul_nonneg hsign (by positivity)
  rw [wattsBits, BitVec.toNat_ofInt]
  omega

/-- The value written: the upper half of `upper`, the limit, and the bits that
enable it. -/
def limitReg (upper limit seconds : BitVec 64) : BitVec 64 :=
  (upper &&& 0xFFFFFFFF00000000) |||
    (((0#64 ||| limit <<< 0) ||| seconds <<< 17) ||| (1#64 <<< 15) ||| (1#64 <<< 16))

theorem limitReg_getLsbD (upper limit seconds : BitVec 64) {i : Nat} (hi : i < 17) :
    (limitReg upper limit seconds).getLsbD i
      = (limit.getLsbD i || decide (i = 15) || decide (i = 16)) := by
  have hupper : ∀ i < 17, (0xFFFFFFFF00000000 : BitVec 64).getLsbD i = false := by decide
  have hone : ∀ k < 17, (1#64 <<< k).getLsbD i = decide (i = k) := by
    intro k hk
    rw [← BitVec.twoPow_eq, BitVec.getLsbD_twoPow]
    grind
  simp only [limitReg, BitVec.getLsbD_or, BitVec.getLsbD_and, hone 15 (by decide),
    hone 16 (by decide), BitVec.getLsbD_shiftLeft, BitVec.getLsbD_zero]
  grind

/-- The limit field of the value written. -/
theorem limitReg_limit (upper seconds : BitVec 64) {limit : BitVec 64}
    (hlimit : limit.toNat ≤ 2 ^ 15 - 1) :
    maskVal (limitReg upper limit seconds) 14 0 = limit := by
  apply BitVec.eq_of_getLsbD_eq
  intro i _
  rw [maskVal_getLsbD _ (by decide) (by decide), Nat.zero_add]
  rcases Nat.lt_or_ge i 15 with hi | hi
  · rw [limitReg_getLsbD upper limit seconds (by omega)]
    grind
  · have hhigh : limit.getLsbD i = false := getLsbD_of_toNat_lt (by omega) hi
    rw [hhigh]
    grind

/-- **What the value written means.**  A limit encoded in the units of `reg` is
the limit asked for in the units of the hardware where the power units
agree. -/
theorem holdsPowerLimit_limitReg_iff (hw upper seconds : BitVec 64) (h : Encodable reg watts) :
    HoldsPowerLimit hw watts (limitReg upper (wattsBits reg watts) seconds) ↔
      watts = 0 ∨ powerUnit reg = powerUnit hw := by
  have hfield : ((maskVal (limitReg upper (wattsBits reg watts) seconds) 14 0).toNat : ℚ)
      = watts.toInt * 2 ^ powerUnit reg := by
    rw [limitReg_limit _ _ (wattsBits_toNat_le_iff.mpr h)]
    exact_mod_cast wattsBits_toNat h
  have hpos : (2 : ℚ) ^ powerUnit hw ≠ 0 := by positivity
  have hzero : watts = 0 ↔ (watts.toInt : ℚ) = 0 := by
    rw [Int.cast_eq_zero, ← BitVec.toInt_inj, BitVec.ofNat_eq_ofNat, BitVec.toInt_zero]
  have hpow : powerUnit reg = powerUnit hw ↔ (2 : ℚ) ^ powerUnit reg = 2 ^ powerUnit hw :=
    (pow_right_inj₀ (by norm_num) (by norm_num)).symm
  have hlimit : ((maskVal (limitReg upper (wattsBits reg watts) seconds) 14 0).toNat : ℚ)
        * (getRaplPowerUnit hw).watts = watts.toInt ↔
      watts = 0 ∨ powerUnit reg = powerUnit hw := by
    rw [hfield, getRaplPowerUnit_watts, mul_one_div, div_eq_iff hpos, mul_eq_mul_left_iff, hzero,
      hpow, or_comm]
  constructor
  · exact fun hholds => hlimit.mp hholds.limit
  · refine fun hw => ⟨hlimit.mpr hw, ?_, ?_⟩ <;> rw [limitReg_getLsbD _ _ _ (by decide)] <;> simp

end Encoding

/-! ### One socket -/

section Socket

variable {e : MsrEnv} {socket msrPowerLimit msrRaplUnit : Nat} {watts : BitVec 32}
variable {st : PowerState}

/-- **`calc_rapl_bits`**: units from the table, then the limit in these units or
a report. -/
theorem calcRaplBits_eq (e : MsrEnv) (socket : Nat) (watts : BitVec 32) (msrRaplUnit : Nat)
    (st : PowerState) :
    calcRaplBits e socket ⟨0, watts.toInt, 1⟩ 0 msrRaplUnit st
      = let (ru, st') := translateUnits e msrRaplUnit st
        if Encodable (ru socket) watts then
          (some ⟨(0#64 ||| wattsBits (ru socket) watts <<< 0) ||| windowBits (ru socket) <<< 17,
            watts.toInt, 1⟩, st')
        else (none, { st' with tooLarge := st'.tooLarge ++ [socket] }) := by
  have hru := translateUnits_ru e msrRaplUnit st
  rcases htable : translateUnits e msrRaplUnit st with ⟨ru, st'⟩
  rw [htable] at hru
  simp only [calcRaplBits, htable, translateUnits_of_some hru, translate_watts, gt_iff_lt,
    ← Nat.not_le, wattsBits_toNat_le_iff, ite_not, Nat.add_zero, BitVec.ofNat_eq_ofNat]
  rfl

/-- The read of a call is refused. -/
def ReadRefused (e : MsrEnv) (msrPowerLimit : Nat) (st : PowerState) (socket : Nat) : Bool :=
  e.driver.fails st.machine.log.length ⟨.read, socketIndex e.topo socket, msrPowerLimit⟩

/-- `currentval` after the read: the register, or the 0 it was set to before. -/
def currentval (e : MsrEnv) (msrPowerLimit : Nat) (st : PowerState) (socket : Nat) : BitVec 64 :=
  if ReadRefused e msrPowerLimit st socket then 0
  else st.machine.msr (socketIndex e.topo socket) msrPowerLimit

/-- **`cap_package_power_limit`**: a read, the units, and a write unless the limit
does not fit.  What the read answers only enters the value returned. -/
theorem capPackagePowerLimit_eq (hs : socket < e.topo.nsockets) (watts : BitVec 32)
    (msrPowerLimit msrRaplUnit : Nat) (st : PowerState) :
    capPackagePowerLimit e socket watts msrPowerLimit msrRaplUnit st
      = let (ru, st') := translateUnits e msrRaplUnit
          (st.logged ⟨.read, socketIndex e.topo socket, msrPowerLimit⟩)
        if Encodable (ru socket) watts then
          let w := st'.machine.pwrite e.driver (socketIndex e.topo socket) msrPowerLimit
            (limitReg (currentval e msrPowerLimit st socket) (wattsBits (ru socket) watts)
              (windowBits (ru socket)))
          ((if ReadRefused e msrPowerLimit st socket then VariorumError.msrRead.code else 0) +
              (if w.1 then 0 else VariorumError.msrWrite.code),
            { st' with machine := w.2 })
        else (-1, { st' with tooLarge := st'.tooLarge ++ [socket] }) := by
  -- the refused read and the one that went through differ in the status, not in what follows
  have hread : readMsrByCoord e.topo e.driver (BitVec.ofNat 32 socket) 0#32 0#32 msrPowerLimit
      (some 0) st.machine
        = (if ReadRefused e msrPowerLimit st socket then VariorumError.msrRead.code else 0,
            some (currentval e msrPowerLimit st socket), { st.machine with
              log := st.machine.log ++ [⟨.read, socketIndex e.topo socket, msrPowerLimit⟩] }) := by
    rw [readMsrByCoord_socket hs]
    unfold currentval
    cases h : ReadRefused e msrPowerLimit st socket <;>
      unfold ReadRefused at h <;>
      simp [Machine.pread, h]
  have hwrite : ∀ val m, writeMsrByCoord e.topo e.driver (BitVec.ofNat 32 socket) 0#32 0#32
      msrPowerLimit val m
        = let w := m.pwrite e.driver (socketIndex e.topo socket) msrPowerLimit val
          (if w.1 then 0 else VariorumError.msrWrite.code, w.2) := by
    intro val m
    rw [writeMsrByCoord_socket hs]
    rcases m.pwrite e.driver (socketIndex e.topo socket) msrPowerLimit val with ⟨- | -, m'⟩ <;> rfl
  have hbits := calcRaplBits_eq e socket watts msrRaplUnit
    (st.logged ⟨.read, socketIndex e.topo socket, msrPowerLimit⟩)
  rcases htable : translateUnits e msrRaplUnit
    (st.logged ⟨.read, socketIndex e.topo socket, msrPowerLimit⟩) with ⟨ru, st'⟩
  rw [htable] at hbits
  simp only [PowerState.logged] at hbits
  simp only [capPackagePowerLimit, hread, hbits]
  -- watts that cannot be encoded are noted and end the call before the write
  by_cases henc : Encodable (ru socket) watts
  · simp only [henc, if_true, hwrite, Option.getD_some]
    rfl
  · simp only [henc, if_false]

/-- The accesses for one socket when the limit is encodable. -/
def socketAccesses (e : MsrEnv) (msrPowerLimit msrRaplUnit : Nat) (st : PowerState)
    (socket : Nat) : List Access :=
  ⟨.read, socketIndex e.topo socket, msrPowerLimit⟩ ::
    (fillAccesses e msrRaplUnit st ++ [⟨.write, socketIndex e.topo socket, msrPowerLimit⟩])

/-- The state after a call, whatever was refused: the accesses up to the write
are always made, and the write depends on the encoding alone. -/
theorem capPackagePowerLimit_cases (hs : socket < e.topo.nsockets) (hmsr : msrRaplUnit < 2 ^ 32)
    (watts : BitVec 32) (msrPowerLimit : Nat) (st : PowerState) :
    ∃ ru data,
      (∀ s < e.topo.nsockets, ru s = tableUnits e msrRaplUnit
        (st.logged ⟨.read, socketIndex e.topo socket, msrPowerLimit⟩) s) ∧
      capPackagePowerLimit e socket watts msrPowerLimit msrRaplUnit st
        = let m : Machine := { st.machine with
            log := st.machine.log ++ (⟨.read, socketIndex e.topo socket, msrPowerLimit⟩ ::
              fillAccesses e msrRaplUnit st) }
          if Encodable (ru socket) watts then
            let w := m.pwrite e.driver (socketIndex e.topo socket) msrPowerLimit
              (limitReg (currentval e msrPowerLimit st socket) (wattsBits (ru socket) watts)
                (windowBits (ru socket)))
            ((if ReadRefused e msrPowerLimit st socket then VariorumError.msrRead.code else 0) +
                (if w.1 then 0 else VariorumError.msrWrite.code),
              ⟨w.2, data, some ru, st.tooLarge⟩)
          else (-1, ⟨m, data, some ru, st.tooLarge ++ [socket]⟩) := by
  have heq := capPackagePowerLimit_eq hs watts msrPowerLimit msrRaplUnit st
  obtain ⟨hmachine, hlarge, hused⟩ := translateUnits_spec hmsr e
    (st.logged ⟨.read, socketIndex e.topo socket, msrPowerLimit⟩)
  have hru := translateUnits_ru e msrRaplUnit
    (st.logged ⟨.read, socketIndex e.topo socket, msrPowerLimit⟩)
  rcases htable : translateUnits e msrRaplUnit
    (st.logged ⟨.read, socketIndex e.topo socket, msrPowerLimit⟩) with ⟨ru, ⟨m, data, ru', large⟩⟩
  rw [htable] at hmachine hlarge hused hru heq
  simp only at hmachine hlarge hru
  subst hmachine hlarge hru
  refine ⟨ru, data, hused, ?_⟩
  rw [heq]
  simp only [PowerState.logged, List.append_assoc, List.singleton_append]
  rfl

end Socket

/-! ### Runs over states -/

namespace PowerState

/-- What was recorded and reported stays. -/
def Grows (st st' : PowerState) : Prop :=
  st.machine.log <+: st'.machine.log ∧ st.tooLarge <+: st'.tooLarge

/-- Nothing was refused from `st` to `st'`, neither an access nor a limit. -/
def Clean (d : Driver) (st st' : PowerState) : Prop :=
  st.machine.Clean d st'.machine ∧ st'.tooLarge = st.tooLarge

variable {d : Driver} {st st' st'' : PowerState}

theorem Grows.refl (st : PowerState) : st.Grows st := ⟨List.prefix_refl _, List.prefix_refl _⟩

theorem Grows.trans (h : st.Grows st') (h' : st'.Grows st'') : st.Grows st'' :=
  ⟨h.1.trans h'.1, h.2.trans h'.2⟩

theorem Clean.refl (d : Driver) (st : PowerState) : st.Clean d st := ⟨clean_refl, rfl⟩

theorem clean_trans_iff (h : st.Grows st') (h' : st'.Grows st'') :
    st.Clean d st'' ↔ st.Clean d st' ∧ st'.Clean d st'' := by
  unfold Clean Machine.Clean
  rw [History.clean_trans_iff h.1 h'.1, eq_trans_iff h.2 h'.2]
  exact and_and_and_comm

end PowerState

/-! ### What a call needs and does -/

/-- From `st` to `st'` one socket was capped: its accesses are on record, the
table is there, with the units `st` promises, and the limit is in the register
the call comes to, in these units. -/
structure Capped (e : MsrEnv) (msrPowerLimit msrRaplUnit : Nat) (watts : BitVec 32) (socket : Nat)
    (st st' : PowerState) : Prop where
  log : st'.machine.log = st.machine.log ++ socketAccesses e msrPowerLimit msrRaplUnit st socket
  ru : ∃ ru, st'.ru = some ru ∧ ∀ s < e.topo.nsockets, ru s = unitsInUse e msrRaplUnit st s
  msr : ∃ upper seconds, st'.machine.msr = st.machine.store (socketIndex e.topo socket)
    msrPowerLimit (limitReg upper (wattsBits (unitsInUse e msrRaplUnit st socket) watts) seconds)

/-- **One call.**  Nothing is refused in it exactly when the limit is encodable in
the units in use and its accesses are let through, and then it caps the
socket. -/
theorem capPackagePowerLimit_spec {e : MsrEnv} {socket msrRaplUnit : Nat} {st' : PowerState}
    (hs : socket < e.topo.nsockets) (hmsr : msrRaplUnit < 2 ^ 32) (watts : BitVec 32)
    (msrPowerLimit : Nat) (st : PowerState)
    (hst' : (capPackagePowerLimit e socket watts msrPowerLimit msrRaplUnit st).2 = st') :
    st.Grows st' ∧
      (st.Clean e.driver st' ↔ Encodable (unitsInUse e msrRaplUnit st socket) watts ∧
        Accepted e.driver.fails st.machine.log.length
          (socketAccesses e msrPowerLimit msrRaplUnit st socket)) ∧
      (st.Clean e.driver st' → Capped e msrPowerLimit msrRaplUnit watts socket st st') := by
  obtain ⟨ru, data, hused, hcall⟩ := capPackagePowerLimit_cases hs hmsr watts msrPowerLimit st
  have heq := congrArg Prod.snd hcall
  simp only [apply_ite Prod.snd] at heq
  rw [hst'] at heq
  -- the units come from accesses that are among those of the call
  have htable : Accepted e.driver.fails st.machine.log.length
        (socketAccesses e msrPowerLimit msrRaplUnit st socket) →
      ∀ s < e.topo.nsockets, ru s = unitsInUse e msrRaplUnit st s := by
    rintro ⟨-, hrest⟩ s hs
    rw [hused s hs, tableUnits_of_accepted hs]
    · rfl
    · show Accepted _ (st.machine.log ++ [_]).length (fillAccesses e msrRaplUnit st)
      rw [List.length_append]
      exact ((accepted_append _ _ _).mp hrest).1
  by_cases henc : Encodable (ru socket) watts
  · rw [if_pos henc] at heq
    have hlog : st'.machine.log
        = st.machine.log ++ socketAccesses e msrPowerLimit msrRaplUnit st socket := by
      rw [heq, Machine.pwrite_log, socketAccesses, List.append_assoc, List.cons_append]
    have hlarge : st'.tooLarge = st.tooLarge := by rw [heq]
    have hclean : st.Clean e.driver st' ↔ Accepted e.driver.fails st.machine.log.length
        (socketAccesses e msrPowerLimit msrRaplUnit st socket) := by
      unfold PowerState.Clean Machine.Clean
      rw [hlog, clean_append_iff]
      exact and_iff_left hlarge
    refine ⟨⟨hlog ▸ List.prefix_append _ _, hlarge ▸ List.prefix_refl _⟩, ?_, fun h => ?_⟩
    · rw [hclean, and_iff_right_of_imp]
      exact fun hacc => htable hacc socket hs ▸ henc
    · have hacc := hclean.mp h
      have hwrite := ((accepted_append _ _ _).mp hacc.2).2.1
      refine ⟨hlog, ⟨ru, by rw [heq], htable hacc⟩, currentval e msrPowerLimit st socket,
        windowBits (ru socket), ?_⟩
      rw [← htable hacc socket hs, heq, Machine.pwrite_of_ok]
      · rfl
      · rw [List.length_append, List.length_cons]
        rwa [Nat.add_right_comm, Nat.add_assoc] at hwrite
  · rw [if_neg henc] at heq
    have hnot : ¬ st.Clean e.driver st' := by
      rintro ⟨-, hlarge⟩
      rw [heq] at hlarge
      simp at hlarge
    refine ⟨⟨?_, ?_⟩, iff_of_false hnot ?_, fun h => absurd h hnot⟩
    · rw [heq]
      exact List.prefix_append _ _
    · rw [heq]
      exact List.prefix_append _ _
    · rintro ⟨henc', hacc⟩
      exact henc (htable hacc socket hs ▸ henc')

/-! ### All sockets -/

/-- The loop of `intel_cpu_fm_06_4f_cap_power_limits` over the first `k` sockets;
what `cap_package_power_limit` returns is dropped. -/
def capSockets (e : MsrEnv) (watts : BitVec 32) (msrPowerLimit msrRaplUnit k : Nat)
    (st : PowerState) : PowerState :=
  (List.range k).foldl
    (fun st socket => (capPackagePowerLimit e socket watts msrPowerLimit msrRaplUnit st).2) st

/-- The accesses of the loop when nothing is refused: the table is filled on the
first socket. -/
def capAccesses (e : MsrEnv) (msrPowerLimit msrRaplUnit : Nat) (st : PowerState) (k : Nat) :
    List Access :=
  (List.range k).flatMap fun socket =>
    ⟨.read, socketIndex e.topo socket, msrPowerLimit⟩ ::
      ((if socket = 0 then fillAccesses e msrRaplUnit st else []) ++
        [⟨.write, socketIndex e.topo socket, msrPowerLimit⟩])

/-- From `st` to `st'` the first `k` sockets were capped.  The limit register of
a CPU is what the last socket that came to this CPU made of it, and every other
register is as it was. -/
structure CappedUpTo (e : MsrEnv) (msrPowerLimit msrRaplUnit : Nat) (watts : BitVec 32) (k : Nat)
    (st st' : PowerState) : Prop where
  log : st'.machine.log = st.machine.log ++ capAccesses e msrPowerLimit msrRaplUnit st k
  fill : fillAccesses e msrRaplUnit st' = if k = 0 then fillAccesses e msrRaplUnit st else []
  units : ∀ s < e.topo.nsockets, unitsInUse e msrRaplUnit st' s = unitsInUse e msrRaplUnit st s
  frame : ∀ cpu msr, msr ≠ msrPowerLimit → st'.machine.msr cpu msr = st.machine.msr cpu msr
  limit : ∀ cpu, match lastFor (socketIndex e.topo) cpu (List.range k) with
    | some s => ∃ upper seconds, st'.machine.msr cpu msrPowerLimit
        = limitReg upper (wattsBits (unitsInUse e msrRaplUnit st s) watts) seconds
    | none => st'.machine.msr cpu msrPowerLimit = st.machine.msr cpu msrPowerLimit

section Loop

variable {e : MsrEnv} {k msrPowerLimit msrRaplUnit : Nat} {watts : BitVec 32}
variable {st st₁ st₂ : PowerState}

theorem capSockets_succ (st : PowerState) :
    capSockets e watts msrPowerLimit msrRaplUnit (k + 1) st
      = (capPackagePowerLimit e k watts msrPowerLimit msrRaplUnit
          (capSockets e watts msrPowerLimit msrRaplUnit k st)).2 := by
  rw [capSockets, List.range_succ, List.foldl_concat]
  rfl

theorem capAccesses_succ (st : PowerState) (k : Nat) :
    capAccesses e msrPowerLimit msrRaplUnit st (k + 1)
      = capAccesses e msrPowerLimit msrRaplUnit st k ++
          (⟨.read, socketIndex e.topo k, msrPowerLimit⟩ ::
            ((if k = 0 then fillAccesses e msrRaplUnit st else []) ++
              [⟨.write, socketIndex e.topo k, msrPowerLimit⟩])) := by
  rw [capAccesses, List.range_succ, List.flatMap_append, List.flatMap_singleton]
  rfl

/-- Before the first socket nothing has been done. -/
theorem CappedUpTo.zero (st : PowerState) :
    CappedUpTo e msrPowerLimit msrRaplUnit watts 0 st st where
  log := (List.append_nil _).symm
  fill := (if_pos rfl).symm
  units _ _ := rfl
  frame _ _ _ := rfl
  limit _ := rfl

/-- One more socket capped, by a call that succeeds. -/
theorem CappedUpTo.succ (hk : k < e.topo.nsockets)
    (h : CappedUpTo e msrPowerLimit msrRaplUnit watts k st st₁)
    (hstep : Capped e msrPowerLimit msrRaplUnit watts k st₁ st₂) :
    CappedUpTo e msrPowerLimit msrRaplUnit watts (k + 1) st st₂ := by
  obtain ⟨ru, hru, hused⟩ := hstep.ru
  obtain ⟨upper, seconds, hmsr⟩ := hstep.msr
  constructor
  case log =>
    rw [hstep.log, h.log, socketAccesses, h.fill, capAccesses_succ, List.append_assoc]
  case fill =>
    rw [if_neg (Nat.succ_ne_zero k), fillAccesses, hru]
    rfl
  case units =>
    intro s hs
    rw [← h.units s hs, ← hused s hs]
    simp only [unitsInUse, hru]
  case frame =>
    intro cpu msr hne
    rw [hmsr, Machine.store_of_ne _ _ _ _ (.inr hne), h.frame cpu msr hne]
  case limit =>
    intro cpu
    rw [List.range_succ, lastFor_concat]
    by_cases hcpu : socketIndex e.topo k = cpu
    · rw [if_pos hcpu]
      refine ⟨upper, seconds, ?_⟩
      rw [hmsr, ← hcpu, Machine.store_self, h.units k hk]
    · rw [if_neg hcpu, hmsr, Machine.store_of_ne _ _ _ _ (.inl (Ne.symm hcpu))]
      exact h.limit cpu

/-- **The loop.**  Nothing is refused in it exactly when the limit is encodable on
every socket and the accesses are let through, and then it caps the sockets. -/
theorem capSockets_spec (hmsr : msrRaplUnit < 2 ^ 32) (hk : k ≤ e.topo.nsockets)
    (watts : BitVec 32) (msrPowerLimit : Nat) (st : PowerState) :
    st.Grows (capSockets e watts msrPowerLimit msrRaplUnit k st) ∧
      (st.Clean e.driver (capSockets e watts msrPowerLimit msrRaplUnit k st) ↔
        (∀ s < k, Encodable (unitsInUse e msrRaplUnit st s) watts) ∧
          Accepted e.driver.fails st.machine.log.length
            (capAccesses e msrPowerLimit msrRaplUnit st k)) ∧
      (st.Clean e.driver (capSockets e watts msrPowerLimit msrRaplUnit k st) →
        CappedUpTo e msrPowerLimit msrRaplUnit watts k st
          (capSockets e watts msrPowerLimit msrRaplUnit k st)) := by
  induction k with
  | zero =>
      refine ⟨.refl st, iff_of_true (.refl _ st) ⟨fun s hs => ?_, trivial⟩, fun _ => .zero st⟩
      exact absurd hs (Nat.not_lt_zero s)
  | succ k ih =>
      obtain ⟨hgrows, hclean, hcapped⟩ := ih (Nat.le_of_succ_le hk)
      rw [capSockets_succ]
      obtain ⟨hgrows', hclean', hcapped'⟩ := capPackagePowerLimit_spec hk hmsr watts msrPowerLimit
        (capSockets e watts msrPowerLimit msrRaplUnit k st) rfl
      have htrans := PowerState.clean_trans_iff (d := e.driver) hgrows hgrows'
      refine ⟨hgrows.trans hgrows', ?_, fun h => ?_⟩
      · rw [htrans, hclean', Nat.forall_lt_succ_right, capAccesses_succ, accepted_append,
          and_and_and_comm, ← hclean]
        refine and_congr_right fun h => ?_
        have hup := hcapped h
        rw [hup.units k hk, hup.log, List.length_append, socketAccesses, hup.fill]
      · obtain ⟨h, h'⟩ := htrans.mp h
        exact (hcapped h).succ hk (hcapped' h')

end Loop

/-! ### A whole call -/

/-- Every socket of the node is limited to `watts`. -/
def SocketsHold (t : Topology) (msrPowerLimit msrRaplUnit : Nat) (watts : BitVec 32)
    (m : Machine) : Prop :=
  ∀ socket < t.nsockets, HoldsPowerLimit (m.msr (t.cpu socket 0 0) msrRaplUnit) watts
    (m.msr (t.cpu socket 0 0) msrPowerLimit)

/-- What it takes for a call to leave every socket limited and have nothing
refused: the limit is encodable on every socket in the units in use, the
accesses are let through, and for every socket the units of the call that came
last to its CPU are those of the hardware, or no call came there and the limit
was there before. -/
def CapApplies (e : MsrEnv) (msrPowerLimit msrRaplUnit : Nat) (watts : BitVec 32)
    (st : PowerState) : Prop :=
  (∀ socket < e.topo.nsockets, Encodable (unitsInUse e msrRaplUnit st socket) watts) ∧
    Accepted e.driver.fails st.machine.log.length
      (capAccesses e msrPowerLimit msrRaplUnit st e.topo.nsockets) ∧
    ∀ socket < e.topo.nsockets,
      let hw := st.machine.msr (e.topo.cpu socket 0 0) msrRaplUnit
      match lastFor (socketIndex e.topo) (e.topo.cpu socket 0 0) (List.range e.topo.nsockets) with
      | some s => watts = 0 ∨ powerUnit (unitsInUse e msrRaplUnit st s) = powerUnit hw
      | none => HoldsPowerLimit hw watts (st.machine.msr (e.topo.cpu socket 0 0) msrPowerLimit)

/-- Unless `socket * ncores` overflows, the last call to come to the CPU of a
socket is the one for this socket. -/
theorem lastFor_socketIndex {t : Topology} (hfit : t.nsockets * t.ncores ≤ 2 ^ 32) {socket : Nat}
    (hs : socket < t.nsockets) :
    lastFor (socketIndex t) (t.cpu socket 0 0) (List.range t.nsockets) = some socket := by
  have hindex : ∀ s < t.nsockets, socketIndex t s = s * t.coresPerSocket := by
    intro s hs
    rw [socketIndex_of_fits hs, Topology.cpu_socket]
    exact (Nat.mul_lt_mul_of_pos_right hs t.ncores_pos).trans_le hfit
  rw [Topology.cpu_socket, ← hindex socket hs]
  apply lastFor_of_injOn (List.mem_range.mpr hs)
  intro s hmem heq
  rw [hindex s (List.mem_range.mp hmem), hindex socket hs] at heq
  exact Nat.eq_of_mul_eq_mul_right t.coresPerSocket_pos heq

/-- **The loop over all sockets, exactly.** -/
theorem capSockets_applies_iff {e : MsrEnv} {msrPowerLimit msrRaplUnit : Nat}
    (hne : msrRaplUnit ≠ msrPowerLimit) (hmsr : msrRaplUnit < 2 ^ 32) (watts : BitVec 32)
    (st : PowerState) :
    (st.Clean e.driver (capSockets e watts msrPowerLimit msrRaplUnit e.topo.nsockets st) ∧
        SocketsHold e.topo msrPowerLimit msrRaplUnit watts
          (capSockets e watts msrPowerLimit msrRaplUnit e.topo.nsockets st).machine) ↔
      CapApplies e msrPowerLimit msrRaplUnit watts st := by
  obtain ⟨-, hclean, hcapped⟩ := capSockets_spec hmsr le_rfl watts msrPowerLimit st (e := e)
  rw [CapApplies, ← and_assoc, ← hclean]
  refine and_congr_right fun h => forall_congr' fun socket => imp_congr_right fun _ => ?_
  have henc := (hclean.mp h).1
  obtain ⟨-, -, -, hframe, hlimit⟩ := hcapped h
  specialize hlimit (e.topo.cpu socket 0 0)
  rw [hframe _ _ hne]
  cases hlast : lastFor (socketIndex e.topo) (e.topo.cpu socket 0 0)
      (List.range e.topo.nsockets) with
  | none =>
      rw [hlast] at hlimit
      simp only at hlimit ⊢
      rw [hlimit]
  | some s =>
      rw [hlast] at hlimit
      obtain ⟨upper, seconds, hreg⟩ := hlimit
      have hs : s < e.topo.nsockets := by
        have hmem := List.mem_of_find?_eq_some hlast
        exact List.mem_range.mp (List.mem_reverse.mp hmem)
      rw [hreg]
      exact holdsPowerLimit_limitReg_iff _ _ _ (henc s hs)

end Variorum
