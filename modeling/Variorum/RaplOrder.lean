/-
Variorum/RaplOrder.lean

The RAPL functions of one process in any order.

All of them go through `translate`, whose first call in the process fills its
table of units from the register it is given.  Most callers give it
`MSR_RAPL_POWER_UNIT`; `get_rapl_pkg_power_info` and `get_rapl_dram_power_info`
give it the register they are about to decode.  The table stays for good, so
what every later call decodes with depends on who came first.

`uses_spec` says that all calls of a run decode with the table of the first one
that translates, and `unitsIndependent_iff` when these are the units of the
sockets.
-/
import Variorum.DramEnergy
import Variorum.NodeCap

namespace Variorum

/-! ### The functions -/

/-- `get_dram_rapl_limit`, for the one limit that it has. -/
def getDramRaplLimit (e : MsrEnv) (socket : Nat) (limit : Option RaplLimit)
    (msrPowerLimit msrRaplUnit : Nat) (st : PowerState) : Option RaplLimit × PowerState :=
  let (limit, st) := onLimit (readLimit e socket msrPowerLimit) limit st
  onLimit (calcRaplFromBits e socket · 0 msrRaplUnit) limit st

/-- `struct rapl_pkg_power_info` and `struct rapl_dram_power_info`. -/
structure RaplPowerInfo where
  msrPowerInfo : BitVec 64
  maxPower : ℚ
  minPower : ℚ
  maxWindow : ℚ
  thermPower : ℚ

/-- The common body of `get_rapl_pkg_power_info` and `get_rapl_dram_power_info`:
`msr` goes to `translate` as well. -/
def getRaplPowerInfo (e : MsrEnv) (socket : Nat) (info : RaplPowerInfo) (msr : Nat)
    (st : PowerState) : RaplPowerInfo × PowerState :=
  let _ := socketsAssert e.topo (BitVec.ofNat 32 socket)
  let (_, cell, m) := readMsrByCoord e.topo e.driver (BitVec.ofNat 32 socket) 0#32 0#32 msr
    (some info.msrPowerInfo) st.machine
  let st := { st with machine := m }
  let reg := cell.getD info.msrPowerInfo
  -- here and below `translate` gets the register that is decoded, not the unit register
  let val := maskVal reg 54 48
  let (ru, st) := translateUnits e msr st
  let maxWindow :=
    (translate 79 (getRaplPowerUnit (ru socket)) .bitsToSecondsStd val info.maxWindow).2
  let val := maskVal reg 46 32
  let (ru, st) := translateUnits e msr st
  let maxPower := (translate 79 (getRaplPowerUnit (ru socket)) .bitsToWatts val info.maxPower).2
  let val := maskVal reg 30 16
  let (ru, st) := translateUnits e msr st
  let minPower := (translate 79 (getRaplPowerUnit (ru socket)) .bitsToWatts val info.minPower).2
  let val := maskVal reg 14 0
  let (ru, st) := translateUnits e msr st
  let thermPower := (translate 79 (getRaplPowerUnit (ru socket)) .bitsToWatts val info.thermPower).2
  (⟨reg, maxPower, minPower, maxWindow, thermPower⟩, st)

def getRaplPkgPowerInfo := getRaplPowerInfo

def getRaplDramPowerInfo := getRaplPowerInfo

/-- The limit that `cap_package_power_limit` puts together before it writes; `none`
when it reports the watts. -/
def packageLimitBits (e : MsrEnv) (socket : Nat) (packagePowerLimit : BitVec 32)
    (msrPowerLimit msrRaplUnit : Nat) (st : PowerState) : Option (BitVec 64) :=
  let st := st.logged ⟨.read, socketIndex e.topo socket, msrPowerLimit⟩
  (calcRaplBits e socket ⟨0, packagePowerLimit.toInt, 1⟩ 0 msrRaplUnit st).1.map (·.bits)

/-! ### A process -/

/-- The registers that the functions are given. -/
structure RaplMsrs where
  msrRaplPowerUnit : Nat
  msrPkgPowerLimit : Nat
  msrDramPowerLimit : Nat
  msrPkgPowerInfo : Nat
  msrDramPowerInfo : Nat
  msrPkgEnergyStatus : Nat
  msrDramEnergyStatus : Nat
  unit_lt : msrRaplPowerUnit < 2 ^ 32
  pkgInfo_lt : msrPkgPowerInfo < 2 ^ 32
  dramInfo_lt : msrDramPowerInfo < 2 ^ 32
  pkgEnergy_lt : msrPkgEnergyStatus < 2 ^ 32
  dramEnergy_lt : msrDramEnergyStatus < 2 ^ 32
  unit_ne : msrRaplPowerUnit ≠ msrPkgPowerLimit

/-- What does not change while a process runs. -/
structure RaplNode where
  e : MsrEnv
  archId : Nat
  msrs : RaplMsrs

/-- The state of a process: the registers and the table of units, and the samples of
`get_power`. -/
structure RaplProcess (n : Nat) where
  power : PowerState
  rapl : RaplState n

/-- The process before the first call: no table of units, and no sample. -/
def RaplProcess.start (n : Nat) (m : Machine) : RaplProcess n where
  power := { machine := m, unitData := fun _ => 0, ru := none, tooLarge := [] }
  rapl := .start n

/-- The process with the registers as a call finds them. -/
def RaplProcess.found {n : Nat} (p : RaplProcess n) (contents : Nat → Nat → BitVec 64) :
    RaplProcess n :=
  { p with power := { p.power with machine := { p.power.machine with msr := contents } } }

/-- A call; a limit may be NULL. -/
inductive RaplCall (n : Nat)
  | getPackageRaplLimit (socket : Fin n) (limit1 limit2 : Option RaplLimit)
  | getDramRaplLimit (socket : Fin n) (limit : Option RaplLimit)
  | capPackagePowerLimit (socket : Fin n) (packagePowerLimit : BitVec 32)
  | getRaplPkgPowerInfo (socket : Fin n) (info : RaplPowerInfo)
  | getRaplDramPowerInfo (socket : Fin n) (info : RaplPowerInfo)
  | getPower (now : Timeval)

/-- What a call makes of the registers. -/
inductive RaplResult (n : Nat)
  | limits (limit1 limit2 : Option RaplLimit)
  | limit (limit : Option RaplLimit)
  | encoded (bits : Option (BitVec 64))
  | info (info : RaplPowerInfo)
  | power (before after : RaplState n)

namespace RaplNode

variable (node : RaplNode)

/-- The cells of the batch `RAPL_DATA` for one domain: `pkg_bits` and `dram_bits`
point into it. -/
def dataCells {n : Nat} (domain : Fin n → RaplDomain) (socket : Nat) : BitVec 64 :=
  if h : socket < n then (domain ⟨socket, h⟩).bits else 0

/-- The operations of the batch `RAPL_DATA`. -/
def dataOps (s : RaplState node.e.topo.nsockets) : List MsrBatchOp :=
  let d := if s.readInit then s.data else (RaplState.start _).data
  (List.range node.e.topo.nsockets).map
      (unitOp node.e.topo node.msrs.msrPkgEnergyStatus (dataCells d.pkg)) ++
    (List.range node.e.topo.nsockets).map
      (unitOp node.e.topo node.msrs.msrDramEnergyStatus (dataCells d.dram))

/-- `get_power`: the batch `RAPL_DATA`, then the units, then the arithmetic. -/
def runGetPower (now : Timeval) (p : RaplProcess node.e.topo.nsockets) :
    RaplProcess node.e.topo.nsockets :=
  let (ops, m) := readOps node.e (node.dataOps p.rapl) p.power.machine
  let bits := fun k : Nat => ((ops.map (·.msrdata))[k]?).getD 0
  let sample : RaplSample node.e.topo.nsockets :=
    ⟨now, fun i => bits i, fun i => bits (node.e.topo.nsockets + i)⟩
  let (ru, st) := translateUnits node.e node.msrs.msrRaplPowerUnit { p.power with machine := m }
  ⟨st, getPower ⟨node.archId, fun i => getRaplPowerUnit (ru i)⟩ p.rapl sample⟩

/-- A call, with what it returns and the process it leaves. -/
def step (p : RaplProcess node.e.topo.nsockets) :
    RaplCall node.e.topo.nsockets →
      RaplResult node.e.topo.nsockets × RaplProcess node.e.topo.nsockets
  | .getPackageRaplLimit socket limit1 limit2 =>
      let (limit1, limit2, st) := getPackageRaplLimit node.e socket limit1 limit2
        node.msrs.msrPkgPowerLimit node.msrs.msrRaplPowerUnit p.power
      (.limits limit1 limit2, { p with power := st })
  | .getDramRaplLimit socket limit =>
      let (limit, st) := getDramRaplLimit node.e socket limit
        node.msrs.msrDramPowerLimit node.msrs.msrRaplPowerUnit p.power
      (.limit limit, { p with power := st })
  | .capPackagePowerLimit socket packagePowerLimit =>
      (.encoded (packageLimitBits node.e socket packagePowerLimit
          node.msrs.msrPkgPowerLimit node.msrs.msrRaplPowerUnit p.power),
        { p with power := (capPackagePowerLimit node.e socket packagePowerLimit
          node.msrs.msrPkgPowerLimit node.msrs.msrRaplPowerUnit p.power).2 })
  | .getRaplPkgPowerInfo socket info =>
      let (info, st) := getRaplPkgPowerInfo node.e socket info node.msrs.msrPkgPowerInfo p.power
      (.info info, { p with power := st })
  | .getRaplDramPowerInfo socket info =>
      let (info, st) := getRaplDramPowerInfo node.e socket info node.msrs.msrDramPowerInfo p.power
      (.info info, { p with power := st })
  | .getPower now =>
      let p' := node.runGetPower now p
      (.power p.rapl p'.rapl, p')

end RaplNode

/-- A call in a run. -/
structure RaplUse (n : Nat) where
  before : RaplProcess n
  call : RaplCall n
  result : RaplResult n
  after : RaplProcess n

/-- The calls of a run. -/
def RaplNode.uses (node : RaplNode) :
    RaplProcess node.e.topo.nsockets → List (RaplCall node.e.topo.nsockets) →
      List (RaplUse node.e.topo.nsockets)
  | _, [] => []
  | p, c :: cs => ⟨p, c, (node.step p c).1, (node.step p c).2⟩ :: node.uses (node.step p c).2 cs

/-! ### What is asked of runs -/

/-- The two unit registers have the same units. -/
structure SameUnits (reg reg' : BitVec 64) : Prop where
  power : powerUnit reg = powerUnit reg'
  energy : energyUnit reg = energyUnit reg'
  time : timeUnit reg = timeUnit reg'

/-- The call decodes or encodes something of the socket. -/
def RaplCall.Concerns {n : Nat} : RaplCall n → Fin n → Prop
  | .getPackageRaplLimit socket limit1 limit2, s => s = socket ∧ (limit1.isSome || limit2.isSome)
  | .getDramRaplLimit socket limit, s => s = socket ∧ limit.isSome
  | .capPackagePowerLimit socket _, s => s = socket
  | .getRaplPkgPowerInfo socket _, s => s = socket
  | .getRaplDramPowerInfo socket _, s => s = socket
  | .getPower _, _ => True

/-- The two results come of the same register contents. -/
def RaplResult.SameContents {n : Nat} : RaplResult n → RaplResult n → Prop
  | .limits l₁ l₂, .limits l₁' l₂' =>
      l₁.map (·.bits) = l₁'.map (·.bits) ∧ l₂.map (·.bits) = l₂'.map (·.bits)
  | .limit l, .limit l' => l.map (·.bits) = l'.map (·.bits)
  | .encoded _, .encoded _ => True
  | .info i, .info i' => i.msrPowerInfo = i'.msrPowerInfo
  | .power before after, .power before' after' =>
      before = before' ∧ ∀ i, (after.data.pkg i).bits = (after'.data.pkg i).bits ∧
        (after.data.dram i).bits = (after'.data.dram i).bits
  | _, _ => False

namespace RaplNode

variable (node : RaplNode)

/-- The unit register of a socket. -/
def unitReg (m : Machine) (s : Fin node.e.topo.nsockets) : BitVec 64 :=
  m.msr (node.e.topo.cpu s 0 0) node.msrs.msrRaplPowerUnit

/-- The call went by the units of the sockets it is about: the table as the call leaves it,
which is the one it used, holds the units that their registers held before it. -/
def HasSocketUnits (u : RaplUse node.e.topo.nsockets) : Prop :=
  ∀ s, u.call.Concerns s → ∃ ru, u.after.power.ru = some ru ∧
    SameUnits (ru s) (node.unitReg u.before.power.machine s)

/-- Two runs from the same registers do not differ by their orders: every call goes
by the units of its sockets, and the same call on the same contents returns the
same. -/
structure UnitsIndependent (m : Machine) (cs cs' : List (RaplCall node.e.topo.nsockets)) :
    Prop where
  first : ∀ u ∈ node.uses (.start _ m) cs, node.HasSocketUnits u
  second : ∀ u ∈ node.uses (.start _ m) cs', node.HasSocketUnits u
  same : ∀ u ∈ node.uses (.start _ m) cs, ∀ u' ∈ node.uses (.start _ m) cs',
    u.call = u'.call → u.result.SameContents u'.result → u.result = u'.result

end RaplNode

/-! ### Units that agree -/

/-- What `translate` looks at in the units. -/
structure RaplUnits.Agree (u v : RaplUnits) : Prop where
  joules : u.joules = v.joules
  seconds : u.seconds = v.seconds
  watts : u.watts = v.watts

section Agree

variable {reg reg' : BitVec 64} {archId : Nat} {u v : RaplUnits}

theorem SameUnits.refl (reg : BitVec 64) : SameUnits reg reg := ⟨rfl, rfl, rfl⟩

theorem SameUnits.symm (h : SameUnits reg reg') : SameUnits reg' reg :=
  ⟨h.power.symm, h.energy.symm, h.time.symm⟩

theorem SameUnits.trans {reg'' : BitVec 64} (h : SameUnits reg reg') (h' : SameUnits reg' reg'') :
    SameUnits reg reg'' :=
  ⟨h.power.trans h'.power, h.energy.trans h'.energy, h.time.trans h'.time⟩

theorem SameUnits.agree (h : SameUnits reg reg') :
    (getRaplPowerUnit reg).Agree (getRaplPowerUnit reg') where
  joules := congrArg shiftOne h.energy
  seconds := congrArg shiftOne h.time
  watts := congrArg (1 / shiftOne ·) h.power

theorem translate_congr (h : u.Agree v) (type : UnitConversion) (bits : BitVec 64) (units : ℚ) :
    translate archId u type bits units = translate archId v type bits units := by
  cases type <;> simp only [translate, h.joules, h.seconds, h.watts]

theorem decodeLimit_congr (h : SameUnits reg reg') (bits : BitVec 64) (offset : Nat) :
    decodeLimit reg bits offset = decodeLimit reg' bits offset := by
  simp only [decodeLimit, translate_congr h.agree]

/-- `get_power` looks at nothing else either. -/
theorem getPower_congr {n : Nat} {ru ru' : Fin n → RaplUnits} (h : ∀ i, (ru i).Agree (ru' i))
    (s : RaplState n) (sample : RaplSample n) :
    getPower ⟨archId, ru⟩ s sample = getPower ⟨archId, ru'⟩ s sample := by
  have hload : ∀ i type bits (x : RaplDomain),
      x.load archId (ru i) type bits = x.load archId (ru' i) type bits := by
    intro i type bits x
    rw [RaplDomain.load, translate_congr (h i)]
    rfl
  have hdelta : ∀ i elapsed x,
      deltaDomain archId (ru i) elapsed x = deltaDomain archId (ru' i) elapsed x := by
    intro i elapsed x
    simp only [deltaDomain, translate_congr (h i)]
  simp only [getPower, deltaRaplData, readRaplData, hload, hdelta]

/-- A sample stays as it was taken. -/
theorem getPower_bits {n : Nat} (cfg : RaplConfig n) (s : RaplState n) (sample : RaplSample n)
    (i : Fin n) :
    ((getPower cfg s sample).data.pkg i).bits = sample.pkg i ∧
      ((getPower cfg s sample).data.dram i).bits = sample.dram i := by
  refine ⟨?_, (getPower_dram_sampled cfg s sample i).1⟩
  simp only [getPower, deltaRaplData, readRaplData]
  split <;> simp [RaplDomain.load]

end Agree

/-! ### What a call decodes with -/

/-- The state with accesses on record. -/
def PowerState.loggedAll (st : PowerState) (accesses : List Access) : PowerState :=
  { st with machine := { st.machine with log := st.machine.log ++ accesses } }

/-- A power information register in the units of `unitReg`. -/
def decodePowerInfo (unitReg bits : BitVec 64) : RaplPowerInfo where
  msrPowerInfo := bits
  maxPower := (translate 79 (getRaplPowerUnit unitReg) .bitsToWatts (maskVal bits 46 32) 0).2
  minPower := (translate 79 (getRaplPowerUnit unitReg) .bitsToWatts (maskVal bits 30 16) 0).2
  maxWindow := (translate 79 (getRaplPowerUnit unitReg) .bitsToSecondsStd (maskVal bits 54 48) 0).2
  thermPower := (translate 79 (getRaplPowerUnit unitReg) .bitsToWatts (maskVal bits 14 0) 0).2

/-- The limit for one second in the units of `unitReg`, where it fits. -/
def encodeLimit (unitReg : BitVec 64) (watts : BitVec 32) : Option (BitVec 64) :=
  if Encodable unitReg watts then
    some ((0#64 ||| wattsBits unitReg watts <<< 0) ||| windowBits unitReg <<< 17)
  else none

namespace RaplCall

/-- The call comes to `translate`. -/
def translates {n : Nat} : RaplCall n → Bool
  | .getPackageRaplLimit _ limit1 limit2 => limit1.isSome || limit2.isSome
  | .getDramRaplLimit _ limit => limit.isSome
  | _ => true

theorem Concerns.translates {n : Nat} {c : RaplCall n} {s : Fin n} (h : c.Concerns s) :
    c.translates = true := by
  cases c with
  | getPackageRaplLimit => exact h.2
  | getDramRaplLimit => exact h.2
  | _ => rfl

variable (node : RaplNode)

/-- The register that the call gives to `translate`. -/
def unitMsr : RaplCall node.e.topo.nsockets → Nat
  | .getRaplPkgPowerInfo _ _ => node.msrs.msrPkgPowerInfo
  | .getRaplDramPowerInfo _ _ => node.msrs.msrDramPowerInfo
  | _ => node.msrs.msrRaplPowerUnit

/-- The accesses of the call before it comes to `translate`. -/
def reads : RaplCall node.e.topo.nsockets → List Access
  | .getPackageRaplLimit socket limit1 limit2 =>
      (limit1.toList ++ limit2.toList).map fun _ =>
        ⟨.read, socketIndex node.e.topo socket, node.msrs.msrPkgPowerLimit⟩
  | .getDramRaplLimit socket limit =>
      limit.toList.map fun _ => ⟨.read, socketIndex node.e.topo socket, node.msrs.msrDramPowerLimit⟩
  | .capPackagePowerLimit socket _ =>
      [⟨.read, socketIndex node.e.topo socket, node.msrs.msrPkgPowerLimit⟩]
  | .getRaplPkgPowerInfo socket _ =>
      [⟨.read, socketIndex node.e.topo socket, node.msrs.msrPkgPowerInfo⟩]
  | .getRaplDramPowerInfo socket _ =>
      [⟨.read, socketIndex node.e.topo socket, node.msrs.msrDramPowerInfo⟩]
  | .getPower _ =>
      unitAccesses node.e.topo node.msrs.msrPkgEnergyStatus ++
        unitAccesses node.e.topo node.msrs.msrDramEnergyStatus

/-- The result is what the units of `ru` make of its contents. -/
def DecodedBy (ru : Nat → BitVec 64) :
    RaplCall node.e.topo.nsockets → RaplResult node.e.topo.nsockets → Prop
  | .getPackageRaplLimit socket limit1 limit2, .limits l₁ l₂ => ∃ bits1 bits2,
      l₁ = (limit1.map fun _ => decodeLimit (ru socket) bits1 0) ∧
        l₂ = limit2.map fun _ => decodeLimit (ru socket) bits2 32
  | .getDramRaplLimit socket limit, .limit l => ∃ bits,
      l = limit.map fun _ => decodeLimit (ru socket) bits 0
  | .capPackagePowerLimit socket watts, .encoded bits => bits = encodeLimit (ru socket) watts
  | .getRaplPkgPowerInfo socket _, .info i => ∃ bits, i = decodePowerInfo (ru socket) bits
  | .getRaplDramPowerInfo socket _, .info i => ∃ bits, i = decodePowerInfo (ru socket) bits
  | .getPower now, .power before after => ∃ sample : RaplSample node.e.topo.nsockets,
      sample.now = now ∧
        after = Variorum.getPower ⟨node.archId, fun i => getRaplPowerUnit (ru i)⟩ before sample
  | _, _ => False

end RaplCall

/-- The table of units after a call. -/
def RaplNode.table (node : RaplNode) (p : RaplProcess node.e.topo.nsockets)
    (c : RaplCall node.e.topo.nsockets) : Nat → BitVec 64 :=
  (translateUnits node.e (c.unitMsr node) (p.power.loggedAll (c.reads node))).1

/-! ### One function -/

section Functions

variable {e : MsrEnv} {socket msr msrRaplUnit : Nat} {st : PowerState}

theorem logged_eq (st : PowerState) (a : Access) : st.logged a = st.loggedAll [a] := rfl

theorem translateUnits_machine (hmsr : msr < 2 ^ 32) (e : MsrEnv) (st : PowerState) :
    (translateUnits e msr st).2.machine.msr = st.machine.msr := by
  rw [(translateUnits_spec hmsr e st).1]

theorem calcRaplFromBits_eq (limit : RaplLimit) (offset : Nat) :
    calcRaplFromBits e socket limit offset msr st
      = (decodeLimit ((translateUnits e msr st).1 socket) limit.bits offset,
          (translateUnits e msr st).2) := by
  simp only [calcRaplFromBits, translateUnits_of_some (translateUnits_ru e msr st)]
  rfl

/-- A limit read and translated. -/
theorem getDramRaplLimit_some (hs : socket < e.topo.nsockets) (limit : RaplLimit)
    (msr msrRaplUnit : Nat) (st : PowerState) :
    ∃ bits, getDramRaplLimit e socket (some limit) msr msrRaplUnit st
      = let units := translateUnits e msrRaplUnit
          (st.loggedAll [⟨.read, socketIndex e.topo socket, msr⟩])
        (some (decodeLimit (units.1 socket) bits 0), units.2) := by
  simp only [getDramRaplLimit, onLimit, readLimit_eq hs, calcRaplFromBits_eq]
  exact ⟨_, rfl⟩

/-- The first limit of a package, or the second, or both. -/
theorem getPackageRaplLimit_some (hs : socket < e.topo.nsockets) (limit1 limit2 : Option RaplLimit)
    (msr msrRaplUnit : Nat) (st : PowerState)
    (h : (limit1.isSome || limit2.isSome) = true) :
    ∃ bits1 bits2, getPackageRaplLimit e socket limit1 limit2 msr msrRaplUnit st
      = let units := translateUnits e msrRaplUnit (st.loggedAll
          ((limit1.toList ++ limit2.toList).map fun _ => ⟨.read, socketIndex e.topo socket, msr⟩))
        (limit1.map fun _ => decodeLimit (units.1 socket) bits1 0,
          limit2.map fun _ => decodeLimit (units.1 socket) bits2 32, units.2) := by
  rcases limit1 with - | limit1 <;> rcases limit2 with - | limit2
  · cases h
  · simp only [getPackageRaplLimit, onLimit, readLimit_eq hs, calcRaplFromBits_eq]
    exact ⟨0, _, rfl⟩
  · simp only [getPackageRaplLimit, onLimit, readLimit_eq hs, calcRaplFromBits_eq]
    exact ⟨_, 0, rfl⟩
  · -- the second limit finds the table that the first one filled
    have htable := translateUnits_ru e msrRaplUnit
      ((st.logged ⟨.read, socketIndex e.topo socket, msr⟩).logged
        ⟨.read, socketIndex e.topo socket, msr⟩)
    simp only [getPackageRaplLimit, onLimit, readLimit_eq hs, calcRaplFromBits_eq,
      translateUnits_of_some htable]
    have htwice : (st.logged ⟨.read, socketIndex e.topo socket, msr⟩).logged
        ⟨.read, socketIndex e.topo socket, msr⟩
          = st.loggedAll (([limit1] ++ [limit2]).map fun _ =>
              ⟨.read, socketIndex e.topo socket, msr⟩) := by
      simp only [PowerState.logged, PowerState.loggedAll, List.append_assoc]
      rfl
    rw [htwice]
    exact ⟨_, _, rfl⟩

/-- A read is on record, and whatever it leaves in the cell. -/
theorem readMsrByCoord_logged (hs : socket < e.topo.nsockets) (msr : Nat) (cell : BitVec 64)
    (m : Machine) :
    ∃ ret value, readMsrByCoord e.topo e.driver (BitVec.ofNat 32 socket) 0#32 0#32 msr (some cell) m
      = (ret, some value, { m with
          log := m.log ++ [⟨.read, socketIndex e.topo socket, msr⟩] }) := by
  rw [readMsrByCoord_socket hs, Machine.pread]
  cases e.driver.fails m.log.length ⟨.read, socketIndex e.topo socket, msr⟩
  · exact ⟨_, _, rfl⟩
  · exact ⟨_, _, rfl⟩

/-- The register read and translated. -/
theorem getRaplPowerInfo_eq (hs : socket < e.topo.nsockets) (info : RaplPowerInfo) (msr : Nat)
    (st : PowerState) :
    ∃ bits, getRaplPowerInfo e socket info msr st
      = let units := translateUnits e msr (st.loggedAll [⟨.read, socketIndex e.topo socket, msr⟩])
        (decodePowerInfo (units.1 socket) bits, units.2) := by
  obtain ⟨ret, value, hread⟩ := readMsrByCoord_logged hs msr info.msrPowerInfo st.machine
  have htable := translateUnits_ru e msr
    (st.loggedAll [⟨.read, socketIndex e.topo socket, msr⟩])
  refine ⟨value, ?_⟩
  simp only [getRaplPowerInfo, hread]
  simp only [PowerState.loggedAll] at htable ⊢
  simp only [translateUnits_of_some htable]
  rfl

theorem packageLimitBits_eq (watts : BitVec 32) :
    packageLimitBits e socket watts msr msrRaplUnit st
      = encodeLimit ((translateUnits e msrRaplUnit
          (st.loggedAll [⟨.read, socketIndex e.topo socket, msr⟩])).1 socket) watts := by
  simp only [packageLimitBits, calcRaplBits_eq, encodeLimit, logged_eq]
  split <;> rfl

/-- The table after a cap, whatever came of the cap. -/
theorem capPackagePowerLimit_ru (hs : socket < e.topo.nsockets) (watts : BitVec 32) :
    (capPackagePowerLimit e socket watts msr msrRaplUnit st).2.ru
      = some (translateUnits e msrRaplUnit
          (st.loggedAll [⟨.read, socketIndex e.topo socket, msr⟩])).1 := by
  have htable := translateUnits_ru e msrRaplUnit
    (st.loggedAll [⟨.read, socketIndex e.topo socket, msr⟩])
  rw [capPackagePowerLimit_eq hs, logged_eq]
  simp only [apply_ite Prod.snd, apply_ite PowerState.ru, htable, ite_self]

/-- A cap writes to the limit register only. -/
theorem capPackagePowerLimit_frame (hs : socket < e.topo.nsockets) (hmsr : msrRaplUnit < 2 ^ 32)
    (watts : BitVec 32) {msr' : Nat} (hne : msr' ≠ msr) (cpu : Nat) :
    (capPackagePowerLimit e socket watts msr msrRaplUnit st).2.machine.msr cpu msr'
      = st.machine.msr cpu msr' := by
  obtain ⟨ru, data, -, hcall⟩ := capPackagePowerLimit_cases hs hmsr watts msr st
  rw [hcall]
  simp only [apply_ite Prod.snd, Machine.pwrite]
  split_ifs
  · rfl
  · exact Machine.store_of_ne _ _ _ _ (.inr hne)
  · rfl

end Functions

/-! ### One call -/

section Step

variable {node : RaplNode} {p : RaplProcess node.e.topo.nsockets}
variable {c : RaplCall node.e.topo.nsockets}

theorem RaplCall.unitMsr_lt (c : RaplCall node.e.topo.nsockets) : c.unitMsr node < 2 ^ 32 := by
  cases c with
  | getRaplPkgPowerInfo => exact node.msrs.pkgInfo_lt
  | getRaplDramPowerInfo => exact node.msrs.dramInfo_lt
  | _ => exact node.msrs.unit_lt

theorem dataOps_uniform (s : RaplState node.e.topo.nsockets) :
    Uniform node.e.topo (node.dataOps s) := by
  have hop : ∀ op ∈ node.dataOps s, ∃ msr data socket, socket < node.e.topo.nsockets ∧
      op = unitOp node.e.topo msr data socket := by
    intro op hmem
    rcases List.mem_append.mp hmem with hpkg | hdram
    · obtain ⟨socket, hs, rfl⟩ := List.mem_map.mp hpkg
      exact ⟨_, _, socket, List.mem_range.mp hs, rfl⟩
    · obtain ⟨socket, hs, rfl⟩ := List.mem_map.mp hdram
      exact ⟨_, _, socket, List.mem_range.mp hs, rfl⟩
  constructor
  · intro op hmem
    obtain ⟨msr, data, socket, hs, rfl⟩ := hop op hmem
    rw [unitOp_cpu]
    exact unitCpu_lt hs
  · refine ⟨true, fun op hmem => ?_⟩
    obtain ⟨msr, data, socket, -, rfl⟩ := hop op hmem
    rfl

theorem dataOps_readAccess (s : RaplState node.e.topo.nsockets) :
    (node.dataOps s).map (·.readAccess)
      = unitAccesses node.e.topo node.msrs.msrPkgEnergyStatus ++
          unitAccesses node.e.topo node.msrs.msrDramEnergyStatus := by
  rw [RaplNode.dataOps, List.map_append, List.map_map, List.map_map]
  exact congrArg₂ _
    (List.map_congr_left fun socket _ => unitOp_readAccess node.msrs.pkgEnergy_lt _ _ socket)
    (List.map_congr_left fun socket _ => unitOp_readAccess node.msrs.dramEnergy_lt _ _ socket)

/-- The batch `RAPL_DATA` is read before the units are asked for. -/
theorem readOps_dataOps (p : RaplProcess node.e.topo.nsockets) (now : Timeval) :
    { p.power with machine := (readOps node.e (node.dataOps p.rapl) p.power.machine).2 }
      = p.power.loggedAll ((RaplCall.getPower now).reads node) := by
  rw [(readOps_image (dataOps_uniform p.rapl) p.power.machine).machine, dataOps_readAccess]
  rfl

/-- **A call that comes to `translate`** finds or makes the table, decodes with it and
leaves it behind.  It does not write to a unit register. -/
theorem step_spec (p : RaplProcess node.e.topo.nsockets) (h : c.translates = true) :
    (node.step p c).2.power.ru = some (node.table p c) ∧
      (∀ s, node.unitReg (node.step p c).2.power.machine s = node.unitReg p.power.machine s) ∧
      c.DecodedBy node (node.table p c) (node.step p c).1 := by
  have hru := translateUnits_ru node.e (c.unitMsr node) (p.power.loggedAll (c.reads node))
  have hmsr := translateUnits_machine (c.unitMsr_lt) node.e (p.power.loggedAll (c.reads node))
  have hframe : ∀ s, node.unitReg (translateUnits node.e (c.unitMsr node)
      (p.power.loggedAll (c.reads node))).2.machine s = node.unitReg p.power.machine s :=
    fun s => congrFun (congrFun hmsr _) _
  cases c with
  | getPackageRaplLimit socket limit1 limit2 =>
      obtain ⟨bits1, bits2, heq⟩ := getPackageRaplLimit_some socket.isLt limit1 limit2
        node.msrs.msrPkgPowerLimit node.msrs.msrRaplPowerUnit p.power h
      simp only [RaplNode.step, heq]
      exact ⟨hru, hframe, bits1, bits2, rfl, rfl⟩
  | getDramRaplLimit socket limit =>
      obtain ⟨limit, rfl⟩ := Option.isSome_iff_exists.mp h
      obtain ⟨bits, heq⟩ := getDramRaplLimit_some socket.isLt limit
        node.msrs.msrDramPowerLimit node.msrs.msrRaplPowerUnit p.power
      simp only [RaplNode.step, heq]
      exact ⟨hru, hframe, bits, rfl⟩
  | capPackagePowerLimit socket watts =>
      -- the only call that writes, though not to the unit register
      exact ⟨capPackagePowerLimit_ru socket.isLt watts,
        fun s => capPackagePowerLimit_frame socket.isLt node.msrs.unit_lt watts node.msrs.unit_ne _,
        packageLimitBits_eq watts⟩
  | getRaplPkgPowerInfo socket info =>
      obtain ⟨bits, heq⟩ := getRaplPowerInfo_eq socket.isLt info
        node.msrs.msrPkgPowerInfo p.power
      simp only [RaplNode.step, getRaplPkgPowerInfo, heq]
      exact ⟨hru, hframe, bits, rfl⟩
  | getRaplDramPowerInfo socket info =>
      obtain ⟨bits, heq⟩ := getRaplPowerInfo_eq socket.isLt info
        node.msrs.msrDramPowerInfo p.power
      simp only [RaplNode.step, getRaplDramPowerInfo, heq]
      exact ⟨hru, hframe, bits, rfl⟩
  | getPower now =>
      simp only [RaplNode.step, RaplNode.runGetPower, readOps_dataOps p now]
      exact ⟨hru, hframe, _, rfl, rfl⟩

/-- A call without limits does nothing, and its result is empty. -/
theorem step_of_not_translates (p : RaplProcess node.e.topo.nsockets) (h : c.translates = false)
    (ru : Nat → BitVec 64) :
    (node.step p c).2 = p ∧ c.DecodedBy node ru (node.step p c).1 := by
  cases c with
  | getPackageRaplLimit socket limit1 limit2 =>
      obtain ⟨h1, h2⟩ := Bool.or_eq_false_iff.mp h
      obtain rfl := Option.not_isSome_iff_eq_none.mp (Bool.not_eq_true _ ▸ h1)
      obtain rfl := Option.not_isSome_iff_eq_none.mp (Bool.not_eq_true _ ▸ h2)
      exact ⟨rfl, 0, 0, rfl, rfl⟩
  | getDramRaplLimit socket limit =>
      obtain rfl := Option.not_isSome_iff_eq_none.mp (Bool.not_eq_true _ ▸ h)
      exact ⟨rfl, 0, rfl⟩
  | _ => cases h

/-- No call writes to a unit register. -/
theorem step_unitReg (p : RaplProcess node.e.topo.nsockets) (c : RaplCall node.e.topo.nsockets)
    (s : Fin node.e.topo.nsockets) :
    node.unitReg (node.step p c).2.power.machine s = node.unitReg p.power.machine s := by
  cases h : c.translates with
  | false => rw [(step_of_not_translates p h fun _ => 0).1]
  | true => exact (step_spec p h).2.1 s

end Step

/-! ### Runs -/

section Run

variable {node : RaplNode} {p : RaplProcess node.e.topo.nsockets}
variable {c : RaplCall node.e.topo.nsockets} {cs : List (RaplCall node.e.topo.nsockets)}
variable {ru : Nat → BitVec 64}

/-- What is known of a call in a run that goes by the table `ru`. -/
structure GoesBy (node : RaplNode) (ru : Nat → BitVec 64) (m : Machine)
    (u : RaplUse node.e.topo.nsockets) : Prop where
  table : u.call.translates = true → u.after.power.ru = some ru
  decoded : u.call.DecodedBy node ru u.result
  unitReg : ∀ s, node.unitReg u.before.power.machine s = node.unitReg m s

/-- The uses are the calls. -/
theorem uses_calls (p : RaplProcess node.e.topo.nsockets)
    (cs : List (RaplCall node.e.topo.nsockets)) :
    (node.uses p cs).map (·.call) = cs := by
  induction cs generalizing p with
  | nil => rfl
  | cons c cs ih => rw [RaplNode.uses, List.map_cons, ih]

/-- A call that translates goes by its table. -/
theorem goesBy_of_translates (p : RaplProcess node.e.topo.nsockets) (h : c.translates = true) :
    GoesBy node (node.table p c) p.power.machine ⟨p, c, (node.step p c).1, (node.step p c).2⟩ where
  table := fun _ => (step_spec p h).1
  decoded := (step_spec p h).2.2
  unitReg := fun _ => rfl

/-- A call that does not goes by any. -/
theorem goesBy_of_not_translates (p : RaplProcess node.e.topo.nsockets)
    (h : c.translates = false) (ru : Nat → BitVec 64) :
    GoesBy node ru p.power.machine ⟨p, c, (node.step p c).1, (node.step p c).2⟩ where
  table := fun h' => nomatch h.symm.trans h'
  decoded := (step_of_not_translates p h ru).2
  unitReg := fun _ => rfl

theorem table_of_some (hru : p.power.ru = some ru) : node.table p c = ru := by
  have hlogged : (p.power.loggedAll (c.reads node)).ru = some ru := hru
  rw [RaplNode.table, translateUnits_of_some hlogged]

/-- With the table there, every call goes by it. -/
theorem uses_cached (hru : p.power.ru = some ru) :
    ∀ u ∈ node.uses p cs, GoesBy node ru p.power.machine u := by
  induction cs generalizing p with
  | nil => exact fun u hu => nomatch hu
  | cons c cs ih =>
      intro u hu
      have hstep : GoesBy node ru p.power.machine ⟨p, c, (node.step p c).1, (node.step p c).2⟩ ∧
          (node.step p c).2.power.ru = some ru := by
        cases h : c.translates with
        | true =>
            have htable := goesBy_of_translates p h
            rw [table_of_some hru] at htable
            exact ⟨htable, htable.table h⟩
        | false =>
            rw [(step_of_not_translates p h ru).1]
            refine ⟨?_, hru⟩
            have hany := goesBy_of_not_translates p h ru
            rwa [(step_of_not_translates p h ru).1] at hany
      rcases List.mem_cons.mp hu with rfl | hmem
      · exact hstep.1
      · obtain ⟨htable, hdecoded, hreg⟩ := ih hstep.2 u hmem
        exact ⟨htable, hdecoded, fun s => (hreg s).trans (step_unitReg p c s)⟩

/-- **A run** goes by the table of its first call that translates. -/
theorem uses_spec (hfirst : cs.find? (·.translates) = some c) :
    ∀ u ∈ node.uses p cs, GoesBy node (node.table p c) p.power.machine u := by
  induction cs with
  | nil => cases hfirst
  | cons c₀ cs ih =>
      intro u hu
      cases h : c₀.translates with
      | true =>
          -- the first call that translates: from here on the table is there
          rw [List.find?_cons_of_pos h] at hfirst
          obtain rfl := Option.some.inj hfirst
          rcases List.mem_cons.mp hu with rfl | hmem
          · exact goesBy_of_translates p h
          · obtain ⟨htable, hdecoded, hreg⟩ := uses_cached (step_spec p h).1 u hmem
            exact ⟨htable, hdecoded, fun s => (hreg s).trans (step_unitReg p c₀ s)⟩
      | false =>
          -- a call without limits leaves the process as it was
          rw [List.find?_cons_of_neg (by rw [h]; exact Bool.false_ne_true)] at hfirst
          rcases List.mem_cons.mp hu with rfl | hmem
          · exact goesBy_of_not_translates p h _
          · rw [(step_of_not_translates p h fun _ => 0).1] at hmem
            exact ih hfirst u hmem

/-- Without such a call nothing is decoded. -/
theorem uses_of_none (hnone : cs.find? (·.translates) = none) (ru : Nat → BitVec 64) :
    ∀ u ∈ node.uses p cs, GoesBy node ru p.power.machine u := by
  induction cs with
  | nil => exact fun u hu => nomatch hu
  | cons c₀ cs ih =>
      intro u hu
      rw [List.find?_cons] at hnone
      cases h : c₀.translates with
      | true =>
          rw [h] at hnone
          cases hnone
      | false =>
          rw [h] at hnone
          rcases List.mem_cons.mp hu with rfl | hmem
          · exact goesBy_of_not_translates p h ru
          · rw [(step_of_not_translates p h fun _ => 0).1] at hmem
            exact ih hnone u hmem

end Run

/-! ### Results -/

section Congr

variable {reg reg' : BitVec 64}

theorem encodeLimit_congr (h : SameUnits reg reg') (watts : BitVec 32) :
    encodeLimit reg watts = encodeLimit reg' watts := by
  have hwindow : windowBits reg = windowBits reg' :=
    congrArg Prod.fst (translate_congr h.agree _ _ _)
  simp only [encodeLimit, Encodable, wattsBits, h.power, hwindow]

theorem decodePowerInfo_congr (h : SameUnits reg reg') (bits : BitVec 64) :
    decodePowerInfo reg bits = decodePowerInfo reg' bits := by
  simp only [decodePowerInfo, translate_congr h.agree]

/-- A limit that is there is decoded alike. -/
theorem map_decodeLimit_congr {limit : Option RaplLimit} {bits bits' : BitVec 64} {offset : Nat}
    (h : limit.isSome = true → SameUnits reg reg')
    (hsame : (limit.map fun _ => decodeLimit reg bits offset).map (·.bits)
      = (limit.map fun _ => decodeLimit reg' bits' offset).map (·.bits)) :
    (limit.map fun _ => decodeLimit reg bits offset)
      = limit.map fun _ => decodeLimit reg' bits' offset := by
  cases limit with
  | none => rfl
  | some limit =>
      have hbits : bits = bits' := Option.some.inj hsame
      rw [Option.map_some, Option.map_some, hbits, decodeLimit_congr (h rfl)]

end Congr

/-- **Results that come of the same contents** and of units that agree are the same. -/
theorem RaplCall.DecodedBy.eq_of_sameContents {node : RaplNode}
    {c : RaplCall node.e.topo.nsockets} {ru ru' : Nat → BitVec 64}
    {r r' : RaplResult node.e.topo.nsockets} (h : c.DecodedBy node ru r)
    (h' : c.DecodedBy node ru' r') (hunits : ∀ s : Fin _, c.Concerns s → SameUnits (ru s) (ru' s))
    (hsame : r.SameContents r') : r = r' := by
  -- one case for each kind of call; the results of other kinds are no results of it
  cases c with
  | getPackageRaplLimit socket limit1 limit2 =>
      cases r with
      | limits l₁ l₂ =>
          cases r' with
          | limits l₁' l₂' =>
              obtain ⟨bits1, bits2, rfl, rfl⟩ := h
              obtain ⟨bits1', bits2', rfl, rfl⟩ := h'
              obtain ⟨hsame1, hsame2⟩ := hsame
              have hfirst : limit1.isSome = true → SameUnits (ru socket) (ru' socket) :=
                fun hsome => hunits socket ⟨rfl, Bool.or_eq_true_iff.mpr (.inl hsome)⟩
              have hsecond : limit2.isSome = true → SameUnits (ru socket) (ru' socket) :=
                fun hsome => hunits socket ⟨rfl, Bool.or_eq_true_iff.mpr (.inr hsome)⟩
              rw [map_decodeLimit_congr hfirst hsame1, map_decodeLimit_congr hsecond hsame2]
          | _ => exact False.elim h'
      | _ => exact False.elim h
  | getDramRaplLimit socket limit =>
      cases r with
      | limit l =>
          cases r' with
          | limit l' =>
              obtain ⟨bits, rfl⟩ := h
              obtain ⟨bits', rfl⟩ := h'
              rw [map_decodeLimit_congr (fun hsome => hunits socket ⟨rfl, hsome⟩) hsame]
          | _ => exact False.elim h'
      | _ => exact False.elim h
  | capPackagePowerLimit socket watts =>
      cases r with
      | encoded bits =>
          cases r' with
          | encoded bits' =>
              have hbits : bits = encodeLimit (ru socket) watts := h
              have hbits' : bits' = encodeLimit (ru' socket) watts := h'
              rw [hbits, hbits', encodeLimit_congr (hunits socket rfl)]
          | _ => exact False.elim h'
      | _ => exact False.elim h
  | getRaplPkgPowerInfo socket info | getRaplDramPowerInfo socket info =>
      cases r with
      | info i =>
          cases r' with
          | info i' =>
              obtain ⟨bits, rfl⟩ := h
              obtain ⟨bits', rfl⟩ := h'
              have hbits : bits = bits' := hsame
              rw [hbits, decodePowerInfo_congr (hunits socket rfl)]
          | _ => exact False.elim h'
      | _ => exact False.elim h
  | getPower now =>
      cases r with
      | power before after =>
          cases r' with
          | power before' after' =>
              obtain ⟨sample, hnow, rfl⟩ := h
              obtain ⟨sample', hnow', rfl⟩ := h'
              obtain ⟨rfl, hbits⟩ := hsame
              -- the samples are the same, as they can be read off the energies that the state keeps
              have hsample : sample = sample' := by
                have hpkg : sample.pkg = sample'.pkg := by
                  funext i
                  rw [← (getPower_bits _ before sample i).1, (hbits i).1, (getPower_bits _ _ _ i).1]
                have hdram : sample.dram = sample'.dram := by
                  funext i
                  rw [← (getPower_bits _ before sample i).2, (hbits i).2, (getPower_bits _ _ _ i).2]
                rcases sample with ⟨_, _, _⟩
                rcases sample' with ⟨_, _, _⟩
                obtain rfl := hnow.trans hnow'.symm
                obtain rfl := hpkg
                obtain rfl := hdram
                rfl
              rw [hsample, getPower_congr fun i => (hunits i trivial).agree]
          | _ => exact False.elim h'
      | _ => exact False.elim h

/-! ### The order of calls -/

namespace RaplNode

variable (node : RaplNode) (m : Machine)

/-- The unit register that the batch finds for a socket when a process starts with the
call: the one the call gives to `translate`, on the CPU that 16 bits leave of the
number, or nothing if that read is refused. -/
def firstUnits (c : RaplCall node.e.topo.nsockets) (s : Fin node.e.topo.nsockets) : BitVec 64 :=
  if node.e.driver.fails (m.log.length + (c.reads node).length + s)
      ⟨.read, unitCpu node.e.topo s, c.unitMsr node⟩ then 0
  else m.msr (unitCpu node.e.topo s) (c.unitMsr node)

/-- The first call that translates finds the units of all sockets of the run. -/
def FindsUnits (cs : List (RaplCall node.e.topo.nsockets)) : Prop :=
  ∀ c, cs.find? (·.translates) = some c → ∀ c' ∈ cs, ∀ s, c'.Concerns s →
    SameUnits (node.firstUnits m c s) (node.unitReg m s)

variable {node m} {c : RaplCall node.e.topo.nsockets}
variable {cs cs' : List (RaplCall node.e.topo.nsockets)}

theorem table_start (s : Fin node.e.topo.nsockets) :
    node.table (.start _ m) c s = node.firstUnits m c s := by
  obtain ⟨-, -, hused⟩ := translateUnits_spec c.unitMsr_lt node.e
    ((RaplProcess.start node.e.topo.nsockets m).power.loggedAll (c.reads node))
  have hlength : ((RaplProcess.start node.e.topo.nsockets m).power.loggedAll
      (c.reads node)).machine.log.length = m.log.length + (c.reads node).length :=
    List.length_append
  rw [table, hused s s.isLt]
  show unitImage node.e _ _ _ = _
  rw [unitImage, hlength]
  rfl

theorem call_mem_of_mem_uses {u : RaplUse node.e.topo.nsockets}
    (hu : u ∈ node.uses (.start _ m) cs) : u.call ∈ cs := by
  have hmem := List.mem_map_of_mem (f := (·.call)) hu
  rwa [uses_calls] at hmem

/-- A run whose first call finds the units goes by a table that has them. -/
theorem exists_table (h : node.FindsUnits m cs) :
    ∃ ru : Nat → BitVec 64, ∀ u ∈ node.uses (.start _ m) cs, GoesBy node ru m u ∧
      ∀ s : Fin _, u.call.Concerns s → SameUnits (ru s) (node.unitReg m s) := by
  cases hfirst : cs.find? (·.translates) with
  | none =>
      -- any table will do
      refine ⟨fun _ => 0, fun u hu => ⟨uses_of_none hfirst _ u hu, fun s hcon => ?_⟩⟩
      have hnot := List.find?_eq_none.mp hfirst u.call (call_mem_of_mem_uses hu)
      exact absurd hcon.translates hnot
  | some c =>
      refine ⟨node.table (.start _ m) c, fun u hu => ⟨uses_spec hfirst u hu, fun s hcon => ?_⟩⟩
      rw [table_start]
      exact h c hfirst u.call (call_mem_of_mem_uses hu) s hcon

/-- Every call goes by the units of its sockets when the first one finds them. -/
theorem hasSocketUnits_iff (m : Machine) (cs : List (RaplCall node.e.topo.nsockets)) :
    (∀ u ∈ node.uses (.start _ m) cs, node.HasSocketUnits u) ↔ node.FindsUnits m cs := by
  constructor
  · intro h c hfirst c' hc' s hcon
    rw [← uses_calls (.start _ m) cs] at hc'
    obtain ⟨u, hu, rfl⟩ := List.mem_map.mp hc'
    obtain ⟨htable, -, hreg⟩ := uses_spec hfirst u hu
    obtain ⟨ru, hru, hsame⟩ := h u hu s hcon
    obtain rfl := Option.some.inj ((htable hcon.translates).symm.trans hru)
    rw [table_start, hreg] at hsame
    exact hsame
  · intro h u hu s hcon
    obtain ⟨ru, hruns⟩ := exists_table h
    obtain ⟨⟨htable, -, hreg⟩, hsame⟩ := hruns u hu
    exact ⟨ru, htable hcon.translates, hreg s ▸ hsame s hcon⟩

/-- **The order of calls, exactly**: two runs are independent of it when the first call
of each finds the units of the sockets.  The table of units is filled once in a process,
by the first call that comes to `translate`, from the register that this call passes,
and every later call is decoded by it. -/
theorem unitsIndependent_iff (node : RaplNode) (m : Machine)
    (cs cs' : List (RaplCall node.e.topo.nsockets)) :
    node.UnitsIndependent m cs cs' ↔ node.FindsUnits m cs ∧ node.FindsUnits m cs' := by
  constructor
  · intro h
    exact ⟨(hasSocketUnits_iff m cs).mp h.first, (hasSocketUnits_iff m cs').mp h.second⟩
  · rintro ⟨hfinds, hfinds'⟩
    refine ⟨(hasSocketUnits_iff m cs).mpr hfinds, (hasSocketUnits_iff m cs').mpr hfinds', ?_⟩
    intro u hu u' hu' hcall hcontents
    obtain ⟨ru, hruns⟩ := exists_table hfinds
    obtain ⟨ru', hruns'⟩ := exists_table hfinds'
    obtain ⟨⟨-, hdecoded, -⟩, hsame⟩ := hruns u hu
    obtain ⟨⟨-, hdecoded', -⟩, hsame'⟩ := hruns' u' hu'
    -- both tables have the units of the registers
    rw [hcall] at hdecoded hsame
    exact hdecoded.eq_of_sameContents hdecoded'
      (fun s hcon => (hsame s hcon).trans (hsame' s hcon).symm) hcontents

/-- Where the CPUs fit and no read is refused, it is enough that the first call gives
the unit register to `translate`. -/
theorem findsUnits_of_unitMsr (hfit : node.e.topo.SocketsFit)
    (hreads : ∀ k a, node.e.driver.fails k a = false)
    (hunit : ∀ c, cs.find? (·.translates) = some c → c.unitMsr node = node.msrs.msrRaplPowerUnit) :
    node.FindsUnits m cs := by
  intro c hfirst c' _ s _
  have hfound : node.firstUnits m c s = node.unitReg m s := by
    rw [firstUnits, hreads, unitCpu_of_fits hfit s.isLt, hunit c hfirst]
    rfl
  rw [hfound]
  exact .refl _

end RaplNode

/-- The registers of 06_4F. -/
def fm064fRaplMsrs : RaplMsrs where
  msrRaplPowerUnit := 0x606
  msrPkgPowerLimit := 0x610
  msrDramPowerLimit := 0x618
  msrPkgPowerInfo := 0x614
  msrDramPowerInfo := 0x61C
  msrPkgEnergyStatus := 0x611
  msrDramEnergyStatus := 0x619
  unit_lt := by decide
  pkgInfo_lt := by decide
  dramInfo_lt := by decide
  pkgEnergy_lt := by decide
  dramEnergy_lt := by decide
  unit_ne := by decide

def fm064fNode : RaplNode := ⟨twoSocketEnv, 79, fm064fRaplMsrs⟩

/-- Units of 1/8 W, and a thermal power of 120 W in them. -/
def eighthWattRegs : Machine :=
  ⟨fun _ msr => if msr = 0x606 then 0xA1003 else if msr = 0x614 then 0x3C0 else 0, []⟩

/-- The power information of socket 0. -/
def infoCall : RaplCall 2 := .getRaplPkgPowerInfo 0 ⟨0, 0, 0, 0, 0⟩

/-- The first limit of socket 0. -/
def limitCall : RaplCall 2 := .getPackageRaplLimit 0 (some ⟨0, 0, 0⟩) none

theorem info_first_dependent :
    ¬ fm064fNode.UnitsIndependent eighthWattRegs [infoCall, limitCall] [limitCall, infoCall] := by
  intro h
  have hfinds : fm064fNode.FindsUnits eighthWattRegs [infoCall, limitCall] :=
    (RaplNode.hasSocketUnits_iff _ _).mp h.first
  have hsame := hfinds infoCall rfl infoCall List.mem_cons_self (0 : Fin 2) rfl
  exact absurd hsame.power (by decide)

end Variorum
