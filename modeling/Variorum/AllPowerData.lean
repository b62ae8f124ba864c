/-
Variorum/AllPowerData.lean

The rows that a sampler prints: `get_all_power_data`, and its variant
`get_all_power_data_fixed` with columns for every thread.

Both print a header on their first call.  The variant then reads the power limits
and prints the tag and the time on every call.  The other one has both in the
block of the first call: a later call prints the limits that the first one read
(`laterRows`), in a row without tag and time, which is two fields short of the
header.  So a run prints what it should exactly if it is no longer than one call
(`allPowerRows_iff`).
-/
import Variorum.FixedCounters
import Variorum.RaplOrder

namespace Variorum

open Runs

/-! ### What is printed -/

/-- What a conversion of `fprintf` prints. -/
inductive PowerField
  | text (s : String)
  | millis (now : Int)
  | real (x : ℚ)
  | count (x : BitVec 64)

/-- A line is its fields; a space stands before each but the first. -/
abbrev Line := List PowerField

/-- `"%s %ld"` with the tag and `now_ms()`. -/
def stamp (nowMs : Int) : Line := [.text "_VAR_MONITOR", .millis nowMs]

/-- The titles of the columns of a socket. -/
def powerTitles (i : Nat) : Line :=
  [.text s!"pkg{i}_joules", .text s!"pkg{i}_lim1watts", .text s!"pkg{i}_lim2watts",
    .text s!"dram{i}_joules", .text s!"dram{i}_limwatts"]

/-- The titles of the columns of a thread. -/
def threadTitles (i : Nat) : Line :=
  [.text s!"InstRet{i}", .text s!"UnhaltClkCycles{i}", .text s!"UnhaltRefCycles{i}",
    .text s!"APERF{i}", .text s!"MPERF{i}", .text s!"TSC{i}"]

/-- The header of `get_all_power_data`: the tag, the time and the titles of each socket. -/
def powerHeader (t : Topology) : Line :=
  [.text "_VAR_MONITOR", .text "time"] ++ (List.range t.nsockets).flatMap powerTitles

/-- The columns of the sockets; the limits of socket `i` are entries `3 * i`,
`3 * i + 1` and `3 * i + 2`. -/
def powerFields {n : Nat} (data : RaplData n) (rlim : Nat → RaplLimit) : Line :=
  (List.finRange n).flatMap fun i =>
    [.real (data.pkg i).deltaJoules, .real (rlim (3 * i)).watts, .real (rlim (3 * i + 1)).watts,
      .real (data.dram i).deltaJoules, .real (rlim (3 * i + 2)).watts]

/-! ### The functions -/

/-- The registers of the two functions.  The limits are not in the registers that
enabling the counters writes to. -/
structure SamplerNode extends RaplNode where
  msrsFixedCtrs : Fin 3 → Nat
  msrAperf : Nat
  msrMperf : Nat
  msrTsc : Nat
  pkgLimit_ne : msrs.msrPkgPowerLimit ≠ ia32PerfGlobalCtrl ∧
    msrs.msrPkgPowerLimit ≠ ia32FixedCtrCtrl
  dramLimit_ne : msrs.msrDramPowerLimit ≠ ia32PerfGlobalCtrl ∧
    msrs.msrDramPowerLimit ≠ ia32FixedCtrCtrl

/-- What a call finds: the clocks, the registers, and what `malloc` returns. -/
structure SamplerCall where
  now : Timeval
  nowMs : Int
  contents : Nat → Nat → BitVec 64
  junk : Nat → RaplLimit

/-- The process, and the static variables of `get_all_power_data`. -/
structure SamplerState (n : Nat) where
  process : RaplProcess n
  initGetPowerData : Bool
  rlim : Nat → RaplLimit

/-- `struct clocks_data`, by CPU. -/
structure ClocksData where
  aperf : Nat → BitVec 64
  mperf : Nat → BitVec 64
  tsc : Nat → BitVec 64

/-- The static variables of `get_all_power_data_fixed` and of what it calls for the
counters; `ctrlOps` is the batch `FIXED_COUNTERS_CTRL_DATA`. -/
structure FixedStatics where
  initGetPowerData : Bool
  rlim : Nat → RaplLimit
  c0 : FixedCounter
  c1 : FixedCounter
  c2 : FixedCounter
  ctrlOps : Option (List MsrBatchOp)
  cd : ClocksData

/-- The header of `get_all_power_data_fixed`, which has titles for every thread as well. -/
def fixedHeader (t : Topology) : Line :=
  powerHeader t ++ (List.range t.nthreads).flatMap threadTitles

/-- The columns of the threads. -/
def threadFields (t : Topology) (f : FixedStatics) : Line :=
  (List.range t.nthreads).flatMap fun i =>
    [.count (f.c0.value i), .count (f.c1.value i), .count (f.c2.value i), .count (f.cd.aperf i),
      .count (f.cd.mperf i), .count (f.cd.tsc i)]

/-- The operations of a batch with one load for each register, by thread; the `k`-th
load has the data `loads k` tells. -/
def threadOps (t : Topology) (loads : List (Nat × (Nat → BitVec 64))) : List MsrBatchOp :=
  loads.flatMap fun load => (List.range t.nthreads).map fun i =>
    { MsrBatchOp.zero.fill load.1 i with msrdata := load.2 i }

/-- `read_batch` of such a batch: the data of the `k`-th load. -/
def readThreads (e : MsrEnv) (loads : List (Nat × (Nat → BitVec 64))) (m : Machine) :
    (Nat → Nat → BitVec 64) × Machine :=
  let (ops, m) := readOps e (threadOps e.topo loads) m
  (fun k i => ((ops.map (·.msrdata))[k * e.topo.nthreads + i]?).getD 0, m)

namespace SamplerNode

variable (node : SamplerNode)

/-- The limits of one socket, `rlim_idx` being `3 * i`. -/
def readSocketLimits (i : Nat) (rlim : Nat → RaplLimit) (st : PowerState) :
    (Nat → RaplLimit) × PowerState :=
  let (limit1, limit2, st) := getPackageRaplLimit node.e i (some (rlim (3 * i)))
    (some (rlim (3 * i + 1))) node.msrs.msrPkgPowerLimit node.msrs.msrRaplPowerUnit st
  let rlim := Function.update rlim (3 * i) (limit1.getD (rlim (3 * i)))
  let rlim := Function.update rlim (3 * i + 1) (limit2.getD (rlim (3 * i + 1)))
  let (limit, st) := getDramRaplLimit node.e i (some (rlim (3 * i + 2)))
    node.msrs.msrDramPowerLimit node.msrs.msrRaplPowerUnit st
  (Function.update rlim (3 * i + 2) (limit.getD (rlim (3 * i + 2))), st)

/-- The loop over the sockets that reads the limits. -/
def readLimits (rlim : Nat → RaplLimit) (st : PowerState) : (Nat → RaplLimit) × PowerState :=
  (List.range node.e.topo.nsockets).foldl
    (fun (rlim, st) i => node.readSocketLimits i rlim st) (rlim, st)

/-- `get_all_power_data`, without libjustify. -/
def getAllPowerData (c : SamplerCall) (s : SamplerState node.e.topo.nsockets) :
    List Line × SamplerState node.e.topo.nsockets :=
  let p := node.runGetPower c.now (s.process.found c.contents)
  let (lines, start, rlim, st) :=
    if s.initGetPowerData then ([], [], s.rlim, p.power)
    else
      let (rlim, st) := node.readLimits c.junk p.power
      ([powerHeader node.e.topo], stamp c.nowMs, rlim, st)
  (lines ++ [start ++ powerFields p.rapl.data rlim], ⟨{ p with power := st }, true, rlim⟩)

/-- `enable_fixed_counters` on these counters, whose batch is kept next to them. -/
def enableCounters (f : FixedStatics) (m : Machine) : FixedStatics × Machine :=
  let st := enableFixedCounters node.e ia32PerfGlobalCtrl ia32FixedCtrCtrl
    ⟨f.c0, f.c1, f.c2, ⟨m, f.ctrlOps⟩⟩
  ({ f with c0 := st.c0, c1 := st.c1, c2 := st.c2, ctrlOps := st.ctrl.ops }, st.ctrl.machine)

/-- `read_batch(FIXED_COUNTERS_DATA)` and `read_batch(CLOCKS_DATA)`. -/
def readCounters (f : FixedStatics) (m : Machine) : FixedStatics × Machine :=
  let (value, m) := readThreads node.e [(node.msrsFixedCtrs 0, f.c0.value),
    (node.msrsFixedCtrs 1, f.c1.value), (node.msrsFixedCtrs 2, f.c2.value)] m
  let (clock, m) := readThreads node.e [(node.msrAperf, f.cd.aperf), (node.msrMperf, f.cd.mperf),
    (node.msrTsc, f.cd.tsc)] m
  ({ f with
      c0 := { f.c0 with value := value 0 }
      c1 := { f.c1 with value := value 1 }
      c2 := { f.c2 with value := value 2 }
      cd := ⟨clock 0, clock 1, clock 2⟩ }, m)

/-- The block of the first call in `get_all_power_data_fixed`. -/
def initFixed (c : SamplerCall) (f : FixedStatics) (st : PowerState) :
    List Line × FixedStatics × PowerState :=
  if f.initGetPowerData then ([], f, st)
  else
    let (f, m) := node.enableCounters f st.machine
    let (rlim, st) := node.readLimits c.junk { st with machine := m }
    ([fixedHeader node.e.topo], { f with initGetPowerData := true, rlim := rlim }, st)

/-- The rest of it: the counters and the limits are read, and the row is printed. -/
def fixedRow {n : Nat} (c : SamplerCall) (data : RaplData n) (f : FixedStatics)
    (st : PowerState) : Line × FixedStatics × PowerState :=
  let (f, m) := node.readCounters f st.machine
  let (rlim, st) := node.readLimits f.rlim { st with machine := m }
  let f := { f with rlim := rlim }
  (stamp c.nowMs ++ powerFields data rlim ++ threadFields node.e.topo f, f, st)

/-- `get_all_power_data_fixed`, without libjustify. -/
def getAllPowerDataFixed (c : SamplerCall) (p : RaplProcess node.e.topo.nsockets)
    (f : FixedStatics) : List Line × RaplProcess node.e.topo.nsockets × FixedStatics :=
  let p := node.runGetPower c.now (p.found c.contents)
  let (lines, f, st) := node.initFixed c f p.power
  let (row, f, st) := node.fixedRow c p.rapl.data f st
  (lines ++ [row], { p with power := st }, f)

/-- Calls of `get_all_power_data` one after the other. -/
def step (s : SamplerState node.e.topo.nsockets) (c : SamplerCall) :
    Option (SamplerState node.e.topo.nsockets) :=
  some (node.getAllPowerData c s).2

end SamplerNode

/-- Before the first call of `get_all_power_data` in a process. -/
def SamplerState.start {n : Nat} (p : RaplProcess n) (rlim : Nat → RaplLimit) : SamplerState n :=
  ⟨p, false, rlim⟩

/-! ### What is asked of a row -/

/-- Limits in registers, in the units of `ru`: entry `k` is one of socket `k / 3`, and in
the registers of the CPU that `cpu` gives for the socket. -/
def RaplNode.limitsAt (node : RaplNode) (cpu : Nat → Nat) (ru : Nat → BitVec 64)
    (contents : Nat → Nat → BitVec 64) (k : Nat) : RaplLimit :=
  let reg := contents (cpu (k / 3))
  match k % 3 with
  | 0 => decodeLimit (ru (k / 3)) (reg node.msrs.msrPkgPowerLimit) 0
  | 1 => decodeLimit (ru (k / 3)) (reg node.msrs.msrPkgPowerLimit) 32
  | _ => decodeLimit (ru (k / 3)) (reg node.msrs.msrDramPowerLimit) 0

/-- The limits as they are read: `read_msr_by_coord` computes the index of the CPU in 32
bits. -/
def RaplNode.limitsIn (node : RaplNode) : (Nat → BitVec 64) → (Nat → Nat → BitVec 64) →
    Nat → RaplLimit :=
  node.limitsAt (socketIndex node.e.topo)

/-- The limits of the sockets: those in the registers of the first CPU of each. -/
def RaplNode.ownLimits (node : RaplNode) : (Nat → BitVec 64) → (Nat → Nat → BitVec 64) →
    Nat → RaplLimit :=
  node.limitsAt fun i => node.e.topo.cpu i 0 0

/-- The control batch, if there is one, is for the control registers. -/
def FixedStatics.Valid (t : Topology) (f : FixedStatics) : Prop :=
  ∀ ops, f.ctrlOps = some ops → IsCtrlBatch t ia32PerfGlobalCtrl ia32FixedCtrCtrl ops

namespace SamplerNode

variable (node : SamplerNode)

/-- No access of the driver is refused, whenever it is asked. -/
def Answers : Prop := ∀ n a, node.e.driver.fails n a = false

/-- A call prints one row, after the header if it is the first, and `fields` is what is
in the row after the tag and the time: as many fields as the header has titles,
those of the limits from the registers at the time of the call, which are the
registers of the sockets where no index wraps.  In the same state
`get_all_power_data_fixed` prints the same, and its columns for the threads. -/
structure RowIs (s : SamplerState node.e.topo.nsockets) (c : SamplerCall) (fields : Line) :
    Prop where
  lines : (node.getAllPowerData c s).1
    = (if s.initGetPowerData then [] else [powerHeader node.e.topo]) ++ [stamp c.nowMs ++ fields]
  length : (stamp c.nowMs ++ fields).length = (powerHeader node.e.topo).length
  limits : node.Answers → ∃ ru, (node.getAllPowerData c s).2.process.power.ru = some ru ∧
    fields = powerFields (node.getAllPowerData c s).2.process.rapl.data
      (node.limitsIn ru c.contents) ∧
    ((node.e.topo.nsockets - 1) * node.e.topo.ncores < 2 ^ 32 →
      fields = powerFields (node.getAllPowerData c s).2.process.rapl.data
        (node.ownLimits ru c.contents))
  fixed : node.Answers → ∀ f : FixedStatics, f.Valid node.e.topo →
    let printed := node.getAllPowerDataFixed c s.process f
    printed.1.getLast? = some (stamp c.nowMs ++ fields ++ threadFields node.e.topo printed.2.2)

/-- A call prints such a row. -/
def RowRight (s : SamplerState node.e.topo.nsockets) (c : SamplerCall) : Prop :=
  ∃ fields, node.RowIs s c fields

end SamplerNode

/-! ### Lengths -/

section Lengths

variable {n : Nat}

theorem flatMap_length_const {α β : Type*} {f : α → List β} {l : List α} {k : Nat}
    (h : ∀ x ∈ l, (f x).length = k) : (l.flatMap f).length = l.length * k := by
  rw [List.length_flatMap, List.map_congr_left h, List.map_const', List.sum_replicate_nat]

theorem powerFields_length (data : RaplData n) (rlim : Nat → RaplLimit) :
    (powerFields data rlim).length = n * 5 := by
  rw [powerFields, flatMap_length_const (k := 5) fun _ _ => rfl, List.length_finRange]

theorem powerHeader_length (t : Topology) :
    (powerHeader t).length = 2 + t.nsockets * 5 := by
  rw [powerHeader, List.length_append, flatMap_length_const (k := 5) fun _ _ => rfl,
    List.length_range]
  rfl

end Lengths

/-! ### The limits -/

section Limits

variable {node : SamplerNode} {ru : Nat → BitVec 64} {st : PowerState} {i : Nat}

/-- `get_package_rapl_limit` with the table there, when no read is refused. -/
theorem getPackageRaplLimit_answered (hans : node.Answers) (hi : i < node.e.topo.nsockets)
    (hru : st.ru = some ru) (limit1 limit2 : RaplLimit) (msr msrRaplUnit : Nat) :
    let a : Access := ⟨.read, socketIndex node.e.topo i, msr⟩
    let reg := st.machine.msr (socketIndex node.e.topo i) msr
    getPackageRaplLimit node.e i (some limit1) (some limit2) msr msrRaplUnit st
      = (some (decodeLimit (ru i) reg 0), some (decodeLimit (ru i) reg 32),
          (st.logged a).logged a) := by
  intro a reg
  have hru' : ∀ a, ((st.logged a).logged a).ru = some ru := fun _ => hru
  have hread : ∀ st, ReadRefused node.e msr st i = false := fun st => hans _ _
  simp only [getPackageRaplLimit, onLimit, readLimit_eq hi, calcRaplFromBits_cached (hru' _), hread]
  rfl

/-- `get_dram_rapl_limit` reads the register of the socket's index as well, once the
table of units is filled. -/
theorem getDramRaplLimit_answered (hans : node.Answers) (hi : i < node.e.topo.nsockets)
    (hru : st.ru = some ru) (limit : RaplLimit) (msr msrRaplUnit : Nat) :
    let a : Access := ⟨.read, socketIndex node.e.topo i, msr⟩
    getDramRaplLimit node.e i (some limit) msr msrRaplUnit st
      = (some (decodeLimit (ru i) (st.machine.msr (socketIndex node.e.topo i) msr) 0),
          st.logged a) := by
  intro a
  have hru' : ∀ a, (st.logged a).ru = some ru := fun _ => hru
  have hread : ReadRefused node.e msr st i = false := hans _ _
  simp only [getDramRaplLimit, onLimit, readLimit_eq hi, calcRaplFromBits_cached (hru' _), hread]
  rfl

/-- The limits of socket `i`. -/
theorem limitsIn_entries (node : RaplNode) (ru : Nat → BitVec 64)
    (contents : Nat → Nat → BitVec 64) (i : Nat) :
    let reg := contents (socketIndex node.e.topo i)
    node.limitsIn ru contents (3 * i) = decodeLimit (ru i) (reg node.msrs.msrPkgPowerLimit) 0 ∧
      node.limitsIn ru contents (3 * i + 1)
        = decodeLimit (ru i) (reg node.msrs.msrPkgPowerLimit) 32 ∧
      node.limitsIn ru contents (3 * i + 2)
        = decodeLimit (ru i) (reg node.msrs.msrDramPowerLimit) 0 := by
  unfold RaplNode.limitsIn RaplNode.limitsAt
  have hdiv : 3 * i / 3 = i ∧ (3 * i + 1) / 3 = i ∧ (3 * i + 2) / 3 = i := by omega
  have hmod : 3 * i % 3 = 0 ∧ (3 * i + 1) % 3 = 1 ∧ (3 * i + 2) % 3 = 2 := by omega
  simp only [hdiv, hmod, and_self]

/-- The three entries of a socket, and nothing else. -/
theorem readSocketLimits_spec (hans : node.Answers) (hi : i < node.e.topo.nsockets)
    (hru : st.ru = some ru) (rlim : Nat → RaplLimit) :
    let limits := node.readSocketLimits i rlim st
    (∀ k, limits.1 k = if k / 3 = i then node.limitsIn ru st.machine.msr k else rlim k) ∧
      limits.2.ru = some ru ∧ limits.2.machine.msr = st.machine.msr := by
  simp only [SamplerNode.readSocketLimits, getPackageRaplLimit_answered hans hi hru]
  have hru' : ∀ a, ((st.logged a).logged a).ru = some ru := fun _ => hru
  rw [getDramRaplLimit_answered hans hi (hru' _)]
  obtain ⟨hlimit1, hlimit2, hlimit⟩ := limitsIn_entries node.toRaplNode ru st.machine.msr i
  refine ⟨fun k => ?_, hru, rfl⟩
  -- the three assignments are to entries of this socket alone
  split
  · next hk =>
      have hcases : k = 3 * i ∨ k = 3 * i + 1 ∨ k = 3 * i + 2 := by omega
      rcases hcases with rfl | rfl | rfl
      · rw [Function.update_of_ne (by omega), Function.update_of_ne (by omega),
          Function.update_self, hlimit1, Option.getD_some]
      · rw [Function.update_of_ne (by omega), Function.update_self, hlimit2, Option.getD_some]
      · rw [Function.update_self, hlimit, Option.getD_some]
        rfl
  · next hk =>
      rw [Function.update_of_ne (by omega), Function.update_of_ne (by omega),
        Function.update_of_ne (by omega)]

/-- The entries of the first `n` sockets have been read from the registers, which are
as they were. -/
structure LimitsOf (node : SamplerNode) (ru : Nat → BitVec 64) (contents : Nat → Nat → BitVec 64)
    (n : Nat) (limits : (Nat → RaplLimit) × PowerState) : Prop where
  entries : ∀ k < 3 * n, limits.1 k = node.limitsIn ru contents k
  table : limits.2.ru = some ru
  registers : limits.2.machine.msr = contents

/-- One turn of the loop. -/
theorem LimitsOf.succ (hans : node.Answers) {contents : Nat → Nat → BitVec 64} {n : Nat}
    {limits : (Nat → RaplLimit) × PowerState} (hn : n < node.e.topo.nsockets)
    (h : LimitsOf node ru contents n limits) :
    LimitsOf node ru contents (n + 1) (node.readSocketLimits n limits.1 limits.2) := by
  obtain ⟨hentries, htable, hregisters⟩ := readSocketLimits_spec hans hn h.table limits.1
  refine ⟨fun k hk => ?_, htable, hregisters.trans h.registers⟩
  rw [hentries k, h.registers]
  split
  · rfl
  · exact h.entries k (by omega)

/-- **The loop**, by induction on how many sockets it has been through. -/
theorem readLimits_spec (hans : node.Answers) (hru : st.ru = some ru) (rlim : Nat → RaplLimit) :
    LimitsOf node ru st.machine.msr node.e.topo.nsockets (node.readLimits rlim st) := by
  have hloop : ∀ n ≤ node.e.topo.nsockets, LimitsOf node ru st.machine.msr n
      ((List.range n).foldl (fun (rlim, st) i => node.readSocketLimits i rlim st) (rlim, st)) := by
    intro n
    induction n with
    | zero => exact fun _ => ⟨nofun, hru, rfl⟩
    | succ n ih =>
        intro hn
        rw [List.range_succ, List.foldl_append]
        exact (ih (by omega)).succ hans (by omega)
  exact hloop _ (Nat.le_refl _)

/-- Only the entries of the sockets are printed. -/
theorem powerFields_congr {n : Nat} (data : RaplData n) {rlim rlim' : Nat → RaplLimit}
    (h : ∀ k < 3 * n, rlim k = rlim' k) : powerFields data rlim = powerFields data rlim' := by
  unfold powerFields
  congr 1
  funext i
  have hi := i.isLt
  rw [h (3 * i) (by omega), h (3 * i + 1) (by omega), h (3 * i + 2) (by omega)]

/-- Where no index wraps, the limits that are read are those of the sockets. -/
theorem powerFields_limitsIn (node : RaplNode)
    (hfit : (node.e.topo.nsockets - 1) * node.e.topo.ncores < 2 ^ 32)
    (data : RaplData node.e.topo.nsockets) (ru : Nat → BitVec 64)
    (contents : Nat → Nat → BitVec 64) :
    powerFields data (node.limitsIn ru contents)
      = powerFields data (node.ownLimits ru contents) := by
  refine powerFields_congr data fun k hk => ?_
  have hindex := socketIndex_of_last_fits hfit (show k / 3 < node.e.topo.nsockets by omega)
  rw [RaplNode.limitsIn, RaplNode.ownLimits, RaplNode.limitsAt, RaplNode.limitsAt, hindex]

end Limits

/-! ### A call -/

section Calls

variable {node : SamplerNode} {c : SamplerCall} {s : SamplerState node.e.topo.nsockets}

/-- `get_power` leaves a table, and the registers as they are. -/
theorem runGetPower_spec (node : RaplNode) (now : Timeval) (p : RaplProcess node.e.topo.nsockets) :
    ∃ ru, (node.runGetPower now p).power.ru = some ru ∧
      (node.runGetPower now p).power.machine.msr = p.power.machine.msr := by
  refine ⟨_, (step_spec p (c := .getPower now) rfl).1, ?_⟩
  simp only [RaplNode.runGetPower, readOps_dataOps p now]
  exact translateUnits_machine node.msrs.unit_lt node.e _

/-- A later call prints one row, of the new powers and the limits kept from the first
call. -/
theorem getAllPowerData_later (h : s.initGetPowerData = true) :
    let p := node.runGetPower c.now (s.process.found c.contents)
    node.getAllPowerData c s = ([powerFields p.rapl.data s.rlim], ⟨p, true, s.rlim⟩) := by
  simp only [SamplerNode.getAllPowerData, h, if_true]
  rfl

/-- The first call prints the header and a row that is as it should be, and keeps its
limits. -/
theorem getAllPowerData_first (h : s.initGetPowerData = false) :
    let p := node.runGetPower c.now (s.process.found c.contents)
    let limits := node.readLimits c.junk p.power
    node.getAllPowerData c s
      = ([powerHeader node.e.topo, stamp c.nowMs ++ powerFields p.rapl.data limits.1],
          ⟨⟨limits.2, p.rapl⟩, true, limits.1⟩) := by
  simp only [SamplerNode.getAllPowerData, h]
  rfl

/-- **A later call prints no row that it should.** -/
theorem not_rowRight_of_init (h : s.initGetPowerData = true) : ¬ node.RowRight s c := by
  rintro ⟨fields, hrow⟩
  have hlines := hrow.lines
  rw [getAllPowerData_later h, h] at hlines
  have hfields : powerFields _ s.rlim = stamp c.nowMs ++ fields := List.singleton_inj.mp hlines
  have hlength := hrow.length
  rw [← hfields, powerFields_length, powerHeader_length] at hlength
  omega

theorem threadOps_uniform (t : Topology) (loads : List (Nat × (Nat → BitVec 64))) :
    Uniform t (threadOps t loads) := by
  have hop : ∀ op ∈ threadOps t loads, op.cpu.toNat < t.nthreads ∧ op.isrdmsr = true := by
    intro op hmem
    obtain ⟨load, -, hload⟩ := List.mem_flatMap.mp hmem
    obtain ⟨i, hi, rfl⟩ := List.mem_map.mp hload
    have hcpu : (MsrBatchOp.zero.fill load.1 i).cpu.toNat < t.nthreads :=
      fill_cpu_lt (List.mem_range.mp hi)
    exact ⟨hcpu, rfl⟩
  exact ⟨fun op hmem => (hop op hmem).1, true, fun op hmem => (hop op hmem).2⟩

theorem readThreads_msr (e : MsrEnv) (loads : List (Nat × (Nat → BitVec 64))) (m : Machine) :
    (readThreads e loads m).2.msr = m.msr := by
  show (readOps e (threadOps e.topo loads) m).2.msr = m.msr
  rw [(readOps_image (threadOps_uniform e.topo loads) m).machine]

/-- From `contents` to `contents'` the limits have not changed. -/
def SameLimits (node : RaplNode) (contents contents' : Nat → Nat → BitVec 64) : Prop :=
  ∀ cpu, contents' cpu node.msrs.msrPkgPowerLimit = contents cpu node.msrs.msrPkgPowerLimit ∧
    contents' cpu node.msrs.msrDramPowerLimit = contents cpu node.msrs.msrDramPowerLimit

theorem SameLimits.limitsIn_eq {node : RaplNode} {contents contents' : Nat → Nat → BitVec 64}
    (h : SameLimits node contents contents') (ru : Nat → BitVec 64) :
    node.limitsIn ru contents' = node.limitsIn ru contents := by
  funext k
  unfold RaplNode.limitsIn RaplNode.limitsAt
  simp only [(h _).1, (h _).2]

/-- The first block of the variant does not touch the limits, nor the table. -/
theorem initFixed_spec (hans : node.Answers) {f : FixedStatics} (hf : f.Valid node.e.topo)
    (c : SamplerCall) {st : PowerState} {ru : Nat → BitVec 64} (hru : st.ru = some ru) :
    (node.initFixed c f st).2.2.ru = some ru ∧
      SameLimits node.toRaplNode st.machine.msr (node.initFixed c f st).2.2.machine.msr := by
  unfold SamplerNode.initFixed
  by_cases hinit : f.initGetPowerData = true
  · rw [if_pos hinit]
    exact ⟨hru, fun _ => ⟨rfl, rfl⟩⟩
  · rw [if_neg hinit]
    -- enabling the counters writes to the two control registers
    let enabled : PowerState := { st with machine := (node.enableCounters f st.machine).2 }
    have hother : ∀ msr, msr ≠ ia32PerfGlobalCtrl ∧ msr ≠ ia32FixedCtrCtrl → ∀ cpu,
        enabled.machine.msr cpu msr = st.machine.msr cpu msr := by
      intro msr hne cpu
      have hvalid : (⟨f.c0, f.c1, f.c2, ⟨st.machine, f.ctrlOps⟩⟩ : FixedState).ctrl.Valid
          node.e.topo ia32PerfGlobalCtrl ia32FixedCtrCtrl := hf
      exact ControlCall.run_other hvalid .enable hne cpu
    have henabled : enabled.ru = some ru := hru
    obtain ⟨-, hru', hmsr⟩ := readLimits_spec hans henabled c.junk
    refine ⟨hru', fun cpu => ⟨?_, ?_⟩⟩
    · exact (congrFun (congrFun hmsr cpu) _).trans (hother _ node.pkgLimit_ne cpu)
    · exact (congrFun (congrFun hmsr cpu) _).trans (hother _ node.dramLimit_ne cpu)

/-- The row of the variant has the limits of the registers. -/
theorem fixedRow_eq {n : Nat} (hn : n = node.e.topo.nsockets) (hans : node.Answers)
    (c : SamplerCall) (data : RaplData n) (f : FixedStatics) {st : PowerState}
    {ru : Nat → BitVec 64} (hru : st.ru = some ru) :
    (node.fixedRow c data f st).1
      = stamp c.nowMs ++ powerFields data (node.limitsIn ru st.machine.msr) ++
          threadFields node.e.topo (node.fixedRow c data f st).2.1 := by
  subst hn
  have hmsr : (node.readCounters f st.machine).2.msr = st.machine.msr :=
    (readThreads_msr _ _ _).trans (readThreads_msr _ _ _)
  let read : PowerState := { st with machine := (node.readCounters f st.machine).2 }
  have hread : read.ru = some ru := hru
  obtain ⟨hrlim, -, -⟩ := readLimits_spec hans hread (node.readCounters f st.machine).1.rlim
  have hcontents : read.machine.msr = st.machine.msr := hmsr
  rw [hcontents] at hrlim
  rw [← powerFields_congr data hrlim]
  rfl

/-- **The variant** prints the limits of the registers on every call. -/
theorem getAllPowerDataFixed_row (hans : node.Answers) {f : FixedStatics}
    (hf : f.Valid node.e.topo) (c : SamplerCall) (p : RaplProcess node.e.topo.nsockets)
    {ru : Nat → BitVec 64}
    (hru : (node.runGetPower c.now (p.found c.contents)).power.ru = some ru) :
    let printed := node.getAllPowerDataFixed c p f
    printed.1.getLast? = some (stamp c.nowMs ++
      powerFields (node.runGetPower c.now (p.found c.contents)).rapl.data
        (node.limitsIn ru c.contents) ++ threadFields node.e.topo printed.2.2) := by
  obtain ⟨-, -, hcontents⟩ := runGetPower_spec node.toRaplNode c.now (p.found c.contents)
  obtain ⟨hru', hsame⟩ := initFixed_spec hans hf c hru
  rw [hcontents] at hsame
  have hrow := fixedRow_eq rfl hans c (node.runGetPower c.now (p.found c.contents)).rapl.data
    (node.initFixed c f (node.runGetPower c.now (p.found c.contents)).power).2.1 hru'
  rw [hsame.limitsIn_eq] at hrow
  exact List.getLast?_concat.trans (congrArg some hrow)

/-- **The first call** prints the row that it should. -/
theorem rowRight_of_first (h : s.initGetPowerData = false) (c : SamplerCall) :
    node.RowRight s c := by
  obtain ⟨ru, hru, hcontents⟩ := runGetPower_spec node.toRaplNode c.now (s.process.found c.contents)
  have hcall := getAllPowerData_first (c := c) h
  let p := node.runGetPower c.now (s.process.found c.contents)
  -- the limits it reads are those of the registers
  have hfields : node.Answers → powerFields p.rapl.data (node.readLimits c.junk p.power).1
      = powerFields p.rapl.data (node.limitsIn ru c.contents) := by
    intro hans
    obtain ⟨hrlim, -, -⟩ := readLimits_spec hans hru c.junk
    rw [hcontents] at hrlim
    exact powerFields_congr _ hrlim
  refine ⟨powerFields p.rapl.data (node.readLimits c.junk p.power).1, ?_, ?_, fun hans => ?_,
    fun hans f hf => ?_⟩
  · rw [hcall, h]
    rfl
  · rw [List.length_append, powerFields_length, powerHeader_length]
    rfl
  · obtain ⟨-, hru', -⟩ := readLimits_spec hans hru c.junk
    refine ⟨ru, ?_, ?_, fun hfit => ?_⟩
    · rw [hcall]
      exact hru'
    · rw [hcall]
      exact hfields hans
    · rw [hcall]
      exact (hfields hans).trans (powerFields_limitsIn _ hfit _ ru c.contents)
  · rw [hfields hans]
    exact getAllPowerDataFixed_row hans hf c s.process hru

end Calls

/-! ### Runs -/

section Run

variable {node : SamplerNode} {s s' : SamplerState node.e.topo.nsockets}

/-- What the first call leaves stays. -/
structure LimitsRead (rlim : Nat → RaplLimit) {n : Nat} (s : SamplerState n) : Prop where
  init : s.initGetPowerData = true
  rlim : s.rlim = rlim

/-- **Later rows**: once the limits have been read, every call of a run prints those,
whatever is in the registers, and no tag. -/
theorem laterRows {rlim : Nat → RaplLimit} (h : LimitsRead rlim s) (calls : List SamplerCall) :
    Along node.step (fun s c => (node.getAllPowerData c s).1
      = [powerFields (node.getAllPowerData c s).2.process.rapl.data rlim]) s calls := by
  refine Along.imp_of_inv (LimitsRead rlim) ?_ ?_ h (along_true s calls)
  · intro s c s' hs _ hstep
    obtain rfl := Option.some.inj hstep
    rw [getAllPowerData_later hs.init]
    exact ⟨rfl, hs.rlim⟩
  · intro s c hs _
    rw [getAllPowerData_later hs.init, hs.rlim]

/-- The first call reads them. -/
theorem limitsRead_of_first (c : SamplerCall) (s : SamplerState node.e.topo.nsockets) :
    LimitsRead (node.getAllPowerData c s).2.rlim (node.getAllPowerData c s).2 :=
  ⟨rfl, rfl⟩

/-- **The rows of a run, exactly**: they are as they should be when there is at most
one.  A later call prints the limits that the first one read, and leaves out the tag and
the time, so its row is two fields short of the header. -/
theorem allPowerRows_iff (node : SamplerNode) (p : RaplProcess node.e.topo.nsockets)
    (rlim : Nat → RaplLimit) (calls : List SamplerCall) :
    Along node.step node.RowRight (.start p rlim) calls ↔ calls.length ≤ 1 := by
  match calls with
  | [] => exact iff_of_true trivial (Nat.zero_le 1)
  | [c] =>
      refine iff_of_true ⟨rowRight_of_first rfl c, fun _ _ => trivial⟩ (Nat.le_refl 1)
  | c :: c' :: rest =>
      refine iff_of_false ?_ (by simp)
      rintro ⟨-, hrest⟩
      have hsecond := (hrest _ rfl).1
      exact not_rowRight_of_init (limitsRead_of_first c _).init hsecond

end Run

/-- The sampler with the registers of 06_4F. -/
def fm064fSampler : SamplerNode where
  toRaplNode := fm064fNode
  msrsFixedCtrs := fun k => [0x309, 0x30A, 0x30B].get k
  msrAperf := 0xE8
  msrMperf := 0xE7
  msrTsc := 0x10
  pkgLimit_ne := by decide
  dramLimit_ne := by decide

/-- The first limit of every package is `units` power units of 1/8 W. -/
def limitedTo (units : BitVec 64) (seconds : Nat) : SamplerCall where
  now := ⟨seconds, 0⟩
  nowMs := seconds * 1000
  contents := fun _ msr => if msr = 0x606 then 0xA1003 else if msr = 0x610 then units else 0
  junk := fun _ => ⟨0, 0, 0⟩

/-- Between two calls the limit goes from 100 W to 80 W. -/
theorem not_allPowerRows_two :
    ¬ Along fm064fSampler.step fm064fSampler.RowRight
        (.start (.start 2 ⟨fun _ _ => 0, []⟩) fun _ => ⟨0, 0, 0⟩)
        [limitedTo 800 1, limitedTo 640 2] := by
  rintro ⟨-, hrest⟩
  have hsecond := (hrest _ rfl).1
  exact not_rowRight_of_init (limitsRead_of_first _ _).init hsecond

end Variorum
