/-
Variorum/Uncore.lean

`intel_cpu_fm_06_4f_get_counters`: the fixed, the general-purpose and the uncore
counters of a 06_4F node.

`print_all_counter_data` hands five arrays of registers on to its three parts.
`intel_cpu_fm_06_4f_get_counters` passes `ia32_perfevtsel_counters` both as the
event selectors of the core counters and as the counters of the uncore, whose
own registers `Intel_06_4F.h` has no array for.

The uncore part allocates and loads its two batches, writes zeros to the event
selectors and to what it takes for the counters, and prints the data of the
second batch, which it never reads.  So a call that enables writes 0 to
PERFEVTSEL0 to PERFEVTSEL3 of the first CPU of each socket (`uncorePart_writes`,
`ZeroWrite.zeroes`), all that is ever printed is zeros (`getCounters_zeros`), and
no run in which a call prints is as it should be (`uncoreRuns_iff`).
-/
import Variorum.Perfmon

namespace Variorum

open History

/-! ### The registers of 06_4F -/

def ia32FixedCounters (k : Nat) : BitVec 32 := BitVec.ofNat 32 (0x309 + k)
def ia32PerfevtselCounters (k : Nat) : BitVec 32 := BitVec.ofNat 32 (0x186 + k)
def ia32PerfmonCounters (k : Nat) : BitVec 32 := BitVec.ofNat 32 (0xC1 + k)
def msrsPcuPmonEvtsel (k : Nat) : BitVec 32 := BitVec.ofNat 32 (0xC30 + k)

/-- The members of `enum variorum_data_type_e` used below. -/
def FIXED_COUNTERS_DATA : Nat := 2
def UNCORE_EVTSEL : Nat := 16
def UNCORE_COUNT : Nat := 17

/-! ### The fixed counters -/

section Source

variable (e : MsrEnv)

/-- `fixed_counter_storage`: the batch of the three fixed counters, made in the first
call. -/
def fixedCounterStorage (msrs : Nat → BitVec 32) (st : FeatureState) : Option FeatureState :=
  initBatch e.topo FIXED_COUNTERS_DATA (3 * e.topo.nthreads)
    [.thread (msrs 0), .thread (msrs 1), .thread (msrs 2)] st

/-- A line of the fixed counters. -/
structure FixedRow where
  thread : Nat
  instRet : BitVec 64
  unhaltClkCycles : BitVec 64
  unhaltRefCycles : BitVec 64

/-- `print_fixed_counter_data`: the lines below the header. -/
def printFixedCounterData (msrs : Nat → BitVec 32) (st : FeatureState) :
    Option (List FixedRow × FeatureState) := do
  let st ← fixedCounterStorage e msrs st
  let (_, st) ← st.read e FIXED_COUNTERS_DATA
  let rows ← (List.range e.topo.nthreads).mapM fun i : Nat => do
    let c0 ← st.peek FIXED_COUNTERS_DATA 0 i
    let c1 ← st.peek FIXED_COUNTERS_DATA 1 i
    let c2 ← st.peek FIXED_COUNTERS_DATA 2 i
    return (⟨i, c0, c1, c2⟩ : FixedRow)
  return (rows, st)

/-! ### The uncore counters -/

/-- The loads of `init_unc_perfevtsel` and of `init_unc_counters`. -/
def pcuLoads (msrs : Nat → BitVec 32) : List BatchLoad :=
  [.socket (msrs 0), .socket (msrs 1), .socket (msrs 2), .socket (msrs 3)]

/-- `unc_perfevtsel_storage`: the batch of the four event selectors, made in the first
call. -/
def uncPerfevtselStorage (evtsels : Nat → BitVec 32) (st : FeatureState) : Option FeatureState :=
  initBatch e.topo UNCORE_EVTSEL (4 * e.topo.nsockets) (pcuLoads evtsels) st

/-- `unc_counters_storage`: the batch of the four counters, made in the first call. -/
def uncCountersStorage (ctrs : Nat → BitVec 32) (st : FeatureState) : Option FeatureState :=
  initBatch e.topo UNCORE_COUNT (4 * e.topo.nsockets) (pcuLoads ctrs) st

/-- `clear_all_pcu`: the loop stores to `c0` to `c3` of each socket. -/
def clearAllPcu (ctrs : Nat → BitVec 32) (st : FeatureState) : Option FeatureState := do
  let st ← uncCountersStorage e ctrs st
  let st ← Runs.exec (fun st (p : Nat × Nat) => st.poke UNCORE_COUNT p.2 p.1 0) st
    ((List.range e.topo.nsockets).flatMap fun i => (List.range 4).map fun n => (i, n))
  let (_, st) ← st.write e UNCORE_COUNT
  return st

/-- `enable_pcu`: the event selectors are written, and the counters cleared. -/
def enablePcu (evtsels ctrs : Nat → BitVec 32) (st : FeatureState) : Option FeatureState := do
  let st ← uncPerfevtselStorage e evtsels st
  let (_, st) ← st.write e UNCORE_EVTSEL
  clearAllPcu e ctrs st

/-- A line of the uncore counters. -/
structure UncRow where
  socket : Nat
  c0 : BitVec 64
  c1 : BitVec 64
  c2 : BitVec 64
  c3 : BitVec 64
  deriving DecidableEq

/-- `*uc->c0[i]` to `*uc->c3[i]`. -/
def printUncRow (st : FeatureState) (i : Nat) : Option UncRow := do
  let c0 ← st.peek UNCORE_COUNT 0 i
  let c1 ← st.peek UNCORE_COUNT 1 i
  let c2 ← st.peek UNCORE_COUNT 2 i
  let c3 ← st.peek UNCORE_COUNT 3 i
  return ⟨i, c0, c1, c2, c3⟩

/-- Whether a call enables the uncore counters. -/
def enablePcuIf (enable : Bool) (evtsels ctrs : Nat → BitVec 32) (st : FeatureState) :
    Option FeatureState :=
  if enable then enablePcu e evtsels ctrs st else some st

/-- The two functions that print the uncore counters: the lines below the header. -/
def printUnc (enable : Bool) (evtsels ctrs : Nat → BitVec 32) (st : FeatureState) :
    Option (List UncRow × FeatureState) := do
  let st ← uncCountersStorage e ctrs st
  let st ← enablePcuIf e enable evtsels ctrs st
  let rows ← (List.range e.topo.nsockets).mapM (printUncRow st)
  return (rows, st)

/-- `print_unc_counter_data`, which enables on its first call. -/
def printUncCounterData (started : Bool) (evtsels ctrs : Nat → BitVec 32) (st : FeatureState) :
    Option (List UncRow × FeatureState) :=
  printUnc e (!started) evtsels ctrs st

/-- `print_verbose_unc_counter_data`, which enables on every call. -/
def printVerboseUncCounterData (evtsels ctrs : Nat → BitVec 32) (st : FeatureState) :
    Option (List UncRow × FeatureState) :=
  printUnc e true evtsels ctrs st

/-! ### `intel_cpu_fm_06_4f_get_counters` -/

/-- The values of `long_ver` that are told apart. -/
inductive LongVer
  | short
  | long
  deriving DecidableEq

def LongVer.of (longVer : Int) : Option LongVer :=
  if longVer = 0 then some .short else if longVer = 1 then some .long else none

/-- `print_all_counter_data` and its verbose form as far as the core counters. -/
def corePart (avail : BitVec 8) (started : Bool) (st : FeatureState) :
    Option (List FixedRow × List PmcRow × FeatureState) := do
  let (fixed, st) ← printFixedCounterData e ia32FixedCounters st
  let (pmc, st) ← printPerfmonCounterData e avail ia32PerfevtselCounters ia32PerfmonCounters
    started st
  return (fixed, pmc, st)

/-- And the rest of them: the counters are given as `ia32_perfevtsel_counters`. -/
def uncorePart (v : LongVer) (started : Bool) (st : FeatureState) :
    Option (List UncRow × FeatureState) :=
  match v with
  | .short => printUncCounterData e started msrsPcuPmonEvtsel ia32PerfevtselCounters st
  | .long => printVerboseUncCounterData e msrsPcuPmonEvtsel ia32PerfevtselCounters st

/-- What is printed by a call: the rows of its three parts. -/
structure CountersOutput where
  fixed : List FixedRow
  pmc : List PmcRow
  unc : List UncRow

/-- What is kept between calls: which of the two forms has been called, and the
batches. -/
structure CountersState where
  started : LongVer → Bool
  kept : FeatureState

/-- A call: its argument, and the registers it finds. -/
structure CountersCall where
  longVer : Int
  contents : Nat → Nat → BitVec 64

/-- `intel_cpu_fm_06_4f_get_counters`, which returns 0. -/
def intelCpuFm064FGetCounters (avail : BitVec 8) (s : CountersState) (call : CountersCall) :
    Option (Option CountersOutput × CountersState) :=
  let st := s.kept.found call.contents
  match LongVer.of call.longVer with
  | none => some (none, { s with kept := st })
  | some v => do
      let (fixed, pmc, st) ← corePart e avail (s.started v) st
      let (unc, st) ← uncorePart e v (s.started v) st
      return (some ⟨fixed, pmc, unc⟩, ⟨Function.update s.started v true, st⟩)

/-- The state after a call. -/
def CountersState.step (avail : BitVec 8) (s : CountersState) (call : CountersCall) :
    Option CountersState :=
  (intelCpuFm064FGetCounters e avail s call).map fun (_, s) => s

/-! ### What the uncore part is for -/

/-- The event selectors and the counters of the uncore PCU. -/
def PcuRegister (pcuCtrs : Nat → Nat) (msr : Nat) : Prop :=
  ∃ k < 4, msr = (msrsPcuPmonEvtsel k).toNat ∨ msr = pcuCtrs k

/-- The lines for what the uncore counters hold. -/
def uncRows (t : Topology) (pcuCtrs : Nat → Nat) (contents : Nat → Nat → BitVec 64) :
    List UncRow :=
  (List.range t.nsockets).map fun i =>
    let cpu := i * t.coresPerSocket
    ⟨i, contents cpu (pcuCtrs 0), contents cpu (pcuCtrs 1), contents cpu (pcuCtrs 2),
      contents cpu (pcuCtrs 3)⟩

/-- The uncore part prints the uncore counters when nothing is refused, writes to no
other registers, and leaves the others alone. -/
structure UncoreRight (pcuCtrs : Nat → Nat) (st : FeatureState) (rows : List UncRow)
    (st' : FeatureState) : Prop where
  prints : st.msr.machine.Clean e.driver st'.msr.machine →
    rows = uncRows e.topo pcuCtrs st'.msr.machine.msr
  writes : ∀ added, st'.msr.machine.log = st.msr.machine.log ++ added →
    ∀ a ∈ added, a.dir = .write → PcuRegister pcuCtrs a.msr
  keeps : ∀ cpu msr, ¬ PcuRegister pcuCtrs msr →
    st'.msr.machine.msr cpu msr = st.msr.machine.msr cpu msr

/-- A call that prints gets through, and its uncore part is right. -/
def CountersCall.Right (avail : BitVec 8) (pcuCtrs : Nat → Nat) (s : CountersState)
    (call : CountersCall) : Prop :=
  ∀ v, LongVer.of call.longVer = some v →
    ∃ fixed pmc st rows st',
      corePart e avail (s.started v) (s.kept.found call.contents) = some (fixed, pmc, st) ∧
      uncorePart e v (s.started v) st = some (rows, st') ∧ UncoreRight e pcuCtrs st rows st'

end Source

/-- Nothing has been called yet: of the batches that the calls keep none is used. -/
structure CountersState.Fresh (s : CountersState) : Prop where
  started : ∀ v, s.started v = false
  evtsel : s.kept.Unused UNCORE_EVTSEL
  count : s.kept.Unused UNCORE_COUNT

/-! ### The core part -/

section Core

open FeatureState

variable {e : MsrEnv} {avail : BitVec 8} {started : Bool} {b : Nat} {st st' : FeatureState}
variable {fixed : List FixedRow} {pmc : List PmcRow}

/-- **What the core part leaves alone.** -/
theorem corePart_sameAt (h : corePart e avail started st = some (fixed, pmc, st'))
    (hfixed : b ≠ FIXED_COUNTERS_DATA) (hctrl : b ≠ COUNTERS_CTRL) (hdata : b ≠ COUNTERS_DATA) :
    st.SameAt b st' := by
  obtain ⟨⟨rows, st₁⟩, hprint, h⟩ := Option.bind_eq_some_iff.mp h
  obtain ⟨⟨rows', st₂⟩, hpmc, h⟩ := Option.bind_eq_some_iff.mp h
  obtain ⟨-, heq⟩ := Prod.mk.inj (Option.some.inj h)
  obtain ⟨-, rfl⟩ := Prod.mk.inj heq
  obtain ⟨s₁, hstore, hprint⟩ := Option.bind_eq_some_iff.mp hprint
  obtain ⟨⟨err, s₂⟩, hread, hprint⟩ := Option.bind_eq_some_iff.mp hprint
  obtain ⟨rows'', -, hprint⟩ := Option.bind_eq_some_iff.mp hprint
  obtain ⟨-, rfl⟩ := Prod.mk.inj (Option.some.inj hprint)
  have hinit : st.SameAt b s₁ := (initBatch_sameBut hstore).1.sameAt hfixed
  exact hinit.trans (((read_sameBut hread).sameAt hfixed).trans
    (printPerfmon_sameAt hpmc hctrl hdata))

end Core

/-! ### The uncore part -/

section Uncore

open FeatureState

variable {e : MsrEnv} {evtsels ctrs : Nat → BitVec 32} {i n : Nat} {st st' : FeatureState}

theorem pcuLoads_getElem? (msrs : Nat → BitVec 32) (hn : n < 4) :
    (pcuLoads msrs)[n]? = some (.socket (msrs n)) := by
  match n, hn with
  | 0, _ => rfl
  | 1, _ => rfl
  | 2, _ => rfl
  | 3, _ => rfl

theorem pcuLoads_sum (t : Topology) (msrs : Nat → BitVec 32) :
    ((pcuLoads msrs).map fun load => load.count t).sum = 4 * t.nsockets := by
  show t.nsockets + (t.nsockets + (t.nsockets + (t.nsockets + 0))) = 4 * t.nsockets
  omega

/-- Batch `UNCORE_COUNT` is loaded, and no operation of it has data other than 0. -/
def CountHolds (t : Topology) (ctrs : Nat → BitVec 32) (ops : List MsrBatchOp)
    (st : FeatureState) : Prop :=
  st.Holds t UNCORE_COUNT (pcuLoads ctrs) ops ∧ ∀ op ∈ ops, op.msrdata = 0

/-- The batches of the uncore, as the calls leave them. -/
structure UncoreKept (t : Topology) (evtsels ctrs : Nat → BitVec 32) (st : FeatureState) :
    Prop where
  evtsel : st.Unused UNCORE_EVTSEL ∨ st.Loaded t UNCORE_EVTSEL (pcuLoads evtsels)
  count : st.Unused UNCORE_COUNT ∨ ∃ ops, CountHolds t ctrs ops st

theorem UncoreKept.of_sameAt (h : UncoreKept e.topo evtsels ctrs st)
    (hevtsel : st.SameAt UNCORE_EVTSEL st') (hcount : st.SameAt UNCORE_COUNT st') :
    UncoreKept e.topo evtsels ctrs st' where
  evtsel := h.evtsel.imp (·.of_sameAt hevtsel) (·.of_sameAt hevtsel)
  count := by
    refine h.count.imp (·.of_sameAt hcount) ?_
    rintro ⟨ops, hops, hzero⟩
    exact ⟨ops, hops.of_sameAt hcount, hzero⟩

/-- The room that the two allocations ask for. -/
def UncoreFits (t : Topology) : Prop := 4 * t.nsockets < 2 ^ 32

/-- **Loading the counters** gives a batch of zeros, or leaves the one that is there. -/
theorem uncCountersStorage_holds (hfit : UncoreFits e.topo)
    (hst : st.Unused UNCORE_COUNT ∨ ∃ ops, CountHolds e.topo ctrs ops st) :
    ∃ st' ops, uncCountersStorage e ctrs st = some st' ∧ CountHolds e.topo ctrs ops st' := by
  rcases hst with hunused | ⟨ops, hholds, hzero⟩
  · have hroom : ((pcuLoads ctrs).map fun load => load.count e.topo).sum
        ≤ 4 * e.topo.nsockets % 2 ^ 32 := by
      rw [pcuLoads_sum, Nat.mod_eq_of_lt hfit]
    obtain ⟨st', hrun, hholds⟩ := initBatch_holds hunused (by decide) (pcuLoads ctrs) hroom
    exact ⟨st', _, hrun, hholds, fun op hop => loadedOps_msrdata hop⟩
  · exact ⟨st, ops, hholds.init _ _, hholds, hzero⟩

/-- **Loading the event selectors** is done once, and they stay loaded. -/
theorem uncPerfevtselStorage_loaded (hfit : UncoreFits e.topo)
    (hst : st.Unused UNCORE_EVTSEL ∨ st.Loaded e.topo UNCORE_EVTSEL (pcuLoads evtsels)) :
    ∃ st', uncPerfevtselStorage e evtsels st = some st' ∧
      st'.Loaded e.topo UNCORE_EVTSEL (pcuLoads evtsels) := by
  rcases hst with hunused | ⟨ops, hloaded⟩
  · have hroom : ((pcuLoads evtsels).map fun load => load.count e.topo).sum
        ≤ 4 * e.topo.nsockets % 2 ^ 32 := by
      rw [pcuLoads_sum, Nat.mod_eq_of_lt hfit]
    obtain ⟨st', hrun, hholds⟩ := initBatch_holds hunused (by decide) (pcuLoads evtsels) hroom
    exact ⟨st', hrun, _, hholds⟩
  · exact ⟨st, hloaded.init _ _, ops, hloaded⟩

/-- A store of 0 through a table of the counters. -/
theorem CountHolds.poke {ops : List MsrBatchOp} (h : CountHolds e.topo ctrs ops st)
    (hn : n < 4) (hi : i < e.topo.nsockets) :
    ∃ st' ops', st.poke UNCORE_COUNT n i 0 = some st' ∧ CountHolds e.topo ctrs ops' st' := by
  obtain ⟨st', hpoke, hholds⟩ := h.1.poke (pcuLoads_getElem? ctrs hn) hi 0
  refine ⟨st', _, hpoke, hholds, fun op hop => ?_⟩
  obtain ⟨k, hk⟩ := List.mem_iff_getElem?.mp hop
  rw [List.getElem?_modify] at hk
  obtain ⟨op', hop', heq⟩ := Option.map_eq_some_iff.mp hk
  have hzero := h.2 op' (List.mem_of_getElem? hop')
  split at heq
  · rw [← heq]
    rfl
  · rw [← heq]
    exact hzero

/-- The registers that the batch of the counters names. -/
theorem mem_pcuRegisters {t : Topology} (hn : n < 4) (hi : i < t.nsockets) :
    (i * t.coresPerSocket % 2 ^ 16, (ctrs n).toNat) ∈ loadRegisters t (pcuLoads ctrs) := by
  rw [mem_loadRegisters]
  exact ⟨.socket (ctrs n), List.mem_of_getElem? (pcuLoads_getElem? ctrs hn), i, hi, rfl⟩

/-- Writes of 0 to the registers of four loads, from `m` on. -/
structure ZeroWrite (e : MsrEnv) (ctrs : Nat → BitVec 32) (m m' : Machine) (ops : List MsrBatchOp) :
    Prop where
  log : m'.log = m.log ++ ops.map (·.writeAccess)
  msr : m'.msr = afterStores e.driver m (ops.map (·.store))
  register : ops.map (·.register) = loadRegisters e.topo (pcuLoads ctrs)
  zero : ∀ op ∈ ops, op.msrdata = 0

/-- **Clearing the counters** writes zeros, and leaves zeros in the batch. -/
theorem clearAllPcu_holds {ops : List MsrBatchOp} (h : CountHolds e.topo ctrs ops st) :
    ∃ st' ops', clearAllPcu e ctrs st = some st' ∧
      (∃ ops'', CountHolds e.topo ctrs ops'' st') ∧
      ZeroWrite e ctrs st.msr.machine st'.msr.machine ops' := by
  have hstore : uncCountersStorage e ctrs st = some st := h.1.init _ _
  -- each store keeps the batch, and the registers
  obtain ⟨st₁, hexec, ⟨ops₁, hholds₁⟩, hmachine⟩ : ∃ st₁, Runs.exec
      (fun st (p : Nat × Nat) => st.poke UNCORE_COUNT p.2 p.1 0) st
      ((List.range e.topo.nsockets).flatMap fun i => (List.range 4).map fun n => (i, n))
        = some st₁ ∧ (∃ ops₁, CountHolds e.topo ctrs ops₁ st₁) ∧
          st₁.msr.machine = st.msr.machine := by
    apply Runs.exec_total (fun s => (∃ ops₁, CountHolds e.topo ctrs ops₁ s) ∧
      s.msr.machine = st.msr.machine) _ ⟨⟨ops, h⟩, rfl⟩
    rintro s ⟨i, n⟩ hmem ⟨⟨ops₁, hholds⟩, hmachine⟩
    obtain ⟨i', hi, hmap⟩ := List.mem_flatMap.mp hmem
    obtain ⟨n', hn, heq⟩ := List.mem_map.mp hmap
    obtain ⟨rfl, rfl⟩ := Prod.mk.inj heq
    obtain ⟨s', ops', hpoke, hholds'⟩ :=
      hholds.poke (List.mem_range.mp hn) (List.mem_range.mp hi)
    exact ⟨s', hpoke, ⟨ops', hholds'⟩, (poke_sameBut hpoke).2.trans hmachine⟩
  have hne : ops₁ ≠ [] := hholds₁.1.ops_ne_nil (List.cons_ne_nil _ _)
  obtain ⟨err, st₂, hwrite, hholds₂, hmachine₂⟩ := hholds₁.1.write (by decide) hne
  have himage := writeOps_registers hholds₁.1.uniform st₁.msr.machine
  refine ⟨st₂, ops₁, ?_, ⟨_, hholds₂, ?_⟩, ?_⟩
  · rw [clearAllPcu, hstore]
    show (Runs.exec _ st _).bind _ = _
    rw [hexec, Option.bind_some, hwrite]
    rfl
  · intro op hop
    have hmem : op.msrdata ∈ (writeOps e ops₁ st₁.msr.machine).1.map (·.msrdata) :=
      List.mem_map_of_mem hop
    rw [writeOps_msrdata hholds₁.1.uniform] at hmem
    obtain ⟨op', hop', heq⟩ := List.mem_map.mp hmem
    rw [← heq]
    exact hholds₁.2 op' hop'
  · rw [hmachine₂, ← hmachine]
    exact ⟨himage.log, himage.msr, hholds₁.1.register, hholds₁.2⟩

theorem clearAllPcu_sameBut (h : clearAllPcu e ctrs st = some st') :
    st.SameBut UNCORE_COUNT st' := by
  obtain ⟨st₁, hstore, h⟩ := Option.bind_eq_some_iff.mp h
  obtain ⟨st₂, hexec, h⟩ := Option.bind_eq_some_iff.mp h
  obtain ⟨⟨err, st₃⟩, hwrite, h⟩ := Option.bind_eq_some_iff.mp h
  obtain rfl := Option.some.inj h
  have hsame : st₁.SameBut UNCORE_COUNT st₂ := by
    apply Runs.exec_inv (st₁.SameBut UNCORE_COUNT) _ (.refl _ st₁) hexec
    intro s p s' hsame hstep
    exact hsame.trans (poke_sameBut hstep).1
  exact (initBatch_sameBut hstore).1.trans (hsame.trans (write_sameBut hwrite))

/-- **Enabling the uncore counters**: a batch of writes to the event selectors, and one
of zeros. -/
theorem enablePcu_kept (hfit : UncoreFits e.topo)
    (hevtsel : st.Unused UNCORE_EVTSEL ∨ st.Loaded e.topo UNCORE_EVTSEL (pcuLoads evtsels))
    {ops : List MsrBatchOp} (h : CountHolds e.topo ctrs ops st) :
    ∃ st' m ops', enablePcu e evtsels ctrs st = some st' ∧
      st'.Loaded e.topo UNCORE_EVTSEL (pcuLoads evtsels) ∧
      (∃ ops'', CountHolds e.topo ctrs ops'' st') ∧
      st.msr.machine.log <+: m.log ∧ ZeroWrite e ctrs m st'.msr.machine ops' := by
  obtain ⟨st₁, hstore, ops₁, hholds₁⟩ := uncPerfevtselStorage_loaded hfit hevtsel
  obtain ⟨hsame₁, hmachine₁⟩ := initBatch_sameBut hstore
  have hne : ops₁ ≠ [] := hholds₁.ops_ne_nil (List.cons_ne_nil _ _)
  obtain ⟨err, st₂, hwrite, hholds₂, hmachine₂⟩ := hholds₁.write (by decide) hne
  have hcount₂ : CountHolds e.topo ctrs ops st₂ :=
    ⟨(h.1.of_sameBut hsame₁ (by decide)).of_sameBut (write_sameBut hwrite) (by decide), h.2⟩
  obtain ⟨st₃, ops', hclear, hcount₃, hzero⟩ := clearAllPcu_holds hcount₂
  refine ⟨st₃, st₂.msr.machine, ops', ?_, ?_, hcount₃, ?_, hzero⟩
  · rw [enablePcu, hstore]
    show (st₁.write e UNCORE_EVTSEL).bind _ = _
    rw [hwrite]
    exact hclear
  · exact ⟨_, hholds₂.of_sameBut (clearAllPcu_sameBut hclear) (by decide)⟩
  · rw [hmachine₂, (writeOps_registers hholds₁.uniform _).log, hmachine₁]
    exact List.prefix_append _ _

/-- A line of zeros for every socket. -/
def zeroRows (t : Topology) : List UncRow := (List.range t.nsockets).map fun i => ⟨i, 0, 0, 0, 0⟩

/-- **Printing the counters** shows zeros, as the batch is never read. -/
theorem CountHolds.rows {ops : List MsrBatchOp} (h : CountHolds e.topo ctrs ops st) :
    (List.range e.topo.nsockets).mapM (printUncRow st) = some (zeroRows e.topo) := by
  apply mapM_eq_map
  intro i hi
  have hpeek : ∀ n < 4, st.peek UNCORE_COUNT n i = some 0 := by
    intro n hn
    have hload := pcuLoads_getElem? ctrs hn
    have hlt := h.1.entry_lt hload (List.mem_range.mp hi)
    rw [h.1.peek hload (List.mem_range.mp hi), List.getElem?_eq_getElem hlt, Option.map_some,
      h.2 _ (List.getElem_mem hlt)]
  rw [printUncRow, hpeek 0 (by decide), hpeek 1 (by decide), hpeek 2 (by decide),
    hpeek 3 (by decide)]
  rfl

/-- **The uncore part of a call** prints zeros, and if it enables it writes zeros. -/
theorem printUnc_kept (hfit : UncoreFits e.topo) (hst : UncoreKept e.topo evtsels ctrs st)
    (enable : Bool) :
    ∃ st', printUnc e enable evtsels ctrs st = some (zeroRows e.topo, st') ∧
      UncoreKept e.topo evtsels ctrs st' ∧
      (enable = true → ∃ m ops, st.msr.machine.log <+: m.log ∧
        ZeroWrite e ctrs m st'.msr.machine ops) := by
  obtain ⟨st₁, ops, hstore, hcount⟩ := uncCountersStorage_holds hfit hst.count
  obtain ⟨hsame, hmachine⟩ := initBatch_sameBut hstore
  have hevtsel := hst.evtsel.imp (·.of_sameBut hsame (by decide)) (·.of_sameBut hsame (by decide))
  cases enable with
  | false =>
      refine ⟨st₁, ?_, ⟨hevtsel, .inr ⟨ops, hcount⟩⟩, nofun⟩
      rw [printUnc, hstore]
      show ((List.range e.topo.nsockets).mapM (printUncRow st₁)).bind _ = _
      rw [hcount.rows]
      rfl
  | true =>
      obtain ⟨st₂, m, ops', henable, hevtsel₂, ⟨ops₂, hcount₂⟩, hlog, hzero⟩ :=
        enablePcu_kept hfit hevtsel hcount
      refine ⟨st₂, ?_, ⟨.inr hevtsel₂, .inr ⟨ops₂, hcount₂⟩⟩, fun _ => ⟨m, ops', ?_, hzero⟩⟩
      · rw [printUnc, hstore]
        show (enablePcu e evtsels ctrs st₁).bind _ = _
        rw [henable, Option.bind_some, hcount₂.rows]
        rfl
      · rwa [← hmachine]

/-- Without room the counters cannot be loaded. -/
theorem printUnc_of_full (hfull : ¬ UncoreFits e.topo) (hst : st.Unused UNCORE_COUNT)
    (enable : Bool) : printUnc e enable evtsels ctrs st = none := by
  have hroom : 4 * e.topo.nsockets % 2 ^ 32
      < ((pcuLoads ctrs).map fun load => load.count e.topo).sum := by
    rw [pcuLoads_sum]
    exact (Nat.mod_lt _ (by decide)).trans_le (Nat.not_lt.mp hfull)
  have hstore : uncCountersStorage e ctrs st = none := initBatch_of_gt hst (by decide) hroom
  rw [printUnc, hstore]
  rfl

/-- **What is zeroed** when nothing is refused: the registers taken for the counters, on
the first CPU of each socket. -/
theorem ZeroWrite.zeroes {m m' : Machine} {ops : List MsrBatchOp} (h : ZeroWrite e ctrs m m' ops)
    (hacc : Accepted e.driver.fails m.log.length (ops.map (·.writeAccess))) (hn : n < 4)
    (hi : i < e.topo.nsockets) :
    m'.msr (i * e.topo.coresPerSocket % 2 ^ 16) (ctrs n).toNat = 0 := by
  have hregs : (ops.map (·.store)).map Prod.fst = ops.map (·.register) := List.map_map
  have hmem : (i * e.topo.coresPerSocket % 2 ^ 16, (ctrs n).toNat)
      ∈ (ops.map (·.store)).map Prod.fst := by
    rw [hregs, h.register]
    exact mem_pcuRegisters hn hi
  have hstored := afterStores_of_mem (accepted_stores hregs hacc) hmem
  obtain ⟨op, hop, heq⟩ := List.mem_map.mp hstored
  rw [h.msr, ← (Prod.mk.inj heq).2]
  exact h.zero op hop

end Uncore

/-! ### The runs -/

section Runs

open FeatureState

variable {e : MsrEnv} {avail : BitVec 8} {pcuCtrs : Nat → Nat} {s : CountersState}
variable {call : CountersCall} {v : LongVer} {started : Bool} {st : FeatureState}

/-- Both forms are the one function. -/
theorem uncorePart_eq (v : LongVer) (started : Bool) (st : FeatureState) :
    uncorePart e v started st
      = printUnc e (v == .long || !started) msrsPcuPmonEvtsel ia32PerfevtselCounters st := by
  cases v <;> rfl

/-- **What the uncore part writes to** when it enables: PERFEVTSEL0 of CPU 0. -/
theorem uncorePart_writes {rows : List UncRow} {st' : FeatureState}
    (hevtsel : st.Unused UNCORE_EVTSEL) (hcount : st.Unused UNCORE_COUNT)
    (h : uncorePart e v false st = some (rows, st')) :
    ∃ added, st'.msr.machine.log = st.msr.machine.log ++ added ∧
      ⟨.write, 0, (ia32PerfevtselCounters 0).toNat⟩ ∈ added := by
  have henable : (v == .long || !false) = true := Bool.or_true _
  rw [uncorePart_eq, henable] at h
  by_cases hfit : UncoreFits e.topo
  · obtain ⟨st₁, hrun, -, hwrites⟩ := printUnc_kept hfit ⟨.inl hevtsel, .inl hcount⟩ true
    obtain ⟨-, rfl⟩ := Prod.mk.inj (Option.some.inj (hrun.symm.trans h))
    obtain ⟨m, ops, ⟨before, hbefore⟩, hzero⟩ := hwrites rfl
    -- the zeros go to the registers that the batch was loaded with
    have hreg : (0, (ia32PerfevtselCounters 0).toNat) ∈ ops.map (·.register) := by
      rw [hzero.register]
      have hmem : (0 * e.topo.coresPerSocket % 2 ^ 16, (ia32PerfevtselCounters 0).toNat)
          ∈ loadRegisters e.topo (pcuLoads ia32PerfevtselCounters) :=
        mem_pcuRegisters (by decide) e.topo.nsockets_pos
      rwa [Nat.zero_mul, Nat.zero_mod] at hmem
    obtain ⟨op, hop, heq⟩ := List.mem_map.mp hreg
    obtain ⟨hcpu, hmsr⟩ := Prod.mk.inj heq
    refine ⟨before ++ ops.map (·.writeAccess), ?_, ?_⟩
    · rw [hzero.log, ← hbefore, List.append_assoc]
    · apply List.mem_append_right
      exact List.mem_map.mpr ⟨op, hop, by rw [MsrBatchOp.writeAccess, hcpu, hmsr]⟩
  · rw [printUnc_of_full hfit hcount] at h
    cases h

/-- **The first call that prints** is not right. -/
theorem not_right_of_fresh (hs : s.Fresh)
    (hpcu : ∀ k < 4, ∀ j < 8, pcuCtrs k ≠ (ia32PerfevtselCounters j).toNat)
    (hv : LongVer.of call.longVer = some v) : ¬ call.Right e avail pcuCtrs s := by
  intro h
  obtain ⟨fixed, pmc, st, rows, st', hcore, hunc, hright⟩ := h v hv
  rw [hs.started v] at hcore hunc
  have hevtsel : st.Unused UNCORE_EVTSEL := by
    have hfound : (s.kept.found call.contents).Unused UNCORE_EVTSEL := hs.evtsel
    exact hfound.of_sameAt (corePart_sameAt hcore (by decide) (by decide) (by decide))
  have hcount : st.Unused UNCORE_COUNT := by
    have hfound : (s.kept.found call.contents).Unused UNCORE_COUNT := hs.count
    exact hfound.of_sameAt (corePart_sameAt hcore (by decide) (by decide) (by decide))
  obtain ⟨added, hlog, hmem⟩ := uncorePart_writes hevtsel hcount hunc
  obtain ⟨k, hk, hmsr⟩ := hright.writes added hlog _ hmem rfl
  rcases hmsr with hevt | hctr
  · have hne : ∀ k < 4, (ia32PerfevtselCounters 0).toNat ≠ (msrsPcuPmonEvtsel k).toNat := by
      decide
    exact hne k hk hevt
  · exact hpcu k hk 0 (by decide) hctr.symm

/-- **The runs, exactly.**  They are right as long as no call prints: one that does
shows zeros for the uncore, and an enabling one clears the event selectors of the core
counters. -/
theorem uncoreRuns_iff (hs : s.Fresh)
    (hpcu : ∀ k < 4, ∀ j < 8, pcuCtrs k ≠ (ia32PerfevtselCounters j).toNat)
    (calls : List CountersCall) :
    Runs.Along (CountersState.step e avail) (CountersCall.Right e avail pcuCtrs) s calls ↔
      ∀ call ∈ calls, LongVer.of call.longVer = none := by
  induction calls generalizing s with
  | nil => exact iff_of_true trivial nofun
  | cons call rest ih =>
      rw [List.forall_mem_cons]
      cases hv : LongVer.of call.longVer with
      | some v =>
          exact iff_of_false (fun h => not_right_of_fresh hs hpcu hv h.1) (fun h => nomatch h.1)
      | none =>
          -- a call that does not print is right, and leaves the batches as they are
          have hright : call.Right e avail pcuCtrs s := by
            intro v hv'
            rw [hv] at hv'
            cases hv'
          have hstep : s.step e avail call
              = some { s with kept := s.kept.found call.contents } := by
            rw [CountersState.step, intelCpuFm064FGetCounters, hv]
            rfl
          have hs' : CountersState.Fresh { s with kept := s.kept.found call.contents } :=
            ⟨hs.started, hs.evtsel, hs.count⟩
          rw [and_iff_right rfl, ← ih hs']
          constructor
          · exact fun h => h.2 _ hstep
          · intro hrest
            refine ⟨hright, fun s' hs' => ?_⟩
            obtain rfl := Option.some.inj (hstep.symm.trans hs')
            exact hrest

/-- The registers that a call finds are no matter of the batches. -/
theorem UncoreKept.found {evtsels ctrs : Nat → BitVec 32}
    (h : UncoreKept e.topo evtsels ctrs st) (contents : Nat → Nat → BitVec 64) :
    UncoreKept e.topo evtsels ctrs (st.found contents) :=
  h.of_sameAt ⟨rfl, rfl⟩ ⟨rfl, rfl⟩

/-- **One call** keeps the batches of the uncore, and its uncore lines are zeros. -/
theorem getCounters_kept (hfit : UncoreFits e.topo)
    (hs : UncoreKept e.topo msrsPcuPmonEvtsel ia32PerfevtselCounters s.kept)
    {out : Option CountersOutput} {s' : CountersState}
    (h : intelCpuFm064FGetCounters e avail s call = some (out, s')) :
    UncoreKept e.topo msrsPcuPmonEvtsel ia32PerfevtselCounters s'.kept ∧
      ∀ o, out = some o → o.unc = zeroRows e.topo := by
  rw [intelCpuFm064FGetCounters] at h
  dsimp only at h
  split at h
  · obtain ⟨rfl, rfl⟩ := Prod.mk.inj (Option.some.inj h)
    exact ⟨hs.found call.contents, nofun⟩
  · next v hv =>
      obtain ⟨⟨fixed, pmc, st₁⟩, hcore, h⟩ := Option.bind_eq_some_iff.mp h
      obtain ⟨⟨unc, st₂⟩, hunc, h⟩ := Option.bind_eq_some_iff.mp h
      obtain ⟨rfl, rfl⟩ := Prod.mk.inj (Option.some.inj h)
      have hkept : UncoreKept e.topo msrsPcuPmonEvtsel ia32PerfevtselCounters st₁ :=
        (hs.found call.contents).of_sameAt
          (corePart_sameAt hcore (by decide) (by decide) (by decide))
          (corePart_sameAt hcore (by decide) (by decide) (by decide))
      obtain ⟨st₃, hrun, hkept₃, -⟩ := printUnc_kept hfit hkept (v == .long || !s.started v)
      rw [uncorePart_eq] at hunc
      obtain ⟨rfl, rfl⟩ := Prod.mk.inj (Option.some.inj (hrun.symm.trans hunc))
      refine ⟨hkept₃, fun o ho => ?_⟩
      rw [← Option.some.inj ho]

/-- **All that is ever printed** for the uncore is zeros. -/
theorem getCounters_zeros (hfit : UncoreFits e.topo)
    (hs : UncoreKept e.topo msrsPcuPmonEvtsel ia32PerfevtselCounters s.kept)
    (calls : List CountersCall) :
    Runs.Along (CountersState.step e avail)
      (fun s call => ∀ o s', intelCpuFm064FGetCounters e avail s call = some (some o, s') →
        o.unc = zeroRows e.topo) s calls := by
  apply (Runs.along_true s calls).imp_of_inv
    (fun s => UncoreKept e.topo msrsPcuPmonEvtsel ia32PerfevtselCounters s.kept) _ _ hs
  · intro s call s' hkept _ hstep
    obtain ⟨⟨out, s₁⟩, hcall, rfl⟩ := Option.map_eq_some_iff.mp hstep
    exact (getCounters_kept hfit hkept hcall).1
  · intro s call hkept _ o s' hcall
    exact (getCounters_kept hfit hkept hcall).2 o rfl

/-- The state at the start of a process, with nothing called yet. -/
def CountersState.start : CountersState := ⟨fun _ => false, .start⟩

/-- The counters of an uncore PCU somewhere above the registers of the core. -/
def pcuCtrsAbove (k : Nat) : Nat := 0xC36 + k

/-- On the two-socket node with two counters, all registers 0: the core part programs
PERFEVTSEL0 of CPU 0, the uncore part of the same call clears it again. -/
theorem getCounters_clears :
    ¬ CountersCall.Right twoSocketEnv 2 pcuCtrsAbove .start ⟨0, fun _ _ => 0⟩ ∧
    ((corePart twoSocketEnv 2 false .start).map fun r => r.2.2.msr.machine.msr 0 0x186)
      = some 0x6700C4 ∧
    ((intelCpuFm064FGetCounters twoSocketEnv 2 .start ⟨0, fun _ _ => 0⟩).map
      fun r => r.2.kept.msr.machine.msr 0 0x186) = some 0 := by
  refine ⟨?_, by decide +kernel, by decide +kernel⟩
  have hs : CountersState.start.Fresh := ⟨fun _ => rfl, ⟨rfl, rfl⟩, ⟨rfl, rfl⟩⟩
  exact not_right_of_fresh hs (by decide) rfl

/-- A run of one call is not right there. -/
theorem not_uncoreRuns_start :
    ¬ Runs.Along (CountersState.step twoSocketEnv 2)
      (CountersCall.Right twoSocketEnv 2 pcuCtrsAbove) .start [⟨0, fun _ _ => 0⟩] := by
  have hs : CountersState.start.Fresh := ⟨fun _ => rfl, ⟨rfl, rfl⟩, ⟨rfl, rfl⟩⟩
  intro h
  have hnone := (uncoreRuns_iff hs (by decide) _).mp h ⟨0, fun _ _ => 0⟩ List.mem_cons_self
  cases hnone

end Runs

end Variorum
