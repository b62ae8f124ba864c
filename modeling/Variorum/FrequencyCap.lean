/-
Variorum/FrequencyCap.lean

Capping the core frequency of a 06_55: `intel_cpu_fm_06_55_cap_frequency` and
`cap_p_state` under it.

`cap_p_state` fills the data of a batch with the ratio in bits 15:8 and writes it,
one register of each hardware thread, without reading it first.  The register is
the one that its caller names, and the caller names `ia32_perf_status`, not
`ia32_perf_ctl`.  So a call stores a whole word in the status registers and leaves
the control registers alone (`capPState_core`), it does so for every ratio, and it
returns 0.  It caps the frequency exactly where there is nothing to do
(`capsFrequency_iff`).
-/
import Variorum.BatchLoad
import Variorum.Bits
import Variorum.FlatIndex

namespace Variorum

open History

/-! ### The code -/

/-- `msrs.ia32_perf_status` of the 06_55. -/
def ia32PerfStatus : Nat := 0x198

/-- `msrs.ia32_perf_ctl` of the 06_55. -/
def ia32PerfCtl : Nat := 0x199

/-- The registers and the operations of the batch `PERF_CTRL`; `none` before
`perf_storage_temp` has made them. -/
structure PStateState where
  machine : Machine
  ops : Option (List MsrBatchOp)

/-- `perf_storage_temp`: one load of the batch, so `perf_ctl[i]` is the data of
operation `i`. -/
def perfStorageTemp (t : Topology) (msrPerfCtl : BitVec 32) : CtlDomain → List MsrBatchOp
  | .socket => loadedOps t [(.socket msrPerfCtl, fun _ => none)]
  | .core => loadedOps t [(.thread msrPerfCtl, fun _ => none)]
  | .other => []

/-- `cpu_freq_mhz / 100 * 256`, an `int` that is stored in a `uint64_t`. -/
def pState (cpuFreqMhz : BitVec 32) : BitVec 64 := (cpuFreqMhz.sdiv 100 * 256).signExtend 64

/-- The loop that stores in `*pd->perf_ctl[i]` for `i < n`; `none` when the table is
shorter. -/
def fillPerfCtl (n : Nat) (val : BitVec 64) (ops : List MsrBatchOp) : Option (List MsrBatchOp) :=
  if n ≤ ops.length then
    some (ops.mapIdx fun k op => if k < n then { op with msrdata := val } else op)
  else none

/-- `cap_p_state`: the ratio goes into the batch of the status registers, which is
written and, for the cores, read again. -/
def capPState (e : MsrEnv) (cpuFreqMhz : BitVec 32) (domain : CtlDomain) (msrPerfStatus : BitVec 32)
    (st : PStateState) : Option PStateState :=
  let ops := st.ops.getD (perfStorageTemp e.topo msrPerfStatus domain)
  match domain with
  | .socket =>
      (fillPerfCtl e.topo.nsockets (pState cpuFreqMhz) ops).map fun ops =>
        let (ops, m) := writeOps e ops st.machine
        ⟨m, some ops⟩
  | .core =>
      (fillPerfCtl e.topo.nthreads (pState cpuFreqMhz) ops).map fun ops =>
        let (ops, m) := writeOps e ops st.machine
        let (ops, m) := readOps e ops m
        ⟨m, some ops⟩
  | .other => some ⟨st.machine, some ops⟩ -- "Not a valid control domain."

/-- `intel_cpu_fm_06_55_cap_frequency`: its answer and the state after it. -/
def intelCpuFm0655CapFrequency (e : MsrEnv) (coreFreqMhz : BitVec 32) (st : PStateState) :
    Option (Int × PStateState) :=
  (capPState e coreFreqMhz .core (BitVec.ofNat 32 ia32PerfStatus) st).map fun st => (0, st)

/-! ### What a call does -/

/-- The state holds the batch that the calls of this architecture load, if it holds
one. -/
def PStateState.Valid (t : Topology) (st : PStateState) : Prop :=
  ∀ ops, st.ops = some ops →
    ops.map (·.register)
        = (perfStorageTemp t (BitVec.ofNat 32 ia32PerfStatus) .core).map (·.register) ∧
      Uniform t ops

/-- The registers that a call writes: the status registers, by the 16 bits of a `cpu`
field. -/
def perfCtlRegisters (t : Topology) : List (Nat × Nat) :=
  (List.range t.nthreads).map fun i => (i % 2 ^ 16, ia32PerfStatus)

/-- The accesses of a call, all writes and then all reads. -/
def perfCtlAccesses (t : Topology) : List Access :=
  (perfCtlRegisters t).map (fun r => ⟨.write, r.1, r.2⟩) ++
    (perfCtlRegisters t).map (fun r => ⟨.read, r.1, r.2⟩)

section Calls

variable {e : MsrEnv} {t : Topology} {st : PStateState} {ops ops' : List MsrBatchOp}

theorem perfStorageTemp_register (t : Topology) :
    (perfStorageTemp t (BitVec.ofNat 32 ia32PerfStatus) .core).map (·.register)
      = perfCtlRegisters t := by
  simp only [perfStorageTemp, loadedOps, List.flatMap_singleton, BatchLoad.pairs, List.map_map]
  rfl

theorem mem_perfCtlRegisters {cpu msr : Nat} :
    (cpu, msr) ∈ perfCtlRegisters t ↔
      cpu < t.nthreads ∧ cpu < 2 ^ 16 ∧ msr = ia32PerfStatus := by
  unfold perfCtlRegisters
  rw [List.mem_map]
  constructor
  · rintro ⟨i, hi, heq⟩
    obtain ⟨rfl, rfl⟩ := Prod.mk.inj heq
    exact ⟨(Nat.mod_le _ _).trans_lt (List.mem_range.mp hi), Nat.mod_lt _ (by decide), rfl⟩
  · rintro ⟨hcpu, hfits, rfl⟩
    exact ⟨cpu, List.mem_range.mpr hcpu, congrArg (·, _) (Nat.mod_eq_of_lt hfits)⟩

/-- The batch of a call, whether it is the first or not. -/
theorem PStateState.Valid.batch (hst : st.Valid t) :
    let ops := st.ops.getD (perfStorageTemp t (BitVec.ofNat 32 ia32PerfStatus) .core)
    ops.map (·.register) = perfCtlRegisters t ∧ Uniform t ops := by
  cases hops : st.ops with
  | none => exact ⟨perfStorageTemp_register t, loadedOps_uniform t _⟩
  | some ops =>
      obtain ⟨hreg, huni⟩ := hst ops hops
      exact ⟨hreg.trans (perfStorageTemp_register t), huni⟩

/-- On a batch as long as the loop, every operation gets the value. -/
theorem fillPerfCtl_all (val : BitVec 64) (ops : List MsrBatchOp) :
    fillPerfCtl ops.length val ops = some (ops.map fun op => { op with msrdata := val }) := by
  rw [fillPerfCtl, if_pos (Nat.le_refl _)]
  apply congrArg some
  apply List.ext_getElem?
  intro k
  rw [List.getElem?_mapIdx, List.getElem?_map]
  cases hop : ops[k]? with
  | none => rfl
  | some op =>
      have hk := (List.getElem?_eq_some_iff.mp hop).1
      simp [hk]

/-- **One call**: it writes the value to all its registers and reads them back. -/
theorem capPState_core (hst : st.Valid e.topo) (cpuFreqMhz : BitVec 32) :
    ∃ st', capPState e cpuFreqMhz .core (BitVec.ofNat 32 ia32PerfStatus) st = some st' ∧
      st'.Valid e.topo ∧ st'.machine.log = st.machine.log ++ perfCtlAccesses e.topo ∧
      st'.machine.msr = afterStores e.driver st.machine
        ((perfCtlRegisters e.topo).map fun r => (r, pState cpuFreqMhz)) := by
  obtain ⟨hreg, huni⟩ := hst.batch
  set ops := st.ops.getD (perfStorageTemp e.topo (BitVec.ofNat 32 ia32PerfStatus) .core) with hops
  have hlen : ops.length = e.topo.nthreads := by
    have hmap := congrArg List.length hreg
    simpa [perfCtlRegisters] using hmap
  let filled := ops.map fun op => { op with msrdata := pState cpuFreqMhz }
  have hfilled : filled.map (·.register) = perfCtlRegisters e.topo := by
    rw [← hreg, List.map_map]
    rfl
  have hfill : fillPerfCtl e.topo.nthreads (pState cpuFreqMhz) ops = some filled :=
    hlen ▸ fillPerfCtl_all _ ops
  have huni' : Uniform e.topo filled := by
    obtain ⟨flag, hflag⟩ := huni.flag
    apply huni.of_map flag (hfilled.trans hreg.symm)
    intro op hop
    obtain ⟨op', hop', rfl⟩ := List.mem_map.mp hop
    exact hflag op' hop'
  -- the batch goes out filled, and comes back with what the registers then hold
  obtain ⟨hlog, hwreg, hmsr⟩ := writeOps_registers huni' st.machine
  have hwuni := writeOps_uniform huni' st.machine
  set w := writeOps e filled st.machine with hw
  obtain ⟨hmachine, hrreg, -⟩ := readOps_image hwuni w.2
  have hruni := readOps_uniform hwuni w.2
  set r := readOps e w.1 w.2 with hr
  refine ⟨⟨r.2, some r.1⟩, ?_, ?_, ?_, ?_⟩
  · simp only [capPState, ← hops, hfill, Option.map_some, ← hw, ← hr]
  · rintro ops' hops'
    obtain rfl := Option.some.inj hops'
    refine ⟨?_, hruni⟩
    rw [hrreg, hwreg, hfilled, perfStorageTemp_register]
  · have hreads := congrArg (List.map fun r : Nat × Nat => (⟨.read, r.1, r.2⟩ : Access))
      (hwreg.trans hfilled)
    have hwrites := congrArg (List.map fun r : Nat × Nat => (⟨.write, r.1, r.2⟩ : Access)) hfilled
    rw [List.map_map] at hreads hwrites
    show r.2.log = _
    rw [hmachine, perfCtlAccesses, ← hreads, ← hwrites, ← List.append_assoc]
    exact congrArg (· ++ _) hlog
  · show r.2.msr = _
    have hstores : filled.map (·.store)
        = (perfCtlRegisters e.topo).map fun r => (r, pState cpuFreqMhz) := by
      rw [← hreg, List.map_map, List.map_map]
      rfl
    rw [hmachine, ← hstores]
    exact hmsr

/-- With nothing refused, the written registers hold the value, and the others what
they held. -/
theorem capPState_registers (hst : st.Valid e.topo) (cpuFreqMhz : BitVec 32)
    (hacc : Accepted e.driver.fails st.machine.log.length (perfCtlAccesses e.topo)) :
    ∃ st', capPState e cpuFreqMhz .core (BitVec.ofNat 32 ia32PerfStatus) st = some st' ∧
      ∀ cpu msr, st'.machine.msr cpu msr
        = if (cpu, msr) ∈ perfCtlRegisters e.topo then pState cpuFreqMhz
          else st.machine.msr cpu msr := by
  obtain ⟨st', hcall, -, -, hmsr⟩ := capPState_core hst cpuFreqMhz
  refine ⟨st', hcall, ?_⟩
  intro cpu msr
  rw [hmsr]
  have hkeys : ((perfCtlRegisters e.topo).map fun r => (r, pState cpuFreqMhz)).map Prod.fst
      = perfCtlRegisters e.topo := by
    rw [List.map_map]
    exact List.map_id _
  by_cases h : (cpu, msr) ∈ perfCtlRegisters e.topo
  · rw [if_pos h]
    have hwrites := ((accepted_append _ _ _).mp hacc).1
    rw [accepted_map] at hwrites
    have hstores : Accepted
        (fun n (store : (Nat × Nat) × BitVec 64) =>
          e.driver.fails n ⟨.write, store.1.1, store.1.2⟩) st.machine.log.length
        ((perfCtlRegisters e.topo).map fun r => (r, pState cpuFreqMhz)) := by
      rw [accepted_map]
      exact hwrites
    obtain ⟨r, -, heq⟩ := List.mem_map.mp (afterStores_of_mem hstores (by rwa [hkeys]))
    exact (Prod.mk.inj heq).2.symm
  · rw [if_neg h]
    exact afterStores_of_notMem _ _ (by rwa [hkeys])

end Calls

/-! ### Exactly when -/

/-- Every thread's control register has the ratio in bits 15:8, and nothing else has
changed. -/
structure FrequencyCapped (t : Topology) (ratio : Nat)
    (contents contents' : Nat → Nat → BitVec 64) : Prop where
  ratio : ∀ cpu < t.nthreads, (maskVal (contents' cpu ia32PerfCtl) 15 8).toNat = ratio
  kept : ∀ cpu < t.nthreads, ∀ b, b < 8 ∨ 15 < b →
    (contents' cpu ia32PerfCtl).getLsbD b = (contents cpu ia32PerfCtl).getLsbD b
  other : ∀ cpu msr, ¬ (cpu < t.nthreads ∧ msr = ia32PerfCtl) →
    contents' cpu msr = contents cpu msr

/-- A request for `f` MHz caps the frequency, or is rejected if the ratio has more than
eight bits. -/
def CapsFrequency (e : MsrEnv) (f : Fin (2 ^ 31)) (st : PStateState) : Prop :=
  ∃ ret st', intelCpuFm0655CapFrequency e (BitVec.ofNat 32 f) st = some (ret, st') ∧
    if f.val / 100 ≤ 255 then
      FrequencyCapped e.topo (f.val / 100) st.machine.msr st'.machine.msr
    else ret ≠ 0 ∧ st'.machine.msr = st.machine.msr

/-- The frequency is capped already, and the status registers that a batch can reach
hold just the ratio. -/
structure NothingToCap (t : Topology) (f : Fin (2 ^ 31)) (contents : Nat → Nat → BitVec 64) :
    Prop where
  fits : f.val / 100 ≤ 255
  control : ∀ cpu < t.nthreads, (maskVal (contents cpu ia32PerfCtl) 15 8).toNat = f.val / 100
  status : ∀ cpu < t.nthreads, cpu < 2 ^ 16 →
    contents cpu ia32PerfStatus = BitVec.ofNat 64 (f.val / 100 * 256)

section Exactly

variable {e : MsrEnv} {st : PStateState}

/-- A ratio of eight bits is written as it is. -/
theorem pState_of_fits {f : Fin (2 ^ 31)} (h : f.val / 100 ≤ 255) :
    pState (BitVec.ofNat 32 f) = BitVec.ofNat 64 (f.val / 100 * 256) := by
  have hf : f.val < 25600 := by omega
  have hmsb : (BitVec.ofNat 32 f.val).msb = false := by
    rw [BitVec.msb_eq_false_iff_two_mul_lt, BitVec.toNat_ofNat, Nat.mod_eq_of_lt] <;> omega
  have hdiv : ((BitVec.ofNat 32 f.val).sdiv 100 * 256).toNat = f.val / 100 * 256 := by
    have hquot : (BitVec.ofNat 32 f.val).sdiv 100 = BitVec.ofNat 32 f.val / 100#32 := by
      rw [BitVec.sdiv_eq, hmsb]
      rfl
    rw [hquot, BitVec.toNat_mul, BitVec.toNat_udiv, BitVec.toNat_ofNat]
    show f.val % 2 ^ 32 / 100 * 256 % 2 ^ 32 = f.val / 100 * 256
    omega
  have hpos : ((BitVec.ofNat 32 f.val).sdiv 100 * 256).msb = false := by
    rw [BitVec.msb_eq_false_iff_two_mul_lt, hdiv]
    omega
  apply BitVec.eq_of_toNat_eq
  rw [pState, BitVec.signExtend_eq_setWidth_of_msb_false hpos, BitVec.toNat_setWidth, hdiv,
    BitVec.toNat_ofNat]

/-- **The cap of the core frequency, exactly.**  Where no access is refused, a call does
what it is for exactly when there is nothing to do: the ratio fits its eight bits, every
thread has it in its control register, and nothing else is in the status register, which
is the one that the call writes. -/
theorem capsFrequency_iff (hst : st.Valid e.topo) (f : Fin (2 ^ 31))
    (hacc : Accepted e.driver.fails st.machine.log.length (perfCtlAccesses e.topo)) :
    CapsFrequency e f st ↔ NothingToCap e.topo f st.machine.msr := by
  obtain ⟨st', hcall, hmsr⟩ := capPState_registers hst (BitVec.ofNat 32 f) hacc
  -- the batch is one of the status register, so the control register stays
  have hcontrol : ∀ cpu, st'.machine.msr cpu ia32PerfCtl = st.machine.msr cpu ia32PerfCtl := by
    intro cpu
    rw [hmsr, if_neg]
    rw [mem_perfCtlRegisters]
    exact fun h => absurd h.2.2 (by decide)
  have hret : intelCpuFm0655CapFrequency e (BitVec.ofNat 32 f) st = some (0, st') := by
    rw [intelCpuFm0655CapFrequency, hcall]
    rfl
  constructor
  · rintro ⟨ret, st₁, hcall', hpost⟩
    obtain ⟨rfl, rfl⟩ := Prod.mk.inj (Option.some.inj (hret.symm.trans hcall'))
    by_cases hfits : f.val / 100 ≤ 255
    · rw [if_pos hfits] at hpost
      refine ⟨hfits, fun cpu hcpu => ?_, fun cpu hcpu hnarrow => ?_⟩
      · rw [← hcontrol]
        exact hpost.ratio cpu hcpu
      · rw [← hpost.other cpu ia32PerfStatus (fun h => absurd h.2 (by decide)), hmsr,
          if_pos (mem_perfCtlRegisters.mpr ⟨hcpu, hnarrow, rfl⟩), pState_of_fits hfits]
    · -- a ratio that does not fit is to be refused, and the call answers 0
      rw [if_neg hfits] at hpost
      exact absurd rfl hpost.1
  · rintro ⟨hfits, hratio, hstatus⟩
    have hsame : st'.machine.msr = st.machine.msr := by
      funext cpu msr
      rw [hmsr]
      split
      · next hmem =>
          obtain ⟨hcpu, hnarrow, rfl⟩ := mem_perfCtlRegisters.mp hmem
          rw [hstatus cpu hcpu hnarrow, pState_of_fits hfits]
      · rfl
    refine ⟨0, st', hret, ?_⟩
    rw [if_pos hfits, hsame]
    exact ⟨hratio, fun _ _ _ _ => rfl, fun _ _ _ => rfl⟩

/-- All registers hold 0, and the batch has not been loaded. -/
def PStateState.untouched : PStateState := ⟨⟨fun _ _ => 0, []⟩, none⟩

theorem not_capsFrequency_two : ¬ CapsFrequency twoSocketEnv 2000 .untouched := by
  have hst : PStateState.untouched.Valid twoSocketEnv.topo := nofun
  intro h
  have hnothing := (capsFrequency_iff hst 2000 (accepted_of_never (fun _ _ => rfl) _ _)).mp h
  exact absurd (hnothing.control 0 (by decide)) (by decide)

/-- A request for 2000 MHz puts the ratio in the status register of CPU 0, and leaves
its control register alone. -/
theorem intelCpuFm0655CapFrequency_status :
    ∃ st', intelCpuFm0655CapFrequency twoSocketEnv 2000 .untouched = some (0, st') ∧
      st'.machine.msr 0 ia32PerfStatus = 0x1400 ∧ st'.machine.msr 0 ia32PerfCtl = 0 ∧
      ¬ FrequencyCapped twoSockets 20 PStateState.untouched.machine.msr st'.machine.msr := by
  have hst : PStateState.untouched.Valid twoSocketEnv.topo := nofun
  obtain ⟨st', hcall, hmsr⟩ :=
    capPState_registers hst 2000 (accepted_of_never (fun _ _ => rfl) _ _)
  have hstatus : st'.machine.msr 0 ia32PerfStatus = 0x1400 := by
    rw [hmsr, if_pos (mem_perfCtlRegisters.mpr (by decide))]
    decide
  have hcontrol : st'.machine.msr 0 ia32PerfCtl = 0 := by
    rw [hmsr, if_neg (mt mem_perfCtlRegisters.mp (by decide))]
    rfl
  refine ⟨st', ?_, hstatus, hcontrol, fun h => ?_⟩
  · rw [intelCpuFm0655CapFrequency, hcall]
    rfl
  · have hratio := h.ratio 0 (by decide)
    rw [hcontrol] at hratio
    exact absurd hratio (by decide)

end Exactly

end Variorum
