/-
Variorum/FixedCounters.lean

Switching the fixed counters on and off: `enable_fixed_counters` and
`disable_fixed_counters`.

Both fill in the three counters for every hardware thread and hand them to
`set_fixed_counter_ctrl`, which makes twelve assignments to two registers of each
thread.  Over the constants that the callers fill in, the assignments to one
register are one masked update (`perfGlobalCtrl_program`, `fixedCtrCtrl_program`),
so what a call does to the registers of the node is `ControlCall.registers`, and a
later call forgets the earlier ones (`registers_registers`).

That is what a call does on nodes of up to 65536 hardware threads
(`ControlCall.run_registers`).  The `cpu` field of an operation has 16 bits, so
beyond that the threads from 65536 on are not reached at all
(`fixedFrame_iff`).
-/
import Variorum.BatchLoad
import Variorum.Masked
import Variorum.ReadModifyWrite

namespace Variorum

open History Masked

/-! ### The calls -/

/-- `msrs.ia32_perf_global_ctrl`, the same on every architecture that has it. -/
def ia32PerfGlobalCtrl : Nat := 0x38F

/-- `msrs.ia32_fixed_ctr_ctrl`. -/
def ia32FixedCtrCtrl : Nat := 0x38D

/-- The static counters of `fixed_counter_storage`, and the control batch. -/
structure FixedState where
  c0 : FixedCounter
  c1 : FixedCounter
  c2 : FixedCounter
  ctrl : CtrlState

/-- The assignments of a caller's loop to one counter. -/
def FixedCounter.program (t : Topology) (enable : BitVec 64) (ctr : FixedCounter) : FixedCounter :=
  { ctr with
    enable := fun i => if i < t.nthreads then enable else ctr.enable i
    ringLevel := fun i => if i < t.nthreads then 3 else ctr.ringLevel i -- usr + os
    anyThread := fun i => if i < t.nthreads then 1 else ctr.anyThread i
    pmi := fun i => if i < t.nthreads then 0 else ctr.pmi i }

/-- The body that `enable_fixed_counters` and `disable_fixed_counters` share. -/
def controlFixedCounters (e : MsrEnv) (enable : BitVec 64) (msr1 msr2 : Nat) (st : FixedState) :
    FixedState :=
  let c0 := st.c0.program e.topo enable
  let c1 := st.c1.program e.topo enable
  let c2 := st.c2.program e.topo enable
  let ((c0, c1, c2), ctrl) := setFixedCounterCtrl e c0 c1 c2 msr1 msr2 st.ctrl
  ⟨c0, c1, c2, ctrl⟩

/-- `enable_fixed_counters`: the fields of the three counters switched on for every
thread. -/
def enableFixedCounters (e : MsrEnv) (msr1 msr2 : Nat) (st : FixedState) : FixedState :=
  controlFixedCounters e 1 msr1 msr2 st

/-- `disable_fixed_counters`: the same fields switched off. -/
def disableFixedCounters (e : MsrEnv) (msr1 msr2 : Nat) (st : FixedState) : FixedState :=
  controlFixedCounters e 0 msr1 msr2 st

inductive ControlCall
  | enable
  | disable

namespace ControlCall

def run (e : MsrEnv) (st : FixedState) : ControlCall → FixedState
  | enable => enableFixedCounters e ia32PerfGlobalCtrl ia32FixedCtrCtrl st
  | disable => disableFixedCounters e ia32PerfGlobalCtrl ia32FixedCtrCtrl st

/-- The enable flag of the call. -/
def flag : ControlCall → BitVec 64
  | enable => 1
  | disable => 0

end ControlCall

/-- Calls one after the other. -/
def runControls (e : MsrEnv) (calls : List ControlCall) (st : FixedState) : FixedState :=
  calls.foldl (fun st c => c.run e st) st

/-- The register contents. -/
abbrev FixedState.msr (st : FixedState) : Nat → Nat → BitVec 64 := st.ctrl.machine.msr

/-- No access on the way from `st` to `st'` was refused. -/
def FixedState.Clean (d : Driver) (st st' : FixedState) : Prop :=
  st.ctrl.machine.Clean d st'.ctrl.machine

/-! ### What they are for -/

/-- The control of the fixed counters goes from `contents` to what the call says, and
nothing else changes. -/
structure ControlSet (t : Topology) (c : ControlCall) (contents contents' : Nat → Nat → BitVec 64) :
    Prop where
  other : ∀ cpu msr,
    ¬ (cpu < t.nthreads ∧ (msr = ia32PerfGlobalCtrl ∨ msr = ia32FixedCtrCtrl)) →
      contents' cpu msr = contents cpu msr
  globalKept : ∀ cpu < t.nthreads, ∀ b, b < 32 ∨ 34 < b →
    (contents' cpu ia32PerfGlobalCtrl).getLsbD b = (contents cpu ia32PerfGlobalCtrl).getLsbD b
  fixedKept : ∀ cpu < t.nthreads, ∀ b, 11 < b →
    (contents' cpu ia32FixedCtrCtrl).getLsbD b = (contents cpu ia32FixedCtrCtrl).getLsbD b
  enabled : ∀ cpu < t.nthreads, ∀ k < 3,
    maskVal (contents' cpu ia32PerfGlobalCtrl) (32 + k) (32 + k) = c.flag
  ringLevel : ∀ cpu < t.nthreads, ∀ k < 3,
    maskVal (contents' cpu ia32FixedCtrCtrl) (4 * k + 1) (4 * k) = 3
  anyThread : ∀ cpu < t.nthreads, ∀ k < 3,
    maskVal (contents' cpu ia32FixedCtrCtrl) (4 * k + 2) (4 * k + 2) = 1
  pmi : ∀ cpu < t.nthreads, ∀ k < 3,
    maskVal (contents' cpu ia32FixedCtrCtrl) (4 * k + 3) (4 * k + 3) = 0

/-- On a node of this topology, whatever the registers hold and the process has done
before: calls set the control and nothing else, and after any number of them the
registers are as the last call alone would leave them. -/
structure FixedFrame (t : Topology) : Prop where
  sets : ∀ e : MsrEnv, e.topo = t → ∀ (st : FixedState) (c : ControlCall),
    st.ctrl.Valid t ia32PerfGlobalCtrl ia32FixedCtrCtrl → st.Clean e.driver (c.run e st) →
    ControlSet t c st.msr (c.run e st).msr
  lastCall : ∀ e : MsrEnv, e.topo = t → ∀ (st : FixedState) (calls : List ControlCall)
    (c : ControlCall), st.ctrl.Valid t ia32PerfGlobalCtrl ia32FixedCtrCtrl →
    st.Clean e.driver (runControls e (calls ++ [c]) st) → st.Clean e.driver (c.run e st) →
    (runControls e (calls ++ [c]) st).msr = (c.run e st).msr

/-! ### The assignments as one update -/

/-- The bits of `ia32_perf_global_ctrl` that a call is about, and what it puts there. -/
def globalMask : BitVec 64 := maskRange 34 32

def ControlCall.globalBits : ControlCall → BitVec 64
  | enable => globalMask
  | disable => 0

/-- The bits of `ia32_fixed_ctr_ctrl` that a call is about, and what it puts there. -/
def fixedMask : BitVec 64 := maskRange 11 0

def fixedBits : BitVec 64 := 0x777

/-- The registers after a call, CPU by CPU. -/
def ControlCall.registers (t : Topology) (c : ControlCall) (contents : Nat → Nat → BitVec 64)
    (cpu msr : Nat) : BitVec 64 :=
  if cpu < t.nthreads then
    if msr = ia32PerfGlobalCtrl then put globalMask c.globalBits (contents cpu msr)
    else if msr = ia32FixedCtrCtrl then put fixedMask fixedBits (contents cpu msr)
    else contents cpu msr
  else contents cpu msr

section Updates

variable {t : Topology} {c : ControlCall} {contents : Nat → Nat → BitVec 64} {cpu i : Nat}

theorem setBits_eq_put (x ones : BitVec 64) (shift : Nat) (value : BitVec 64) :
    setBits x ones shift value = put (ones <<< shift) (value <<< shift) x := rfl

/-- The three assignments to the global control register. -/
theorem perfGlobalCtrl_program (c0 c1 c2 : FixedCounter) (c : ControlCall) (hi : i < t.nthreads)
    (x : BitVec 64) :
    perfGlobalCtrl (c0.program t c.flag) (c1.program t c.flag) (c2.program t c.flag) i x
      = put globalMask c.globalBits x := by
  simp only [perfGlobalCtrl, FixedCounter.program, if_pos hi, setBits_eq_put, put_put]
  cases c <;> rfl

/-- The nine assignments to the control register of the fixed counters. -/
theorem fixedCtrCtrl_program (c0 c1 c2 : FixedCounter) (c : ControlCall) (hi : i < t.nthreads)
    (x : BitVec 64) :
    fixedCtrCtrl (c0.program t c.flag) (c1.program t c.flag) (c2.program t c.flag) i x
      = put fixedMask fixedBits x := by
  simp only [fixedCtrCtrl, FixedCounter.program, if_pos hi, setBits_eq_put, put_put]
  rfl

theorem globalBits_within (c : ControlCall) :
    c.globalBits &&& ~~~globalMask = 0#64 := by
  cases c <;> rfl

theorem registers_global (h : cpu < t.nthreads) :
    c.registers t contents cpu ia32PerfGlobalCtrl
      = put globalMask c.globalBits (contents cpu ia32PerfGlobalCtrl) := by
  rw [ControlCall.registers, if_pos h, if_pos rfl]

theorem registers_fixed (h : cpu < t.nthreads) :
    c.registers t contents cpu ia32FixedCtrCtrl
      = put fixedMask fixedBits (contents cpu ia32FixedCtrCtrl) := by
  rw [ControlCall.registers, if_pos h, if_neg (by decide), if_pos rfl]

theorem registers_other {msr : Nat}
    (h : ¬ (cpu < t.nthreads ∧ (msr = ia32PerfGlobalCtrl ∨ msr = ia32FixedCtrCtrl))) :
    c.registers t contents cpu msr = contents cpu msr := by
  unfold ControlCall.registers
  split
  · next hcpu =>
      have hmsr := not_or.mp fun hmsr => h ⟨hcpu, hmsr⟩
      rw [if_neg hmsr.1, if_neg hmsr.2]
  · rfl

/-- **A later call forgets the earlier one.** -/
theorem registers_registers (c c' : ControlCall) :
    c'.registers t (c.registers t contents) = c'.registers t contents := by
  funext cpu msr
  by_cases h : cpu < t.nthreads ∧ (msr = ia32PerfGlobalCtrl ∨ msr = ia32FixedCtrCtrl)
  · obtain ⟨hcpu, rfl | rfl⟩ := h
    · rw [registers_global hcpu, registers_global hcpu, registers_global hcpu]
      exact put_put_self (globalBits_within c)
    · rw [registers_fixed hcpu, registers_fixed hcpu, registers_fixed hcpu]
      exact put_put_self (by decide)
  · rw [registers_other h, registers_other h, registers_other h]

/-- A field under the mask. -/
theorem maskVal_put {ones value : BitVec 64} (x : BitVec 64) {m n : Nat}
    (h : maskRange m n &&& ~~~ones = 0#64) :
    maskVal (put ones value x) m n = maskVal value m n := by
  rw [maskVal, put_and h, maskVal]

/-- What a call leaves in a field of the control register of the fixed counters. -/
theorem maskVal_registers_fixed (hcpu : cpu < t.nthreads) {m n : Nat}
    (h : maskRange m n &&& ~~~fixedMask = 0#64) :
    maskVal (c.registers t contents cpu ia32FixedCtrCtrl) m n = maskVal fixedBits m n := by
  rw [registers_fixed hcpu, maskVal_put _ h]

/-- **What a call is to do, it does.** -/
theorem controlSet_registers (t : Topology) (c : ControlCall) (contents : Nat → Nat → BitVec 64) :
    ControlSet t c contents (c.registers t contents) := by
  refine ⟨fun cpu msr => registers_other, ?_, ?_, ?_, ?_, ?_, ?_⟩ <;> intro cpu hcpu
  · intro b hb
    rw [registers_global hcpu]
    apply getLsbD_put_of_outside (globalBits_within c)
    rw [globalMask, maskRange_getLsbD (by decide) (by decide)]
    grind
  · intro b hb
    rw [registers_fixed hcpu]
    apply getLsbD_put_of_outside (by decide)
    rw [fixedMask, maskRange_getLsbD (by decide) (by decide)]
    grind
  · rw [registers_global hcpu]
    intro k hk
    have hfield : ∀ k < 3, maskRange (32 + k) (32 + k) &&& ~~~globalMask = 0#64 := by decide
    rw [maskVal_put _ (hfield k hk)]
    have hvalue : ∀ k < 3, maskVal c.globalBits (32 + k) (32 + k) = c.flag := by
      cases c <;> decide
    exact hvalue k hk
  -- the ring level, the thread bit and the interrupt bit of the three counters
  · intro k hk
    have hfield : ∀ k < 3, maskRange (4 * k + 1) (4 * k) &&& ~~~fixedMask = 0#64 := by decide
    rw [maskVal_registers_fixed hcpu (hfield k hk)]
    revert k
    decide
  · intro k hk
    have hfield : ∀ k < 3, maskRange (4 * k + 2) (4 * k + 2) &&& ~~~fixedMask = 0#64 := by decide
    rw [maskVal_registers_fixed hcpu (hfield k hk)]
    revert k
    decide
  · intro k hk
    have hfield : ∀ k < 3, maskRange (4 * k + 3) (4 * k + 3) &&& ~~~fixedMask = 0#64 := by decide
    rw [maskVal_registers_fixed hcpu (hfield k hk)]
    revert k
    decide

end Updates

/-! ### What reaches the registers -/

section Calls

variable {e : MsrEnv} {t : Topology} {ctr0 ctr1 ctr2 : FixedCounter} {msr1 msr2 : Nat}
variable {ops : List MsrBatchOp} {m : Machine} {st : FixedState}

/-- The registers of the two loads, by operation. -/
theorem IsCtrlBatch.register_eq (h : IsCtrlBatch t msr1 msr2 ops) :
    ops.map (·.register)
      = ((List.range t.nthreads).map fun i => (i % 2 ^ 16, msr1 % 2 ^ 32)) ++
        ((List.range t.nthreads).map fun i => (i % 2 ^ 16, msr2 % 2 ^ 32)) := by
  rw [h.register, fixedCounterCtrlStorage, List.map_append, List.map_map, List.map_map]
  rfl

/-- On a node whose CPUs have numbers of 16 bits: the registers that operations name. -/
theorem IsCtrlBatch.mem_register (h : IsCtrlBatch t ia32PerfGlobalCtrl ia32FixedCtrCtrl ops)
    (hfew : t.nthreads ≤ 2 ^ 16) {cpu msr : Nat} (hcpu : cpu < t.nthreads)
    (hmsr : msr = ia32PerfGlobalCtrl ∨ msr = ia32FixedCtrCtrl) :
    (cpu, msr) ∈ ops.map (·.register) := by
  have hmod : cpu % 2 ^ 16 = cpu := Nat.mod_eq_of_lt (hcpu.trans_le hfew)
  rw [h.register_eq]
  rcases hmsr with rfl | rfl
  · apply List.mem_append_left
    exact List.mem_map.mpr ⟨cpu, List.mem_range.mpr hcpu, congrArg (·, _) hmod⟩
  · apply List.mem_append_right
    exact List.mem_map.mpr ⟨cpu, List.mem_range.mpr hcpu, congrArg (·, _) hmod⟩

/-- On such a node: what goes out for an operation is what the call is to leave in its
register. -/
theorem IsCtrlBatch.ctrlBits_eq (h : IsCtrlBatch t ia32PerfGlobalCtrl ia32FixedCtrCtrl ops)
    (hfew : t.nthreads ≤ 2 ^ 16) (c0 c1 c2 : FixedCounter) (c : ControlCall)
    (contents : Nat → Nat → BitVec 64) {k : Nat} {r : Nat × Nat}
    (hk : (ops.map (·.register))[k]? = some r) :
    ctrlBits t (c0.program t c.flag) (c1.program t c.flag) (c2.program t c.flag) k
        (contents r.1 r.2) = c.registers t contents r.1 r.2 := by
  rw [h.register_eq] at hk
  -- the first half of the batch holds the global registers, the second the others
  rcases Nat.lt_or_ge k t.nthreads with hlt | hge
  · rw [List.getElem?_append_left (by simpa using hlt), List.getElem?_map,
      List.getElem?_range hlt] at hk
    have hr : r = (k, ia32PerfGlobalCtrl) := by
      rw [← Option.some.inj hk]
      exact Prod.ext (Nat.mod_eq_of_lt (hlt.trans_le hfew)) rfl
    rw [hr, registers_global hlt, ctrlBits, if_pos hlt, perfGlobalCtrl_program _ _ _ _ hlt]
  · rw [List.getElem?_append_right (by simpa using hge), List.length_map, List.length_range,
      List.getElem?_map] at hk
    obtain ⟨i, hi, hr⟩ := Option.map_eq_some_iff.mp hk
    obtain ⟨hlt, rfl⟩ := List.getElem?_eq_some_iff.mp hi
    rw [List.length_range] at hlt
    rw [List.getElem_range, Nat.mod_eq_of_lt (hlt.trans_le hfew)] at hr
    rw [← hr]
    show ctrlBits _ _ _ _ k (contents (k - t.nthreads) ia32FixedCtrCtrl)
      = c.registers t contents (k - t.nthreads) ia32FixedCtrCtrl
    rw [registers_fixed hlt, ctrlBits, if_neg (Nat.not_lt.mpr hge),
      fixedCtrCtrl_program _ _ _ _ hlt]

/-- The registers that the stores name. -/
theorem ctrlStores_register (ops : List MsrBatchOp) (m : Machine) :
    (ctrlStores e ctr0 ctr1 ctr2 ops m).map Prod.fst = ops.map (·.register) := by
  rw [ctrlStores, List.map_fst_zip]
  simp [image]

/-- With nothing refused, a store is an update of what its register holds. -/
theorem mem_ctrlStores (hacc : Accepted e.driver.fails m.log.length (ops.map (·.readAccess)))
    {store : (Nat × Nat) × BitVec 64} (h : store ∈ ctrlStores e ctr0 ctr1 ctr2 ops m) :
    ∃ k, (ops.map (·.register))[k]? = some store.1 ∧
      store.2 = ctrlBits e.topo ctr0 ctr1 ctr2 k (m.msr store.1.1 store.1.2) := by
  obtain ⟨k, hk⟩ := List.mem_iff_getElem?.mp h
  rw [ctrlStores, List.getElem?_zip_eq_some, image_of_accepted hacc, List.getElem?_mapIdx] at hk
  obtain ⟨hreg, hval⟩ := hk
  refine ⟨k, hreg, ?_⟩
  rw [List.getElem?_map] at hreg hval
  cases hop : ops[k]? with
  | none =>
      rw [hop] at hreg
      cases hreg
  | some op =>
      rw [hop] at hreg hval
      have hfst : op.register = store.1 := Option.some.inj hreg
      have hsnd : ctrlBits e.topo ctr0 ctr1 ctr2 k (m.msr op.cpu.toNat op.msr.toNat) = store.2 :=
        Option.some.inj hval
      rw [← hsnd, ← hfst]
      rfl

theorem ControlCall.run_ctrl (e : MsrEnv) (st : FixedState) (c : ControlCall) :
    (c.run e st).ctrl
      = (setFixedCounterCtrl e (st.c0.program e.topo c.flag) (st.c1.program e.topo c.flag)
          (st.c2.program e.topo c.flag) ia32PerfGlobalCtrl ia32FixedCtrCtrl st.ctrl).2 := by
  cases c <;> rfl

/-- The operations that a call carries out. -/
def FixedState.batch (t : Topology) (st : FixedState) : List MsrBatchOp :=
  st.ctrl.ops.getD (fixedCounterCtrlStorage t ia32PerfGlobalCtrl ia32FixedCtrCtrl)

/-- A call keeps the batch, and adds to the history. -/
theorem ControlCall.run_valid (hst : st.ctrl.Valid e.topo ia32PerfGlobalCtrl ia32FixedCtrCtrl)
    (c : ControlCall) :
    (c.run e st).ctrl.Valid e.topo ia32PerfGlobalCtrl ia32FixedCtrCtrl ∧
      (c.run e st).ctrl.machine.log = st.ctrl.machine.log ++
        ((st.batch e.topo).map (·.readAccess) ++ (st.batch e.topo).map (·.writeAccess)) := by
  rw [c.run_ctrl]
  obtain ⟨hvalid, hlog, -⟩ := setFixedCounterCtrl_spec hst (st.c0.program e.topo c.flag)
    (st.c1.program e.topo c.flag) (st.c2.program e.topo c.flag)
  refine ⟨hvalid, hlog.trans ?_⟩
  rw [List.append_assoc]
  rfl

/-- A register that no operation names is kept. -/
theorem ControlCall.run_of_notMem
    (hst : st.ctrl.Valid e.topo ia32PerfGlobalCtrl ia32FixedCtrCtrl) (c : ControlCall)
    {cpu msr : Nat} (hnot : (cpu, msr) ∉ (st.batch e.topo).map (·.register)) :
    (c.run e st).msr cpu msr = st.msr cpu msr := by
  obtain ⟨-, -, hmsr⟩ := setFixedCounterCtrl_spec hst (st.c0.program e.topo c.flag)
    (st.c1.program e.topo c.flag) (st.c2.program e.topo c.flag)
  show (c.run e st).ctrl.machine.msr cpu msr = _
  rw [c.run_ctrl, hmsr]
  apply afterStores_of_notMem
  rw [ctrlStores_register]
  exact hnot

/-- The registers of a CPU that no operation reaches are kept. -/
theorem ControlCall.run_unreached
    (hst : st.ctrl.Valid e.topo ia32PerfGlobalCtrl ia32FixedCtrCtrl) (c : ControlCall) {cpu : Nat}
    (hcpu : 2 ^ 16 ≤ cpu) (msr : Nat) : (c.run e st).msr cpu msr = st.msr cpu msr := by
  apply c.run_of_notMem hst
  intro hmem
  exact absurd (register_cpu_lt hmem) (Nat.not_lt.mpr hcpu)

/-- So are all registers but the two. -/
theorem ControlCall.run_other (hst : st.ctrl.Valid e.topo ia32PerfGlobalCtrl ia32FixedCtrCtrl)
    (c : ControlCall) {msr : Nat} (hne : msr ≠ ia32PerfGlobalCtrl ∧ msr ≠ ia32FixedCtrCtrl)
    (cpu : Nat) : (c.run e st).msr cpu msr = st.msr cpu msr := by
  apply c.run_of_notMem hst
  rw [FixedState.batch, hst.batch.register_eq]
  intro hmem
  rcases List.mem_append.mp hmem with h | h <;> obtain ⟨i, -, hi⟩ := List.mem_map.mp h
  · exact hne.1 (congrArg Prod.snd hi).symm
  · exact hne.2 (congrArg Prod.snd hi).symm

/-- **What a call does to the registers** of a node whose CPUs have numbers of 16
bits, when no access is refused. -/
theorem ControlCall.run_registers
    (hst : st.ctrl.Valid e.topo ia32PerfGlobalCtrl ia32FixedCtrCtrl) (c : ControlCall)
    (hfew : e.topo.nthreads ≤ 2 ^ 16) (hclean : st.Clean e.driver (c.run e st)) :
    (c.run e st).msr = c.registers e.topo st.msr := by
  obtain ⟨-, hlog⟩ := c.run_valid hst
  rw [FixedState.Clean, Machine.Clean, hlog, clean_append_iff, accepted_append] at hclean
  obtain ⟨hreads, hwrites⟩ := hclean
  obtain ⟨-, -, hmsr⟩ := setFixedCounterCtrl_spec hst (st.c0.program e.topo c.flag)
    (st.c1.program e.topo c.flag) (st.c2.program e.topo c.flag)
  rw [← c.run_ctrl] at hmsr
  let stores := ctrlStores e (st.c0.program e.topo c.flag) (st.c1.program e.topo c.flag)
    (st.c2.program e.topo c.flag) (st.batch e.topo) st.ctrl.machine
  let m : Machine := { st.ctrl.machine with
    log := st.ctrl.machine.log ++ (st.batch e.topo).map (·.readAccess) }
  have hafter : (c.run e st).msr = afterStores e.driver m stores := hmsr
  have hregs : stores.map Prod.fst = (st.batch e.topo).map (·.register) := ctrlStores_register _ _
  have hacc : Accepted (fun n store => e.driver.fails n ⟨.write, store.1.1, store.1.2⟩)
      m.log.length stores := by
    apply accepted_stores hregs
    rw [List.length_append]
    exact hwrites
  have hbatch := hst.batch
  funext cpu msr
  rw [hafter]
  -- a register that is stored to gets its bits from the batch, the others stay
  by_cases hmem : (cpu, msr) ∈ stores.map Prod.fst
  · obtain ⟨k, hk, hval⟩ := mem_ctrlStores hreads (afterStores_of_mem hacc hmem)
    exact hval.trans (hbatch.ctrlBits_eq hfew _ _ _ c st.msr hk)
  · rw [afterStores_of_notMem _ _ hmem]
    symm
    apply registers_other
    rintro ⟨hcpu, hctrl⟩
    rw [hregs] at hmem
    exact hmem (hbatch.mem_register hfew hcpu hctrl)

/-- **What a run of calls does**, by induction on the calls before the last. -/
theorem runControls_registers
    (hst : st.ctrl.Valid e.topo ia32PerfGlobalCtrl ia32FixedCtrCtrl)
    (hfew : e.topo.nthreads ≤ 2 ^ 16) (calls : List ControlCall) (c : ControlCall) :
    st.ctrl.machine.log <+: (runControls e (calls ++ [c]) st).ctrl.machine.log ∧
      (st.Clean e.driver (runControls e (calls ++ [c]) st) →
        (runControls e (calls ++ [c]) st).msr = c.registers e.topo st.msr) := by
  induction calls generalizing st with
  | nil =>
      refine ⟨?_, c.run_registers hst hfew⟩
      exact (c.run_valid hst).2 ▸ List.prefix_append _ _
  | cons c' calls ih =>
      obtain ⟨hvalid, hlog⟩ := c'.run_valid hst
      obtain ⟨hgrows', hmsr⟩ := ih hvalid
      have hgrows : st.ctrl.machine.log <+: (c'.run e st).ctrl.machine.log :=
        hlog ▸ List.prefix_append _ _
      refine ⟨hgrows.trans hgrows', ?_⟩
      intro hclean
      obtain ⟨hfirst, hrest⟩ := (clean_trans_iff hgrows hgrows').mp hclean
      rw [← registers_registers c' c, ← c'.run_registers hst hfew hfirst]
      exact hmsr hrest

end Calls

/-! ### Exactly when -/

theorem fixedFrame_of_few {t : Topology} (hfew : t.nthreads ≤ 2 ^ 16) : FixedFrame t where
  sets := by
    rintro e rfl st c hst hclean
    rw [c.run_registers hst hfew hclean]
    exact controlSet_registers _ _ _
  lastCall := by
    rintro e rfl st calls c hst hcalls hclean
    rw [c.run_registers hst hfew hclean]
    exact (runControls_registers hst hfew calls c).2 hcalls

/-- All registers hold 0, and the process has not touched the counters. -/
def untouchedCounters : FixedState :=
  let ctr : FixedCounter := ⟨fun _ => 0, fun _ => 0, fun _ => 0, fun _ => 0, fun _ => 0⟩
  ⟨ctr, ctr, ctr, ⟨fun _ _ => 0, []⟩, none⟩

/-- On a node of more threads, enabling the counters leaves those of CPU 65536 off. -/
theorem not_fixedFrame_of_many {t : Topology} (hmany : 2 ^ 16 < t.nthreads) : ¬ FixedFrame t := by
  intro h
  have hvalid : untouchedCounters.ctrl.Valid t ia32PerfGlobalCtrl ia32FixedCtrCtrl := nofun
  let e : MsrEnv := ⟨t, ⟨fun _ _ => false⟩, true⟩
  have hgrows := (ControlCall.run_valid (show untouchedCounters.ctrl.Valid e.topo _ _ from hvalid)
    .enable).2
  have hclean : untouchedCounters.Clean e.driver (ControlCall.enable.run e untouchedCounters) :=
    clean_of_never (fun _ _ => rfl) (hgrows ▸ List.prefix_append _ _)
  have hset := (h.sets e rfl untouchedCounters .enable hvalid hclean).enabled (2 ^ 16) hmany 0
    (by decide)
  rw [ControlCall.run_unreached hvalid .enable (Nat.le_refl _)] at hset
  exact absurd hset (by decide)

/-- **The control of the fixed counters, exactly.**  Where no access is refused, every
call sets the fields of the counters on every thread and leaves every other bit as it
was, and after any calls all is as the last one alone would have left it, precisely on
nodes of up to 65536 hardware threads. -/
theorem fixedFrame_iff (t : Topology) : FixedFrame t ↔ t.nthreads ≤ 2 ^ 16 := by
  constructor
  · intro h
    by_contra hmany
    exact not_fixedFrame_of_many (Nat.not_le.mp hmany) h
  · exact fixedFrame_of_few

/-- One socket with 65537 cores is too many. -/
theorem not_fixedFrame_wideNode : ¬ FixedFrame wideNode :=
  not_fixedFrame_of_many (by decide)

end Variorum
