/-
Variorum/ReadModifyWrite.lean

What a read-modify-write does when its read is refused.

Two functions change part of a register and keep the rest.
`cap_package_power_limit` reads the power limit register of a socket, and
`set_fixed_counter_ctrl` reads two control registers of every CPU through the
batch `FIXED_COUNTERS_CTRL_DATA`.  Neither gives up when the read is refused.
The first goes on with the 0 it started from, so the second power limit is
cleared; it returns the error, after the write.  The second looks at no answer:
it sets its fields in what the previous call left in the batch and writes that.

So a refused read is harmless only if what is written changes nothing.
`failSafe_iff` says when that is: for the first the limit does not fit, or the
write is refused too, or the register holds the value already.  For the second,
a register that is written holds the values of the counters in its fields, and
where its read was refused the data in the batch has the same bits elsewhere.
-/
import Variorum.Masked
import Variorum.PowerCapExact

namespace Variorum

open History Masked

/-! ### The fixed counters -/

/-- `struct fixed_counter`, by CPU.  `value` points to the data of a batch of its
own; its `overflow` is not used here. -/
structure FixedCounter where
  enable : Nat → BitVec 64
  ringLevel : Nat → BitVec 64
  anyThread : Nat → BitVec 64
  pmi : Nat → BitVec 64
  value : Nat → BitVec 64

/-- `(x & ~(ones << shift)) | (value << shift)`. -/
def setBits (x ones : BitVec 64) (shift : Nat) (value : BitVec 64) : BitVec 64 :=
  (x &&& ~~~(ones <<< shift)) ||| (value <<< shift)

/-- The three assignments to `*perf_global_ctrl[i]`. -/
def perfGlobalCtrl (ctr0 ctr1 ctr2 : FixedCounter) (i : Nat) (x : BitVec 64) : BitVec 64 :=
  let x := setBits x 1 32 (ctr0.enable i)
  let x := setBits x 1 33 (ctr1.enable i)
  setBits x 1 34 (ctr2.enable i)

/-- The nine assignments to `*fixed_ctr_ctrl[i]`. -/
def fixedCtrCtrl (ctr0 ctr1 ctr2 : FixedCounter) (i : Nat) (x : BitVec 64) : BitVec 64 :=
  let x := setBits x 3 0 (ctr0.ringLevel i)
  let x := setBits x 1 2 (ctr0.anyThread i)
  let x := setBits x 1 3 (ctr0.pmi i)
  let x := setBits x 3 4 (ctr1.ringLevel i)
  let x := setBits x 1 6 (ctr1.anyThread i)
  let x := setBits x 1 7 (ctr1.pmi i)
  let x := setBits x 3 8 (ctr2.ringLevel i)
  let x := setBits x 1 10 (ctr2.anyThread i)
  setBits x 1 11 (ctr2.pmi i)

/-- The registers and the operations of the batch `FIXED_COUNTERS_CTRL_DATA`; `none`
before `fixed_counter_ctrl_storage` has made them. -/
structure CtrlState where
  machine : Machine
  ops : Option (List MsrBatchOp)

/-- `fixed_counter_ctrl_storage`: two loads of the batch, so `perf_global_ctrl[i]` is
the data of operation `i` and `fixed_ctr_ctrl[i]` that of operation
`nthreads + i`. -/
def fixedCounterCtrlStorage (t : Topology) (msr1 msr2 : Nat) : List MsrBatchOp :=
  (List.range t.nthreads).map (fun i => MsrBatchOp.zero.fill msr1 i) ++
    (List.range t.nthreads).map (fun i => MsrBatchOp.zero.fill msr2 i)

/-- The value that goes out for operation `k` when its data is `x`. -/
def ctrlBits (t : Topology) (ctr0 ctr1 ctr2 : FixedCounter) (k : Nat) (x : BitVec 64) :
    BitVec 64 :=
  if k < t.nthreads then perfGlobalCtrl ctr0 ctr1 ctr2 k x
  else fixedCtrCtrl ctr0 ctr1 ctr2 (k - t.nthreads) x

/-- The loop of `set_fixed_counter_ctrl` over the data of the batch. -/
def modifyCtrl (t : Topology) (ctr0 ctr1 ctr2 : FixedCounter) (ops : List MsrBatchOp) :
    List MsrBatchOp :=
  ops.mapIdx fun k op => { op with msrdata := ctrlBits t ctr0 ctr1 ctr2 k op.msrdata }

/-- The same loop over the counters: `*ctr->value[i] = 0` for every CPU. -/
def FixedCounter.clear (t : Topology) (ctr : FixedCounter) : FixedCounter :=
  { ctr with value := fun i => if i < t.nthreads then 0 else ctr.value i }

/-- `set_fixed_counter_ctrl`: the counters and the state after it. -/
def setFixedCounterCtrl (e : MsrEnv) (ctr0 ctr1 ctr2 : FixedCounter) (msr1 msr2 : Nat)
    (st : CtrlState) : (FixedCounter × FixedCounter × FixedCounter) × CtrlState :=
  let ops := st.ops.getD (fixedCounterCtrlStorage e.topo msr1 msr2)
  -- "Don't need to read counters data, we are just zeroing things out."
  let (ops, m) := readOps e ops st.machine
  let ops := modifyCtrl e.topo ctr0 ctr1 ctr2 ops
  let (ops, m) := writeOps e ops m
  ((ctr0.clear e.topo, ctr1.clear e.topo, ctr2.clear e.topo), ⟨m, some ops⟩)

/-! ### The batch in between -/

/-- The operations are those of the two loads, whatever their data, and have not been
told apart since. -/
structure IsCtrlBatch (t : Topology) (msr1 msr2 : Nat) (ops : List MsrBatchOp) : Prop where
  register : ops.map (·.register) = (fixedCounterCtrlStorage t msr1 msr2).map (·.register)
  uniform : Uniform t ops

/-- A state that `set_fixed_counter_ctrl` can be called in. -/
def CtrlState.Valid (t : Topology) (msr1 msr2 : Nat) (st : CtrlState) : Prop :=
  ∀ ops, st.ops = some ops → IsCtrlBatch t msr1 msr2 ops

/-- The stores of the write when `m` is the machine before the read: the image with
the fields set. -/
def ctrlStores (e : MsrEnv) (ctr0 ctr1 ctr2 : FixedCounter) (ops : List MsrBatchOp)
    (m : Machine) : List ((Nat × Nat) × BitVec 64) :=
  List.zip (ops.map (·.register))
    ((image e.driver m ops).mapIdx (ctrlBits e.topo ctr0 ctr1 ctr2))

section Ctrl

variable {e : MsrEnv} {t : Topology} {ctr0 ctr1 ctr2 : FixedCounter} {msr1 msr2 : Nat}
variable {ops ops' : List MsrBatchOp} {m m' : Machine} {st : CtrlState}

theorem fill_cpu_lt {msr i : Nat} (h : i < t.nthreads) :
    (MsrBatchOp.zero.fill msr i).cpu.toNat < t.nthreads := by
  show (BitVec.ofNat 16 i).toNat < t.nthreads
  rw [BitVec.toNat_ofNat]
  exact (Nat.mod_le _ _).trans_lt h

/-- What the storage makes is such a batch. -/
theorem isCtrlBatch_storage (t : Topology) (msr1 msr2 : Nat) :
    IsCtrlBatch t msr1 msr2 (fixedCounterCtrlStorage t msr1 msr2) := by
  refine ⟨rfl, ?_, true, ?_⟩ <;> intro op hop <;> rcases List.mem_append.mp hop with h | h <;>
    obtain ⟨i, hi, rfl⟩ := List.mem_map.mp h
  · exact fill_cpu_lt (List.mem_range.mp hi)
  · exact fill_cpu_lt (List.mem_range.mp hi)
  · rfl
  · rfl

/-- The batch of a call, in any state it can be made in. -/
theorem CtrlState.Valid.batch (hst : st.Valid t msr1 msr2) :
    IsCtrlBatch t msr1 msr2 (st.ops.getD (fixedCounterCtrlStorage t msr1 msr2)) := by
  cases hops : st.ops with
  | none => exact isCtrlBatch_storage _ _ _
  | some ops => exact hst ops hops

theorem modifyCtrl_register (ops : List MsrBatchOp) :
    (modifyCtrl t ctr0 ctr1 ctr2 ops).map (·.register) = ops.map (·.register) := by
  apply List.ext_getElem?
  intro k
  rw [List.getElem?_map, modifyCtrl, List.getElem?_mapIdx, List.getElem?_map, Option.map_map]
  rfl

theorem modifyCtrl_data (ops : List MsrBatchOp) :
    (modifyCtrl t ctr0 ctr1 ctr2 ops).map (·.msrdata)
      = (ops.map (·.msrdata)).mapIdx (ctrlBits t ctr0 ctr1 ctr2) := by
  apply List.ext_getElem?
  intro k
  rw [List.getElem?_map, modifyCtrl, List.getElem?_mapIdx, List.getElem?_mapIdx,
    List.getElem?_map, Option.map_map, Option.map_map]
  rfl

/-- Setting the fields touches nothing but the data. -/
theorem modifyCtrl_uniform (ctr0 ctr1 ctr2 : FixedCounter) (h : Uniform t ops) :
    Uniform t (modifyCtrl t ctr0 ctr1 ctr2 ops) := by
  obtain ⟨flag, hflag⟩ := h.flag
  apply h.of_map flag (modifyCtrl_register ops)
  intro op hop
  obtain ⟨k, hk, rfl⟩ := List.mem_mapIdx.mp hop
  exact hflag ops[k] (List.getElem_mem hk)

theorem writeAccess_of_register (h : ops'.map (·.register) = ops.map (·.register)) :
    ops'.map (·.writeAccess) = ops.map (·.writeAccess) := by
  have hmap := congrArg (List.map fun r : Nat × Nat => (⟨.write, r.1, r.2⟩ : Access)) h
  rwa [List.map_map, List.map_map] at hmap

theorem stores_eq_zip (ops : List MsrBatchOp) :
    ops.map (·.store) = List.zip (ops.map (·.register)) (ops.map (·.msrdata)) := by
  rw [List.zip_map']
  rfl

/-- **`set_fixed_counter_ctrl`**: the reads, then the writes, and the stores of these
are the image with the fields set.  The batch stays what it was. -/
theorem setFixedCounterCtrl_spec (hst : st.Valid e.topo msr1 msr2)
    (ctr0 ctr1 ctr2 : FixedCounter) :
    let ops := st.ops.getD (fixedCounterCtrlStorage e.topo msr1 msr2)
    let st' := (setFixedCounterCtrl e ctr0 ctr1 ctr2 msr1 msr2 st).2
    let m : Machine :=
      { st.machine with log := st.machine.log ++ ops.map (·.readAccess) }
    st'.Valid e.topo msr1 msr2 ∧ st'.machine.log = m.log ++ ops.map (·.writeAccess) ∧
      st'.machine.msr
        = afterStores e.driver m (ctrlStores e ctr0 ctr1 ctr2 ops st.machine) := by
  intro ops st' m
  have hbatch : IsCtrlBatch e.topo msr1 msr2 ops := hst.batch
  obtain ⟨hmachine, hreg, hdata⟩ := readOps_image hbatch.uniform st.machine
  have huni := modifyCtrl_uniform ctr0 ctr1 ctr2 (readOps_uniform hbatch.uniform st.machine)
  obtain ⟨hlog, hreg', hmsr⟩ := writeOps_registers huni (readOps e ops st.machine).2
  rw [modifyCtrl_register] at hreg'
  refine ⟨?_, ?_, ?_⟩
  · intro ops' hops'
    obtain rfl := Option.some.inj hops'
    exact ⟨(hreg'.trans hreg).trans hbatch.register, writeOps_uniform huni _⟩
  · refine hlog.trans ?_
    rw [writeAccess_of_register ((modifyCtrl_register _).trans hreg), hmachine]
  · refine hmsr.trans ?_
    rw [hmachine, stores_eq_zip, modifyCtrl_register, modifyCtrl_data, hreg, hdata]
    rfl

end Ctrl

/-! ### Failing safe -/

/-- A call of `cap_package_power_limit` fails safe: if its read is refused, no register
of any CPU changes and the call does not return 0. -/
def CapFailsSafe (e : MsrEnv) (socket : Nat) (watts : BitVec 32) (msrPowerLimit msrRaplUnit : Nat)
    (st : PowerState) : Prop :=
  ReadRefused e msrPowerLimit st socket = true →
    (capPackagePowerLimit e socket watts msrPowerLimit msrRaplUnit st).2.machine.msr
        = st.machine.msr ∧
      (capPackagePowerLimit e socket watts msrPowerLimit msrRaplUnit st).1 ≠ 0

/-- What makes a cap harmless: its read is let through, or the limit does not fit in
the units that the table holds, or the write is refused as well, or the register
holds already what is written over a 0. -/
def CapHarmless (e : MsrEnv) (socket : Nat) (watts : BitVec 32) (msrPowerLimit msrRaplUnit : Nat)
    (st : PowerState) : Prop :=
  let unitReg := tableUnits e msrRaplUnit
    (st.logged ⟨.read, socketIndex e.topo socket, msrPowerLimit⟩) socket
  ReadRefused e msrPowerLimit st socket = false ∨ ¬ Encodable unitReg watts ∨
    e.driver.fails (st.machine.log.length + 1 + (fillAccesses e msrRaplUnit st).length)
      ⟨.write, socketIndex e.topo socket, msrPowerLimit⟩ = true ∨
    st.machine.msr (socketIndex e.topo socket) msrPowerLimit = capReg unitReg 0 watts

/-- Some read of `set_fixed_counter_ctrl` is refused. -/
def CtrlReadRefused (e : MsrEnv) (msr1 msr2 : Nat) (m : Machine) : Prop :=
  ¬ Accepted e.driver.fails m.log.length
    ((fixedCounterCtrlStorage e.topo msr1 msr2).map (·.readAccess))

/-- A call of `set_fixed_counter_ctrl` fails safe: if a read is refused, no register of
any CPU changes. -/
def CtrlFailsSafe (e : MsrEnv) (ctr0 ctr1 ctr2 : FixedCounter) (msr1 msr2 : Nat)
    (st : CtrlState) : Prop :=
  CtrlReadRefused e msr1 msr2 st.machine →
    (setFixedCounterCtrl e ctr0 ctr1 ctr2 msr1 msr2 st).2.machine.msr = st.machine.msr

/-- The register that operation `k` is about: its CPU, in 16 bits, and its number. -/
def ctrlRegister (t : Topology) (msr1 msr2 k : Nat) : Nat × Nat :=
  if k < t.nthreads then (k % 2 ^ 16, msr1 % 2 ^ 32)
  else ((k - t.nthreads) % 2 ^ 16, msr2 % 2 ^ 32)

/-- The fields that operation `k` is about.  In the first register counter `j` is enabled
by bit `32 + j`; in the second it has four bits from `4 * j` on, for its ring level,
any thread, and the interrupt. -/
def ctrlFields (t : Topology) (ctr0 ctr1 ctr2 : FixedCounter) (k : Nat) : List (Field 64) :=
  if k < t.nthreads then
    [⟨32, 1, ctr0.enable k⟩, ⟨33, 1, ctr1.enable k⟩, ⟨34, 1, ctr2.enable k⟩]
  else
    let i := k - t.nthreads
    [⟨0, 2, ctr0.ringLevel i⟩, ⟨2, 1, ctr0.anyThread i⟩, ⟨3, 1, ctr0.pmi i⟩,
      ⟨4, 2, ctr1.ringLevel i⟩, ⟨6, 1, ctr1.anyThread i⟩, ⟨7, 1, ctr1.pmi i⟩,
      ⟨8, 2, ctr2.ringLevel i⟩, ⟨10, 1, ctr2.anyThread i⟩, ⟨11, 1, ctr2.pmi i⟩]

/-- The read of operation `k` is refused. -/
def ctrlReadRefused (e : MsrEnv) (msr1 msr2 : Nat) (m : Machine) (k : Nat) : Bool :=
  let (cpu, msr) := ctrlRegister e.topo msr1 msr2 k
  e.driver.fails (m.log.length + k) ⟨.read, cpu, msr⟩

/-- The write of operation `k` is refused.  The writes come after the reads of all. -/
def ctrlWriteRefused (e : MsrEnv) (msr1 msr2 : Nat) (m : Machine) (k : Nat) : Bool :=
  let (cpu, msr) := ctrlRegister e.topo msr1 msr2 k
  e.driver.fails (m.log.length + 2 * e.topo.nthreads + k) ⟨.write, cpu, msr⟩

/-- Operation `k` has the last word on its register: its write is let through, and that of
a later operation on the same register is not. -/
def HasLastWord (e : MsrEnv) (msr1 msr2 : Nat) (m : Machine) (k : Nat) : Prop :=
  k < 2 * e.topo.nthreads ∧ ctrlWriteRefused e msr1 msr2 m k = false ∧
    ∀ j > k, j < 2 * e.topo.nthreads →
      ctrlRegister e.topo msr1 msr2 j = ctrlRegister e.topo msr1 msr2 k →
      ctrlWriteRefused e msr1 msr2 m j = true

/-- What earlier calls have left in the batch for operation `k`: 0 if there were none. -/
def CtrlState.leftOver (st : CtrlState) (k : Nat) : BitVec 64 :=
  ((st.ops.bind (·[k]?)).map (·.msrdata)).getD 0

/-- What operation `k` finds: its register, or what was left over if its read is refused. -/
def CtrlState.found (e : MsrEnv) (msr1 msr2 : Nat) (st : CtrlState) (k : Nat) : BitVec 64 :=
  let (cpu, msr) := ctrlRegister e.topo msr1 msr2 k
  if ctrlReadRefused e msr1 msr2 st.machine k then st.leftOver k else st.machine.msr cpu msr

/-- What makes it harmless: its reads are let through, or each register that is written
holds the values of the counters already, and in its other bits what was found. -/
def CtrlHarmless (e : MsrEnv) (ctr0 ctr1 ctr2 : FixedCounter) (msr1 msr2 : Nat)
    (st : CtrlState) : Prop :=
  ¬ CtrlReadRefused e msr1 msr2 st.machine ∨
    ∀ k, HasLastWord e msr1 msr2 st.machine k →
      let (cpu, msr) := ctrlRegister e.topo msr1 msr2 k
      HoldsFields (ctrlFields e.topo ctr0 ctr1 ctr2 k) (st.found e msr1 msr2 k)
        (st.machine.msr cpu msr)

/-- **One cap, exactly.**  It fails safe on a socket of the node just where it is
harmless. -/
theorem capFailsSafe_iff {e : MsrEnv} {socket msrRaplUnit : Nat} (hs : socket < e.topo.nsockets)
    (hmsr : msrRaplUnit < 2 ^ 32) (watts : BitVec 32) (msrPowerLimit : Nat) (st : PowerState) :
    CapFailsSafe e socket watts msrPowerLimit msrRaplUnit st ↔
      CapHarmless e socket watts msrPowerLimit msrRaplUnit st := by
  obtain ⟨ru, data, hused, hcall⟩ := capPackagePowerLimit_cases hs hmsr watts msrPowerLimit st
  unfold CapFailsSafe CapHarmless
  rw [hcall, ← hused socket hs]
  cases hread : ReadRefused e msrPowerLimit st socket with
  | false => exact iff_of_true (fun h => absurd h Bool.false_ne_true) (.inl rfl)
  | true =>
      have hval : currentval e msrPowerLimit st socket = 0 := if_pos hread
      rw [hval, or_iff_right (by decide), if_pos rfl]
      simp only [forall_const]
      by_cases henc : Encodable (ru socket) watts
      · rw [or_iff_right (not_not.mpr henc)]
        simp only [if_pos henc]
        have hlen : (st.machine.log ++ (⟨.read, socketIndex e.topo socket, msrPowerLimit⟩ ::
            fillAccesses e msrRaplUnit st)).length
              = st.machine.log.length + 1 + (fillAccesses e msrRaplUnit st).length := by
          rw [List.length_append, List.length_cons]
          omega
        cases hwrite : e.driver.fails
            (st.machine.log.length + 1 + (fillAccesses e msrRaplUnit st).length)
            ⟨.write, socketIndex e.topo socket, msrPowerLimit⟩ with
        | true =>
            -- the write is refused as well
            rw [Machine.pwrite_of_fail _ _ _ _ _ (hlen ▸ hwrite)]
            have hret : VariorumError.msrRead.code + VariorumError.msrWrite.code ≠ 0 := by decide
            exact iff_of_true ⟨rfl, hret⟩ (.inl rfl)
        | false =>
            rw [Machine.pwrite_of_ok _ _ _ _ _ (hlen ▸ hwrite), or_iff_right Bool.false_ne_true]
            have hret : VariorumError.msrRead.code + 0 ≠ 0 := by decide
            exact (and_iff_left hret).trans (Machine.store_eq_iff _ _ _ _)
      · have hret : (-1 : Int) ≠ 0 := by decide
        simp only [if_neg henc]
        exact iff_of_true ⟨trivial, hret⟩ (.inl henc)

section Harmless

variable {e : MsrEnv} {t : Topology} {ctr0 ctr1 ctr2 : FixedCounter} {msr1 msr2 : Nat}
variable {ops : List MsrBatchOp} {st : CtrlState}

/-- The assignments put in the fields, one after the other. -/
theorem ctrlBits_eq_putFields (t : Topology) (ctr0 ctr1 ctr2 : FixedCounter) (k : Nat)
    (x : BitVec 64) :
    ctrlBits t ctr0 ctr1 ctr2 k x = putFields (ctrlFields t ctr0 ctr1 ctr2 k) x := by
  unfold ctrlBits ctrlFields
  split <;> rfl

/-- The fields of a register stand in order. -/
theorem ctrlFields_ordered (t : Topology) (ctr0 ctr1 ctr2 : FixedCounter) (k : Nat) :
    (ctrlFields t ctr0 ctr1 ctr2 k).Pairwise fun f g => f.low + f.width ≤ g.low := by
  unfold ctrlFields
  split <;> simp

theorem IsCtrlBatch.length_eq (h : IsCtrlBatch t msr1 msr2 ops) :
    ops.length = 2 * t.nthreads := by
  have hlen := congrArg List.length h.register
  simp only [fixedCounterCtrlStorage, List.length_map, List.length_append,
    List.length_range] at hlen
  omega

/-- The operations of the batch go to its registers by their position. -/
theorem IsCtrlBatch.register_getElem (h : IsCtrlBatch t msr1 msr2 ops) {k : Nat}
    {op : MsrBatchOp} (hop : ops[k]? = some op) : op.register = ctrlRegister t msr1 msr2 k := by
  have hk := (List.getElem?_eq_some_iff.mp hop).1
  rw [h.length_eq] at hk
  have hreg := congrArg (·[k]?) h.register
  simp only [List.getElem?_map, hop, Option.map_some, fixedCounterCtrlStorage] at hreg
  unfold ctrlRegister
  by_cases hlt : k < t.nthreads
  · rw [List.getElem?_append_left (by simpa using hlt), List.getElem?_map,
      List.getElem?_range hlt] at hreg
    rw [if_pos hlt]
    exact Option.some.inj hreg
  · rw [List.getElem?_append_right (by simpa using hlt), List.length_map, List.length_range,
      List.getElem?_map, List.getElem?_range (by omega)] at hreg
    rw [if_neg hlt]
    exact Option.some.inj hreg

/-- The data that an operation of the call starts from. -/
theorem CtrlState.leftOver_eq {k : Nat} {op : MsrBatchOp}
    (hop : (st.ops.getD (fixedCounterCtrlStorage t msr1 msr2))[k]? = some op) :
    op.msrdata = st.leftOver k := by
  unfold leftOver
  cases hops : st.ops with
  | some ops =>
      rw [hops, Option.getD_some] at hop
      rw [Option.bind_some, hop]
      rfl
  | none =>
      rw [hops, Option.getD_none] at hop
      have hmem := List.mem_of_getElem? hop
      rcases List.mem_append.mp hmem with h | h <;> obtain ⟨i, -, rfl⟩ := List.mem_map.mp h <;> rfl

/-- The store of operation `k`. -/
theorem ctrlStores_getElem (hst : st.Valid e.topo msr1 msr2) {k : Nat}
    {store : (Nat × Nat) × BitVec 64} :
    (ctrlStores e ctr0 ctr1 ctr2 (st.ops.getD (fixedCounterCtrlStorage e.topo msr1 msr2))
        st.machine)[k]? = some store ↔
      k < 2 * e.topo.nthreads ∧ store = (ctrlRegister e.topo msr1 msr2 k,
        ctrlBits e.topo ctr0 ctr1 ctr2 k (st.found e msr1 msr2 k)) := by
  have hlen := hst.batch.length_eq
  rw [ctrlStores, List.getElem?_zip_eq_some, List.getElem?_map, image, List.getElem?_mapIdx,
    List.getElem?_mapIdx]
  cases hop : (st.ops.getD (fixedCounterCtrlStorage e.topo msr1 msr2))[k]? with
  | none =>
      have hge := List.getElem?_eq_none_iff.mp hop
      exact iff_of_false (by rintro ⟨hfst, -⟩; cases hfst) (by omega)
  | some op =>
      have hk := (List.getElem?_eq_some_iff.mp hop).1
      have hreg := hst.batch.register_getElem hop
      have hfound : (if e.driver.fails (st.machine.log.length + k) op.readAccess then op.msrdata
          else st.machine.msr op.cpu.toNat op.msr.toNat) = st.found e msr1 msr2 k := by
        rw [CtrlState.leftOver_eq hop]
        unfold CtrlState.found ctrlReadRefused
        rw [← hreg]
        rfl
      rw [and_iff_right (hlen ▸ hk : k < 2 * e.topo.nthreads), ← hreg, ← hfound]
      constructor
      · rintro ⟨hfst, hsnd⟩
        exact Prod.ext (Option.some.inj hfst).symm (Option.some.inj hsnd).symm
      · rintro rfl
        exact ⟨rfl, rfl⟩

/-- The last store let through to a register is that of the operation that has the last
word on it. -/
theorem lastThrough_ctrlStores_iff (hst : st.Valid e.topo msr1 msr2) {k : Nat}
    {store : (Nat × Nat) × BitVec 64} :
    LastThrough (fun n store => e.driver.fails n ⟨.write, store.1.1, store.1.2⟩) Prod.fst
        (st.machine.log.length + 2 * e.topo.nthreads)
        (ctrlStores e ctr0 ctr1 ctr2 (st.ops.getD (fixedCounterCtrlStorage e.topo msr1 msr2))
          st.machine) k store ↔
      HasLastWord e msr1 msr2 st.machine k ∧ store = (ctrlRegister e.topo msr1 msr2 k,
        ctrlBits e.topo ctr0 ctr1 ctr2 k (st.found e msr1 msr2 k)) := by
  constructor
  · rintro ⟨hentry, hthrough, hlater⟩
    obtain ⟨hk, rfl⟩ := (ctrlStores_getElem hst).mp hentry
    refine ⟨⟨hk, hthrough, fun j hj hlt hreg => ?_⟩, rfl⟩
    exact hlater j hj _ ((ctrlStores_getElem hst).mpr ⟨hlt, rfl⟩) hreg
  · rintro ⟨⟨hk, hthrough, hlater⟩, rfl⟩
    refine ⟨(ctrlStores_getElem hst).mpr ⟨hk, rfl⟩, hthrough, fun j hj store' hstore hreg => ?_⟩
    obtain ⟨hlt, rfl⟩ := (ctrlStores_getElem hst).mp hstore
    exact hlater j hj hlt hreg

/-- **One setting of the counters, exactly.**  A register keeps its value if the last store
let through to it is that value, and a store is that value if the register holds the
fields it puts in. -/
theorem ctrlFailsSafe_iff (hst : st.Valid e.topo msr1 msr2) (ctr0 ctr1 ctr2 : FixedCounter) :
    CtrlFailsSafe e ctr0 ctr1 ctr2 msr1 msr2 st ↔ CtrlHarmless e ctr0 ctr1 ctr2 msr1 msr2 st := by
  obtain ⟨-, -, hmsr⟩ := setFixedCounterCtrl_spec hst ctr0 ctr1 ctr2
  have hlen : (st.machine.log ++ (st.ops.getD
      (fixedCounterCtrlStorage e.topo msr1 msr2)).map (·.readAccess)).length
        = st.machine.log.length + 2 * e.topo.nthreads := by
    rw [List.length_append, List.length_map, hst.batch.length_eq]
  unfold CtrlFailsSafe CtrlHarmless
  rw [hmsr, imp_iff_not_or]
  apply or_congr_right
  refine (afterStores_eq_iff e.driver _ _).trans ?_
  simp only [written, hlen, lastFor_survivors_iff, lastThrough_ctrlStores_iff hst,
    ← putFields_eq_iff (ctrlFields_ordered _ _ _ _ _), ← ctrlBits_eq_putFields]
  constructor
  · intro h k hk
    exact h _ _ _ ⟨rfl, k, hk, rfl⟩
  · rintro h cpu msr store ⟨hreg, k, hk, rfl⟩
    obtain ⟨rfl, rfl⟩ := Prod.mk.inj hreg
    exact h k hk

end Harmless

/-- **Failing safe, exactly.**  A cap of the package power, and a setting of the fixed
counters in any state that earlier calls have left, leaves all registers alone after a
refused read exactly when it is harmless: when nothing is written then, or what is
written is in the registers already.  Both conditions are on the refused accesses, the
registers before the call and what was left in the batch. -/
theorem failSafe_iff (e : MsrEnv) :
    (∀ (socket : Fin e.topo.nsockets) (watts : BitVec 32) (msrPowerLimit : Nat)
        (msrRaplUnit : BitVec 32) (st : PowerState),
      CapFailsSafe e socket watts msrPowerLimit msrRaplUnit.toNat st ↔
        CapHarmless e socket watts msrPowerLimit msrRaplUnit.toNat st) ∧
    ∀ (ctr0 ctr1 ctr2 : FixedCounter) (msr1 msr2 : Nat)
        (st : { st : CtrlState // st.Valid e.topo msr1 msr2 }),
      CtrlFailsSafe e ctr0 ctr1 ctr2 msr1 msr2 st ↔
        CtrlHarmless e ctr0 ctr1 ctr2 msr1 msr2 st := by
  constructor
  · intro socket watts msrPowerLimit msrRaplUnit st
    exact capFailsSafe_iff socket.isLt msrRaplUnit.isLt watts msrPowerLimit st
  · intro ctr0 ctr1 ctr2 msr1 msr2 st
    exact ctrlFailsSafe_iff st.property ctr0 ctr1 ctr2

/-- Every register of every CPU has its second limit set, and nothing else. -/
def secondLimitState : PowerState where
  machine := ⟨fun _ _ => 0x100000000, []⟩
  unitData _ := 0
  ru := some fun _ => 0
  tooLarge := []

/-- The read of a cap of 1 watt is refused: the call returns the error of the read, and
the register has lost its second limit. -/
theorem capPackagePowerLimit_wipes :
    let e : MsrEnv := ⟨twoSockets, ⟨fun n _ => n == 0⟩, false⟩
    let r := capPackagePowerLimit e 0 1 0x610 0x606 secondLimitState
    r.1 = -4 ∧ r.2.machine.msr 0 0x610 = capReg 0 0 1 ∧
      maskVal (r.2.machine.msr 0 0x610) 63 32 = 0 ∧
      ¬ CapFailsSafe e 0 1 0x610 0x606 secondLimitState := by
  intro e r
  have hs : 0 < e.topo.nsockets := by decide
  have hr : r = (-4, { secondLimitState with
      machine := ⟨secondLimitState.machine.store 0 0x610 (capReg 0 0 1),
        [⟨.read, 0, 0x610⟩, ⟨.write, 0, 0x610⟩]⟩ }) := by
    show capPackagePowerLimit e 0 1 0x610 0x606 secondLimitState = _
    have hindex : socketIndex e.topo 0 = 0 := by decide
    have hread : ReadRefused e 0x610 secondLimitState 0 = true := rfl
    have hval : currentval e 0x610 secondLimitState 0 = 0 := if_pos hread
    rw [capPackagePowerLimit_cached hs (show _ = some _ from rfl)]
    simp only [if_pos (show Encodable 0 1 by decide), hindex, hread, hval]
    rfl
  have hupper : maskVal (capReg 0 0 1) 63 32 = 0 := by
    rw [capReg_upper (by decide) 0 (by decide) (by decide) (by decide)]
    decide
  have hreg : r.2.machine.msr 0 0x610 = capReg 0 0 1 := by
    rw [hr]
    exact Machine.store_self secondLimitState.machine 0 0x610 _
  refine ⟨by rw [hr], hreg, by rw [hreg, hupper], fun h => ?_⟩
  have hkept := congrFun (congrFun (h rfl).1 0) 0x610
  have hbit := congrArg (maskVal · 63 32) (hreg.symm.trans hkept)
  rw [show maskVal (capReg 0 0 1) 63 32 = 0 from hupper] at hbit
  exact absurd hbit (by decide)

end Variorum
