/-
Variorum/AmdEnergy.lean

The core energies of AMD from batches of register reads: `print_energy_data`.

The first call makes a batch of reads of the energy counters and keeps the table of
pointers into it.  Every call makes a batch of one read for the unit, in an array of
one operation, with a table of one pointer, and looks at entry 1 of that table.

A table of pointers has a size here, and an index that is not below it has no model,
nor has a pointer that no load has set.  So no call that could open the batch device
has a model, whatever the topology (`printEnergyData_stuck`); the one table that does
fit, on nodes without SMT, is that of the counters (`createRaplDataBatch_isSome_iff`).
-/
import Variorum.KeptBatch
import Variorum.Rapl

namespace Variorum

namespace AmdEnergy

/-! ### The functions -/

def RAPL_DATA : Nat := 0
def RAPL_UNIT : Nat := 1

/-- An array of pointers from `malloc` or `calloc`. -/
structure PointerTable where
  size : Nat
  entry : DestTable

/-- `val[i]`, which has no value behind the end of the table or where no load has set
it. -/
def PointerTable.get (val : PointerTable) (i : Nat) : Option Dest :=
  if i < val.size then val.entry i else none

/-- A load that sets the entries of such an array. -/
def PointerTable.load (t : Topology) (batchnum : Nat) (load : BatchLoad) (val : PointerTable)
    (s : BatchStorage) : Option (PointerTable × BatchStorage) :=
  if ∀ p ∈ load.pairs t, p.2 < val.size then
    (loadLoop load.msr batchnum (load.pairs t) val.entry s).map fun (entry, s) =>
      ({ val with entry := entry }, s)
  else none

/-- A store to an entry of an array. -/
def setAt {α : Type*} (l : List α) (i : Nat) (x : α) : Option (List α) :=
  if i < l.length then some (l.set i x) else none

/-- `struct rapl_data`. -/
structure RaplData where
  coreBits : PointerTable
  coreJoules : List ℚ

/-- `struct rapl_units` of AMD; what `malloc` returns has no values yet. -/
structure EnergyUnits where
  msrRaplPowerUnit : Option (BitVec 64)
  joules : Option ℚ

/-- `create_rapl_data_batch`: a read of the energy counter for each thread, and a table
of as many pointers as there are cores. -/
def createRaplDataBatch (t : Topology) (msrCoreEnergyStatus : BitVec 32) (s : BatchStorage) :
    Option (RaplData × BatchStorage) := do
  let (_, s) ← allocateBatch s RAPL_DATA (2 * t.ncores)
  let coreBits : PointerTable := ⟨t.ncores, fun _ => none⟩
  let coreJoules := List.replicate t.ncores (0 : ℚ)
  let (coreBits, s) ← coreBits.load t RAPL_DATA (.thread msrCoreEnergyStatus) s
  return (⟨coreBits, coreJoules⟩, s)

/-- The batches and registers, and `rapl` of `rapl_storage`, which `read_rapl_data` and
`print_energy_data` get on their first call. -/
structure EnergyState where
  msr : MsrState
  rapl : Option RaplData

def EnergyState.start (m : Machine) : EnergyState := ⟨.start m, none⟩

/-- `read_rapl_data`: the batch is made in the first call, and read in every one. -/
def readRaplData (e : MsrEnv) (msrCoreEnergyStatus : BitVec 32) (st : EnergyState) :
    Option (RaplData × EnergyState) := do
  let (rapl, s) ←
    match st.rapl with
    | some rapl => some (rapl, st.msr.store)
    | none =>
        (createRaplDataBatch e.topo msrCoreEnergyStatus st.msr.store).bind fun (rapl, s) =>
          ((List.range e.topo.ncores).foldlM (fun l i => setAt l i 0) rapl.coreJoules).map
            fun coreJoules => ({ rapl with coreJoules := coreJoules }, s)
  let (_, msr) ← readBatch e RAPL_DATA { st.msr with store := s }
  return (rapl, ⟨msr, some rapl⟩)

/-- `get_rapl_unit`: a batch of a single read, of which the second entry is used. -/
def getRaplUnit (e : MsrEnv) (msrRaplUnit : BitVec 32) (st : MsrState) : Option (ℚ × MsrState) := do
  let ru : List EnergyUnits := [⟨none, none⟩]
  let val : PointerTable := ⟨1, fun _ => none⟩
  let (_, s) ← allocateBatch st.store RAPL_UNIT 1
  let (val, s) ← val.load e.topo RAPL_UNIT (.socket msrRaplUnit) s
  let (_, st) ← readBatch e RAPL_UNIT { st with store := s }
  -- `ru[1].msr_rapl_power_unit = *val[1]`
  let raw ← (val.get 1).bind (deref st.store RAPL_UNIT)
  let joules : ℚ := shiftOne (maskVal raw 12 8).toNat
  let _ ← setAt ru 1 ⟨some raw, some joules⟩
  return (1 / joules, st)

/-- A printed line: a core and its energy. -/
structure EnergyRow where
  core : Nat
  energy : ℚ

/-- `(*rapl->core_bits[i]) * val`: the energy of a core, if its pointer is one. -/
def energyRow (rapl : RaplData) (st : MsrState) (val : ℚ) (i : Nat) : Option EnergyRow := do
  let raw ← (rapl.coreBits.get i).bind (deref st.store RAPL_DATA)
  return ⟨i, raw.toNat * val⟩

/-- `print_energy_data`, with what `open` returns for `MSR_BATCH_PATH`. -/
def printEnergyData (e : MsrEnv) (batchfd : Int) (msrRaplUnit msrCoreEnergyStatus : BitVec 32)
    (st : EnergyState) : Option (Int × List EnergyRow × EnergyState) :=
  if batchfd < 0 then some (batchfd, [], st)
  else do
    let (rapl, st) ← readRaplData e msrCoreEnergyStatus st
    let (val, msr) ← getRaplUnit e msrRaplUnit st.msr
    let rows ← (List.range e.topo.ncores).mapM (energyRow rapl msr val)
    return (0, rows, { st with msr := msr })

/-! ### What is asked of it -/

/-- A call: the result of its `open`, and the registers it is given. -/
structure EnergyCall where
  batchfd : Int
  msrRaplUnit : BitVec 32
  msrCoreEnergyStatus : BitVec 32

def EnergyCall.step (e : MsrEnv) (st : EnergyState) (c : EnergyCall) : Option EnergyState :=
  (printEnergyData e c.batchfd c.msrRaplUnit c.msrCoreEnergyStatus st).map fun (_, _, st) => st

/-- Every batch has room for its operations. -/
def Roomy (st : EnergyState) : Prop :=
  ∀ b, (st.msr.store.slot b).numops ≤ (st.msr.store.slot b).capacity

/-- The call uses no index beyond an array and no pointer that has not been set, and leaves
no batch with more operations than its array has. -/
def IndexSafe (e : MsrEnv) (st : EnergyState) (c : EnergyCall) : Prop :=
  ∃ st', c.step e st = some st' ∧ Roomy st'

/-! ### The tables -/

section Tables

variable {e : MsrEnv} {t : Topology} {s : BatchStorage} {st : EnergyState} {m : MsrState}

/-- A load uses the indices up to the number of its operations. -/
theorem load_fits_iff (t : Topology) (load : BatchLoad) (size : Nat) :
    (∀ p ∈ load.pairs t, p.2 < size) ↔ load.count t ≤ size := by
  rw [load.pairs_eq]
  constructor
  · intro h
    have hlast := h (load.dev t (load.count t - 1), load.count t - 1)
      (List.mem_map.mpr ⟨_, List.mem_range.mpr (Nat.sub_lt (load.count_pos t) Nat.one_pos), rfl⟩)
    exact Nat.le_of_pred_lt hlast
  · intro h p hp
    obtain ⟨i, hi, rfl⟩ := List.mem_map.mp hp
    exact (List.mem_range.mp hi).trans_le h

/-- **The counters of the cores**: as many pointers as cores, and as many operations as
hardware threads.  The first call gets through on nodes without SMT, as long as twice the
cores can be counted. -/
theorem createRaplDataBatch_isSome_iff (msr : BitVec 32) (hs : s.slot RAPL_DATA = .empty) :
    (createRaplDataBatch t msr s).isSome ↔ t.nthreads = t.ncores := by
  have hcores := t.ncores_le
  have hthreads := t.nthreads_lt
  have hbatch : RAPL_DATA + 1 < 2 ^ 31 := by decide
  obtain ⟨s₁, halloc, hslot⟩ := allocateBatch_of_lt (s := s) hbatch (2 * t.ncores)
  have hfits := load_fits_iff t (.thread msr) t.ncores
  have hcount : (BatchLoad.thread msr).count t = t.nthreads := rfl
  rw [createRaplDataBatch, halloc]
  simp only [Option.bind_eq_bind, Option.bind_some, PointerTable.load, hfits, hcount]
  by_cases hle : t.nthreads ≤ t.ncores
  · have hroom : 2 * t.ncores % 2 ^ 32 = 2 * t.ncores := Nat.mod_eq_of_lt (by omega)
    have hx : (s₁.slot RAPL_DATA).numops = 0 ∧ (s₁.slot RAPL_DATA).capacity = 2 * t.ncores ∧
        (s₁.slot RAPL_DATA).size = 2 * t.ncores := by
      rw [hslot, Function.update_self, hs, hroom]
      exact ⟨rfl, List.length_replicate, rfl⟩
    obtain ⟨hnumops, hcap, hsize⟩ := hx
    have hlen : (s₁.slot RAPL_DATA).numops + ((BatchLoad.thread msr).pairs t).length
        ≤ (s₁.slot RAPL_DATA).capacity := by
      rw [BatchLoad.pairs_length, hnumops, hcap, hcount]
      omega
    obtain ⟨dest, s₂, hload⟩ := loadLoop_of_le (BatchLoad.thread msr).msr (fun _ => none)
      (by decide) ⟨by omega, by omega⟩ hlen
    rw [if_pos hle, hload]
    exact iff_of_true rfl (Nat.le_antisymm hle hcores)
  · rw [if_neg hle]
    exact iff_of_false (by simp) (by omega)

/-- **The unit**: an array of one pointer has no entry 1. -/
theorem getRaplUnit_stuck (msr : BitVec 32) (m : MsrState) : getRaplUnit e msr m = none := by
  have hsize : ∀ {load : BatchLoad} {s s' : BatchStorage} {val : PointerTable},
      PointerTable.load e.topo RAPL_UNIT load ⟨1, fun _ => none⟩ s = some (val, s') →
        val.get 1 = none := by
    intro load s s' val h
    rw [PointerTable.load] at h
    split at h
    · obtain ⟨⟨entry, s₁⟩, -, heq⟩ := Option.map_eq_some_iff.mp h
      obtain ⟨rfl, -⟩ := Prod.mk.inj heq
      exact if_neg (Nat.lt_irrefl 1)
    · cases h
  rw [getRaplUnit]
  simp only [Option.bind_eq_bind, Option.bind_eq_none_iff]
  rintro ⟨_, s₁⟩ - ⟨val, s₂⟩ hload ⟨_, m'⟩ - raw hraw
  rw [hsize hload] at hraw
  cases hraw

/-- **A call that could open the batch device** has no model. -/
theorem printEnergyData_stuck {batchfd : Int} (h : 0 ≤ batchfd) (unit core : BitVec 32)
    (st : EnergyState) : printEnergyData e batchfd unit core st = none := by
  rw [printEnergyData, if_neg (Int.not_lt.mpr h)]
  simp only [Option.bind_eq_bind, Option.bind_eq_none_iff]
  rintro ⟨rapl, st'⟩ - r hr
  rw [getRaplUnit_stuck] at hr
  cases hr

end Tables

/-! ### Exactly when -/

section Runs

variable {e : MsrEnv} {st : EnergyState} {c : EnergyCall}

/-- A call that could not open it changes nothing. -/
theorem step_of_closed (h : c.batchfd < 0) (st : EnergyState) : c.step e st = some st := by
  rw [EnergyCall.step, printEnergyData, if_pos h]
  rfl

theorem Roomy.start (m : Machine) : Roomy (.start m) := fun _ => Nat.le_refl 0

theorem indexSafe_iff (hst : Roomy st) : IndexSafe e st c ↔ c.batchfd < 0 := by
  constructor
  · rintro ⟨st', hstep, -⟩
    by_contra hopen
    rw [EnergyCall.step, printEnergyData_stuck (Int.not_lt.mp hopen)] at hstep
    cases hstep
  · intro hclosed
    exact ⟨st, step_of_closed hclosed st, hst⟩

/-- **Runs of `print_energy_data`, exactly.**  All indices and pointers of a run are in
order exactly where no call of it can open the batch device.  A call that gets past its
open looks behind the one pointer that the table of the unit has. -/
theorem energySafe_iff (e : MsrEnv) (m : Machine) (calls : List EnergyCall) :
    Runs.Along (fun st c => EnergyCall.step e st c) (IndexSafe e) (.start m) calls ↔
      ∀ c ∈ calls, c.batchfd < 0 := by
  have key : ∀ st, Roomy st →
      (Runs.Along (fun st c => EnergyCall.step e st c) (IndexSafe e) st calls ↔
        ∀ c ∈ calls, c.batchfd < 0) := by
    intro st hst
    induction calls with
    | nil => exact iff_of_true trivial nofun
    | cons c calls ih =>
        rw [List.forall_mem_cons, Runs.Along, indexSafe_iff hst]
        refine and_congr_right fun hclosed => ?_
        -- the call leaves everything as it was
        rw [← ih]
        constructor
        · exact fun hrest => hrest st (step_of_closed hclosed st)
        · intro hrest st' hst'
          obtain rfl := Option.some.inj ((step_of_closed hclosed st).symm.trans hst')
          exact hrest
  exact key (.start m) (.start m)

/-- One call on the node of two sockets. -/
theorem not_energySafe_two :
    ¬ Runs.Along (fun st c => EnergyCall.step twoSocketEnv st c) (IndexSafe twoSocketEnv)
      (.start ⟨fun _ _ => 0, []⟩) [⟨3, 0xC0010299, 0xC001029A⟩] := by
  rintro ⟨⟨st', hstep, -⟩, -⟩
  rw [EnergyCall.step, printEnergyData_stuck (by decide)] at hstep
  cases hstep

end Runs

end AmdEnergy

end Variorum
