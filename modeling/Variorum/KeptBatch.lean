/-
Variorum/KeptBatch.lean

Batches that functions keep in static variables: what their pointer tables point
to, and what storing through them, writing and reading do.

A function that keeps a batch allocates and loads it on its first call
(`initBatch`) and from then on looks through its tables at the operations
(`FeatureState.peek`) or stores to them (`FeatureState.poke`).  `Holds` describes
such a batch: the operations stand in the order of the loads, and entry `i` of
the `n`-th table is the address of the `i`-th operation of the `n`-th load.

* `initBatch_holds`, `initBatch_of_gt` — loading, with room and without;
* `Holds.peek`, `Holds.poke`, `Holds.read`, `Holds.write` — no step leaves the
  batch, and each says what the operations are afterwards (`Loaded.poke` and its
  like forget which they are);
* `SameBut` — each step leaves the other batches alone, defined or not.
-/
import Variorum.BatchLoad
import Variorum.Runs

namespace Variorum

open History

/-! ### Batches in static variables -/

/-- What the process keeps: batches and registers, and for each batch number the
tables of pointers in the static variables of the function that loads it. -/
structure FeatureState where
  msr : MsrState
  tables : Nat → Option (List DestTable)

/-- The state at the start of a process: nothing loaded yet. -/
def FeatureState.start : FeatureState := ⟨⟨.start, ⟨fun _ _ => 0, []⟩, []⟩, fun _ => none⟩

/-- The `if (!init)` block of a function that keeps a batch: allocation, and one
load for each of its tables. -/
def initBatch (t : Topology) (batchnum bsize : Nat) (loads : List BatchLoad)
    (st : FeatureState) : Option FeatureState :=
  match st.tables batchnum with
  | some _ => some st
  | none =>
      (allocateBatch st.msr.store batchnum bsize).bind fun (_, s) =>
        (loadAll t batchnum (loads.map fun load => (load, fun _ => none)) s).map fun (vals, s) =>
          { msr := { st.msr with store := s }
            tables := Function.update st.tables batchnum (some vals) }

/-- `read_batch` of a kept batch. -/
def FeatureState.read (e : MsrEnv) (batchnum : Nat) (st : FeatureState) :
    Option (Int × FeatureState) :=
  (readBatch e batchnum st.msr).map fun (err, msr) => (err, { st with msr := msr })

/-- `write_batch` of a kept batch. -/
def FeatureState.write (e : MsrEnv) (batchnum : Nat) (st : FeatureState) :
    Option (Int × FeatureState) :=
  (writeBatch e batchnum st.msr).map fun (err, msr) => (err, { st with msr := msr })

/-- `*val[i]` for the `n`-th table of a batch. -/
def FeatureState.peek (st : FeatureState) (batchnum n : Nat) (i : Int) : Option (BitVec 64) := do
  let vals ← st.tables batchnum
  let val ← vals[n]?
  -- below the array there is nothing to read
  let ptr ← if 0 ≤ i then val i.toNat else none
  deref st.msr.store batchnum ptr

/-- The operation with other data. -/
def MsrBatchOp.withData (op : MsrBatchOp) (val : BitVec 64) : MsrBatchOp :=
  { op with msrdata := val }

/-- A store through a pointer into the batch. -/
def assign (s : BatchStorage) (batchnum : Nat) (ptr : Dest) (val : BitVec 64) :
    Option BatchStorage :=
  let x := s.slot batchnum
  x.ops.bind fun a =>
    if a.addr = ptr.1 ∧ ptr.2 < a.cells.length then
      some (s.setSlot batchnum
        { x with ops := some { a with cells := a.cells.modify ptr.2 (·.withData val) } })
    else none

/-- `*val[i] = ...` for the `n`-th table of a batch. -/
def FeatureState.poke (st : FeatureState) (batchnum n i : Nat) (val : BitVec 64) :
    Option FeatureState := do
  let vals ← st.tables batchnum
  let tbl ← vals[n]?
  let ptr ← tbl i
  let s ← assign st.msr.store batchnum ptr val
  return { st with msr := { st.msr with store := s } }

/-- The state with the registers as the hardware has them at a call. -/
def FeatureState.found (st : FeatureState) (contents : Nat → Nat → BitVec 64) : FeatureState :=
  { st with msr := { st.msr with machine := { st.msr.machine with msr := contents } } }

/-- A batch with its tables: untouched, or loaded with `loads`, each table
pointing to the operations of its own. -/
def BatchReady (t : Topology) (x : MsrBatch) (loads : List BatchLoad) :
    Option (List DestTable) → Prop
  | none => x = .empty
  | some vals => ∃ addr ops room, x = .loaded addr ops room ∧ ops ≠ [] ∧ Uniform t ops ∧
      vals.length = loads.length ∧ ∀ p ∈ loads.zip vals, PointsTo t addr ops p.1 p.2

/-- The operations of the loads of a fresh batch. -/
theorem loadCount_fresh (t : Topology) (loads : List BatchLoad) :
    loadCount t (loads.map fun load => (load, fun _ => none))
      = (loads.map fun load => load.count t).sum := by
  rw [loadCount, List.map_map]
  rfl

section Peek

variable {b : Nat}

/-- What a table entry of a loaded batch points to. -/
theorem FeatureState.peek_eq (st : FeatureState) {vals : List DestTable}
    (hvals : st.tables b = some vals) {n : Nat} {val : DestTable} (hval : vals[n]? = some val)
    (i : Nat) :
    st.peek b n i = (val i).bind (deref st.msr.store b) := by
  simp [peek, hvals, hval]

end Peek

/-! ### Loops that print -/

section Lists

variable {α β : Type*} {f : α → Option β} {g : α → β} {l : List α}

theorem mapM_isSome (h : ∀ x ∈ l, (f x).isSome) :
    ∃ ys, l.mapM f = some ys ∧ ys.length = l.length := by
  induction l with
  | nil => exact ⟨[], rfl, rfl⟩
  | cons x rest ih =>
      obtain ⟨hx, hrest⟩ := List.forall_mem_cons.mp h
      obtain ⟨y, hy⟩ := Option.isSome_iff_exists.mp hx
      obtain ⟨ys, hys, hlen⟩ := ih hrest
      exact ⟨y :: ys, by simp [hy, hys], congrArg (· + 1) hlen⟩

theorem mapM_eq_map (h : ∀ x ∈ l, f x = some (g x)) : l.mapM f = some (l.map g) := by
  induction l with
  | nil => rfl
  | cons x rest ih =>
      obtain ⟨hx, hrest⟩ := List.forall_mem_cons.mp h
      simp [hx, ih hrest]

end Lists

/-! ### The layout of a kept batch -/

/-- The batch has neither been allocated nor has it tables. -/
def FeatureState.Unused (b : Nat) (st : FeatureState) : Prop :=
  st.msr.store.slot b = .empty ∧ st.tables b = none

/-- The position of the first operation of the `n`-th load. -/
def loadStart (t : Topology) (loads : List BatchLoad) (n : Nat) : Nat :=
  ((loads.take n).map fun load => load.count t).sum

/-- The registers that the operations of loads name, in order. -/
def loadRegisters (t : Topology) (loads : List BatchLoad) : List (Nat × Nat) :=
  loads.flatMap fun load =>
    (List.range (load.count t)).map fun i => (load.dev t i % 2 ^ 16, load.msr)

/-- There is a table for each load, and entry `i` of the `n`-th is the address of the
`i`-th operation of the `n`-th load. -/
structure Laid (t : Topology) (addr start : Nat) (loads : List BatchLoad) (vals : List DestTable) :
    Prop where
  length : vals.length = loads.length
  points : ∀ n load, loads[n]? = some load → ∃ val, vals[n]? = some val ∧
    ∀ i < load.count t, val i = some (addr, start + loadStart t loads n + i)

/-- Batch `b` is loaded with `loads`, and its operations are `ops`. -/
structure FeatureState.Holds (t : Topology) (b : Nat) (loads : List BatchLoad)
    (ops : List MsrBatchOp) (st : FeatureState) : Prop where
  place : ∃ addr room vals, st.msr.store.slot b = .loaded addr ops room ∧
    st.tables b = some vals ∧ Laid t addr 0 loads vals
  uniform : Uniform t ops
  register : ops.map (·.register) = loadRegisters t loads

/-- Batch `b` is loaded with `loads`. -/
def FeatureState.Loaded (t : Topology) (b : Nat) (loads : List BatchLoad) (st : FeatureState) :
    Prop :=
  ∃ ops, st.Holds t b loads ops

/-- From `st` to `st'` batch `b` has not changed. -/
structure FeatureState.SameAt (b : Nat) (st st' : FeatureState) : Prop where
  slot : st'.msr.store.slot b = st.msr.store.slot b
  tables : st'.tables b = st.tables b

/-- From `st` to `st'` no batch other than `b` has changed. -/
structure FeatureState.SameBut (b : Nat) (st st' : FeatureState) : Prop where
  slot : ∀ b' ≠ b, st'.msr.store.slot b' = st.msr.store.slot b'
  tables : ∀ b' ≠ b, st'.tables b' = st.tables b'

section Layout

variable {t : Topology} {loads : List BatchLoad} {load : BatchLoad} {n i : Nat}

theorem loadStart_succ (load : BatchLoad) (loads : List BatchLoad) (n : Nat) :
    loadStart t (load :: loads) (n + 1) = load.count t + loadStart t loads n := by
  rw [loadStart, List.take_succ_cons, List.map_cons, List.sum_cons]
  rfl

/-- The register of the `i`-th operation of the `n`-th load. -/
theorem loadRegisters_getElem? (hload : loads[n]? = some load) (hi : i < load.count t) :
    (loadRegisters t loads)[loadStart t loads n + i]? = some (load.dev t i % 2 ^ 16, load.msr) := by
  induction loads generalizing n with
  | nil => cases hload
  | cons l rest ih =>
      rw [loadRegisters, List.flatMap_cons]
      cases n with
      | zero =>
          obtain rfl := Option.some.inj hload
          have hstart : loadStart t (l :: rest) 0 + i = i := Nat.zero_add i
          rw [hstart, List.getElem?_append_left (by simpa using hi), List.getElem?_map,
            List.getElem?_range hi]
          rfl
      | succ n =>
          have hlen : ((List.range (l.count t)).map fun i => (l.dev t i % 2 ^ 16, l.msr)).length
              = l.count t := by
            rw [List.length_map, List.length_range]
          rw [loadStart_succ, Nat.add_assoc, List.getElem?_append_right (by omega), hlen,
            Nat.add_sub_cancel_left]
          exact ih hload

theorem mem_loadRegisters {r : Nat × Nat} :
    r ∈ loadRegisters t loads ↔
      ∃ load ∈ loads, ∃ i < load.count t, (load.dev t i % 2 ^ 16, load.msr) = r := by
  simp [loadRegisters]

/-- The operations of fresh loads name their registers. -/
theorem loadedOps_register (t : Topology) (loads : List BatchLoad) (dest : DestTable) :
    (loadedOps t (loads.map fun load => (load, dest))).map (·.register)
      = loadRegisters t loads := by
  rw [loadedOps, loadRegisters, List.flatMap_map, List.map_flatMap]
  congr 1
  funext load
  rw [load.pairs_eq t, List.map_map, List.map_map]
  apply List.map_congr_left
  intro i _
  exact load.fill_register _

/-- No data stands in them. -/
theorem loadedOps_msrdata {loads : List (BatchLoad × DestTable)} {op : MsrBatchOp}
    (h : op ∈ loadedOps t loads) : op.msrdata = 0 := by
  obtain ⟨l, -, hl⟩ := List.mem_flatMap.mp h
  obtain ⟨p, -, rfl⟩ := List.mem_map.mp hl
  rfl

end Layout

/-! ### Loading -/

section Loading

variable {t : Topology} {s : BatchStorage} {addr room b bsize : Nat} {st st' : FeatureState}
variable {ops : List MsrBatchOp} {loads : List BatchLoad}

/-- **Where loads point to**, by induction on the loads. -/
theorem loadAll_laid (hb : b + 1 < 2 ^ 31) (dest : DestTable)
    (hs : s.slot b = .loaded addr ops ((loads.map fun load => load.count t).sum + room)) :
    ∃ vals s', loadAll t b (loads.map fun load => (load, dest)) s = some (vals, s') ∧
      s'.slot b = .loaded addr (ops ++ loadedOps t (loads.map fun load => (load, dest))) room ∧
      Laid t addr ops.length loads vals := by
  -- by induction on the loads, the places of one behind those of the loads before it
  induction loads generalizing s ops with
  | nil =>
      refine ⟨[], s, rfl, ?_, rfl, nofun⟩
      rw [hs]
      simp [loadedOps]
  | cons load rest ih =>
      have hcount : ((load :: rest).map fun load => load.count t).sum + room
          = (load.pairs t).length + ((rest.map fun load => load.count t).sum + room) := by
        rw [load.pairs_length]
        exact Nat.add_assoc _ _ _
      rw [hcount] at hs
      obtain ⟨val, s₁, hload, hslot, -, hdest⟩ :=
        loadLoop_loaded load.msr dest hb hs (load.pairs_nodup t)
      obtain ⟨vals, s', hrest, hslot', hlaid⟩ := ih hslot
      refine ⟨val :: vals, s', ?_, ?_, congrArg (· + 1) hlaid.length, ?_⟩
      · rw [List.map_cons, loadAll, load.run_eq, hload]
        simp only [Option.map_some, hrest]
      · rw [hslot', List.append_assoc]
        rfl
      · rintro (- | n) load' hload'
        · obtain rfl := Option.some.inj hload'
          refine ⟨val, rfl, fun i hi => ?_⟩
          exact hdest i _ (load.pairs_getElem? hi)
        · obtain ⟨val', hval', hpoints⟩ := hlaid.points n load' hload'
          refine ⟨val', hval', fun i hi => ?_⟩
          rw [hpoints i hi, loadStart_succ, List.length_append, List.length_map,
            load.pairs_length, Nat.add_assoc ops.length]

/-- Without room for all of them, one operation is stored outside the array. -/
theorem loadAll_of_gt (hb : b + 1 < 2 ^ 31) (dest : DestTable)
    (hs : s.slot b = .loaded addr ops room)
    (hroom : room < (loads.map fun load => load.count t).sum) :
    loadAll t b (loads.map fun load => (load, dest)) s = none := by
  induction loads generalizing s ops room with
  | nil => exact absurd hroom (Nat.not_lt_zero _)
  | cons load rest ih =>
      rw [List.map_cons, loadAll, load.run_eq]
      rcases Nat.lt_or_ge room (load.count t) with hlt | hge
      · have hwithin : (s.slot b).Within := by
          rw [hs]
          exact ⟨by simp [MsrBatch.loaded, MsrBatch.capacity],
            by simp [MsrBatch.loaded, MsrBatch.capacity]⟩
        have hfull : (s.slot b).capacity < (s.slot b).numops + (load.pairs t).length := by
          rw [hs, load.pairs_length]
          simpa [MsrBatch.loaded, MsrBatch.capacity] using hlt
        rw [loadLoop_of_gt hb hwithin hfull]
        rfl
      · obtain ⟨left, rfl⟩ := Nat.exists_eq_add_of_le hge
        rw [← load.pairs_length] at hs
        obtain ⟨val, s₁, hload, hslot, -, -⟩ :=
          loadLoop_loaded load.msr dest hb hs (load.pairs_nodup t)
        have hleft : left < (rest.map fun load => load.count t).sum := by
          rw [List.map_cons, List.sum_cons] at hroom
          omega
        rw [hload, Option.map_some]
        simp only [ih hslot hleft, Option.map_none]

/-- An allocation of an unused batch. -/
theorem allocateBatch_unused (hst : st.Unused b) (hb : b + 1 < 2 ^ 31) (bsize : Nat) :
    ∃ s₁, allocateBatch st.msr.store b bsize = some (0, s₁) ∧
      s₁.slot b = .loaded st.msr.store.brk [] (bsize % 2 ^ 32) ∧
      ∀ b' ≠ b, s₁.slot b' = st.msr.store.slot b' := by
  obtain ⟨s₁, hs₁, hslot⟩ := allocateBatch_of_lt (s := st.msr.store) hb bsize
  refine ⟨s₁, hs₁, ?_, fun b' hb' => ?_⟩
  · rw [hslot, Function.update_self, hst.1]
    simp [MsrBatch.loaded, MsrBatch.empty]
  · rw [hslot, Function.update_of_ne hb']

/-- **The `if (!init)` block of an unused batch**, with room for its loads. -/
theorem initBatch_holds (hst : st.Unused b) (hb : b + 1 < 2 ^ 31) (loads : List BatchLoad)
    (hroom : (loads.map fun load => load.count t).sum ≤ bsize % 2 ^ 32) :
    ∃ st', initBatch t b bsize loads st = some st' ∧
      st'.Holds t b loads (loadedOps t (loads.map fun load => (load, fun _ => none))) := by
  obtain ⟨s₁, hs₁, hslot₁, -⟩ := allocateBatch_unused hst hb bsize
  rw [← Nat.add_sub_cancel' hroom] at hslot₁
  obtain ⟨vals, s₂, hload, hslot₂, hlaid⟩ := loadAll_laid hb (fun _ => none) hslot₁
  have hrun : initBatch t b bsize loads st
      = some ⟨{ st.msr with store := s₂ }, Function.update st.tables b (some vals)⟩ := by
    rw [initBatch, hst.2]
    simp only [hs₁, Option.bind_some, hload, Option.map_some]
  refine ⟨_, hrun, ⟨_, _, vals, hslot₂, Function.update_self _ _ _, hlaid⟩,
    loadedOps_uniform t _, loadedOps_register t loads _⟩

/-- Without room, it leaves the array. -/
theorem initBatch_of_gt (hst : st.Unused b) (hb : b + 1 < 2 ^ 31)
    (hroom : bsize % 2 ^ 32 < (loads.map fun load => load.count t).sum) :
    initBatch t b bsize loads st = none := by
  obtain ⟨s₁, hs₁, hslot₁, -⟩ := allocateBatch_unused hst hb bsize
  rw [initBatch, hst.2]
  simp only [hs₁, Option.bind_some, loadAll_of_gt hb _ hslot₁ hroom, Option.map_none]

/-- Later calls find it done. -/
theorem FeatureState.Holds.init (h : st.Holds t b loads ops) (bsize : Nat)
    (loads' : List BatchLoad) : initBatch t b bsize loads' st = some st := by
  obtain ⟨-, -, vals, -, hvals, -⟩ := h.place
  rw [initBatch, hvals]

end Loading

/-! ### The other batches -/

section Frame

variable {e : MsrEnv} {t : Topology} {b b' bsize n i : Nat} {val : BitVec 64} {err : Int}
variable {st st' st'' : FeatureState} {loads loads' : List BatchLoad} {ops : List MsrBatchOp}

namespace FeatureState

theorem SameBut.refl (b : Nat) (st : FeatureState) : st.SameBut b st :=
  ⟨fun _ _ => rfl, fun _ _ => rfl⟩

theorem SameBut.trans (h : SameBut b st st') (h' : SameBut b st' st'') : SameBut b st st'' :=
  ⟨fun b' hb' => (h'.slot b' hb').trans (h.slot b' hb'),
    fun b' hb' => (h'.tables b' hb').trans (h.tables b' hb')⟩

theorem SameBut.sameAt (h : SameBut b' st st') (hne : b ≠ b') : SameAt b st st' :=
  ⟨h.slot b hne, h.tables b hne⟩

theorem SameAt.refl (b : Nat) (st : FeatureState) : st.SameAt b st := ⟨rfl, rfl⟩

theorem SameAt.trans (h : SameAt b st st') (h' : SameAt b st' st'') : SameAt b st st'' :=
  ⟨h'.slot.trans h.slot, h'.tables.trans h.tables⟩

/-- A batch that does not change stays loaded. -/
theorem Holds.of_sameAt (h : st.Holds t b loads ops) (hsame : SameAt b st st') :
    st'.Holds t b loads ops := by
  obtain ⟨⟨addr, room, vals, hslot, hvals, hlaid⟩, hu, hreg⟩ := h
  refine ⟨⟨addr, room, vals, ?_, ?_, hlaid⟩, hu, hreg⟩
  · rw [hsame.slot, hslot]
  · rw [hsame.tables, hvals]

theorem Holds.of_sameBut (h : st.Holds t b loads ops) (hsame : SameBut b' st st') (hne : b ≠ b') :
    st'.Holds t b loads ops :=
  h.of_sameAt (hsame.sameAt hne)

/-- A batch that is not touched stays unused. -/
theorem Unused.of_sameAt (h : st.Unused b) (hsame : SameAt b st st') : st'.Unused b :=
  ⟨hsame.slot.trans h.1, hsame.tables.trans h.2⟩

theorem Unused.of_sameBut (h : st.Unused b) (hsame : SameBut b' st st') (hne : b ≠ b') :
    st'.Unused b :=
  h.of_sameAt (hsame.sameAt hne)

end FeatureState

/-- What the `if (!init)` block touches. -/
theorem initBatch_sameBut (h : initBatch t b bsize loads st = some st') :
    st.SameBut b st' ∧ st'.msr.machine = st.msr.machine := by
  rw [initBatch] at h
  cases hvals : st.tables b with
  | some vals =>
      rw [hvals] at h
      obtain rfl := Option.some.inj h
      exact ⟨.refl b st, rfl⟩
  | none =>
      rw [hvals] at h
      obtain ⟨⟨err, s₁⟩, hs₁, hrest⟩ := Option.bind_eq_some_iff.mp h
      obtain ⟨⟨vals, s₂⟩, hload, rfl⟩ := Option.map_eq_some_iff.mp hrest
      refine ⟨⟨fun b' hb' => ?_, fun b' hb' => Function.update_of_ne hb' _ _⟩, rfl⟩
      obtain ⟨-, hslot⟩ := allocateBatch_slot hs₁
      show s₂.slot b' = st.msr.store.slot b'
      rw [loadAll_slot_of_ne hload hb', hslot, Function.update_of_ne hb']

theorem doBatchOp_sameBut {type : BatchType} {msr' : MsrState}
    (h : doBatchOp e type b st.msr = some (err, msr')) :
    st.SameBut b { st with msr := msr' } :=
  ⟨fun _ hb' => doBatchOp_slot_of_ne h hb', fun _ _ => rfl⟩

/-- What a batch read touches. -/
theorem FeatureState.read_sameBut (h : st.read e b = some (err, st')) : st.SameBut b st' := by
  obtain ⟨⟨err', msr'⟩, hread, heq⟩ := Option.map_eq_some_iff.mp h
  obtain ⟨-, rfl⟩ := Prod.mk.inj heq
  exact doBatchOp_sameBut hread

/-- What a batch write touches. -/
theorem FeatureState.write_sameBut (h : st.write e b = some (err, st')) : st.SameBut b st' := by
  obtain ⟨⟨err', msr'⟩, hwrite, heq⟩ := Option.map_eq_some_iff.mp h
  obtain ⟨-, rfl⟩ := Prod.mk.inj heq
  exact doBatchOp_sameBut hwrite

theorem BatchStorage.slot_setSlot_of_ne {s : BatchStorage} (x : MsrBatch) (hne : b' ≠ b) :
    (s.setSlot b x).slot b' = s.slot b' := by
  rcases s with ⟨- | l, brk⟩
  · rfl
  · show (l.set b x).getD b' .empty = l.getD b' .empty
    rw [List.getD_eq_getElem?_getD, List.getElem?_set_ne (Ne.symm hne),
      List.getD_eq_getElem?_getD]

/-- What a store through a table touches. -/
theorem FeatureState.poke_sameBut (h : st.poke b n i val = some st') :
    st.SameBut b st' ∧ st'.msr.machine = st.msr.machine := by
  obtain ⟨vals, -, h⟩ := Option.bind_eq_some_iff.mp h
  obtain ⟨tbl, -, h⟩ := Option.bind_eq_some_iff.mp h
  obtain ⟨ptr, -, h⟩ := Option.bind_eq_some_iff.mp h
  obtain ⟨s, hs, h⟩ := Option.bind_eq_some_iff.mp h
  obtain rfl := Option.some.inj h
  refine ⟨⟨fun b' hb' => ?_, fun _ _ => rfl⟩, rfl⟩
  obtain ⟨a, -, hstore⟩ := Option.bind_eq_some_iff.mp hs
  split at hstore
  · obtain rfl := Option.some.inj hstore
    exact BatchStorage.slot_setSlot_of_ne _ hb'
  · cases hstore

end Frame

/-! ### Looking, storing, carrying out -/

section Steps

variable {e : MsrEnv} {t : Topology} {b n i : Nat} {st : FeatureState}
variable {load : BatchLoad} {loads : List BatchLoad} {ops : List MsrBatchOp}

namespace FeatureState

/-- The operation behind a table entry. -/
theorem Holds.entry_lt (h : st.Holds t b loads ops) (hload : loads[n]? = some load)
    (hi : i < load.count t) : loadStart t loads n + i < ops.length := by
  have hget := loadRegisters_getElem? hload hi
  rw [← h.register, List.getElem?_map] at hget
  obtain ⟨op, hop, -⟩ := Option.map_eq_some_iff.mp hget
  exact (List.getElem?_eq_some_iff.mp hop).1

/-- **Looking through a table** finds the data of the operation that was loaded for the
entry. -/
theorem Holds.peek (h : st.Holds t b loads ops) (hload : loads[n]? = some load)
    (hi : i < load.count t) :
    st.peek b n i = ops[loadStart t loads n + i]?.map (·.msrdata) := by
  have hlt := h.entry_lt hload hi
  obtain ⟨addr, room, vals, hslot, hvals, hlaid⟩ := h.place
  obtain ⟨val, hval, hpoints⟩ := hlaid.points n load hload
  rw [peek_eq st hvals hval, hpoints i hi, Option.bind_some, Nat.zero_add, deref_loaded hslot hlt]

theorem Holds.peek_isSome (h : st.Holds t b loads ops) (hload : loads[n]? = some load)
    (hi : i < load.count t) : ∃ v, st.peek b n i = some v := by
  rw [h.peek hload hi, List.getElem?_eq_getElem (h.entry_lt hload hi)]
  exact ⟨_, rfl⟩

end FeatureState

theorem map_modify_withData {β : Type*} (f : MsrBatchOp → β)
    (hf : ∀ op val, f (MsrBatchOp.withData op val) = f op) (k : Nat) (val : BitVec 64) :
    (ops.modify k (·.withData val)).map f = ops.map f := by
  apply List.ext_getElem?
  intro j
  rw [List.getElem?_map, List.getElem?_map, List.getElem?_modify]
  cases ops[j]? with
  | none => rfl
  | some op =>
      show some (f (if k = j then op.withData val else op)) = some (f op)
      split
      · rw [hf op val]
      · rfl

theorem uniform_modify (h : Uniform t ops) (k : Nat) (val : BitVec 64) :
    Uniform t (ops.modify k (·.withData val)) := by
  obtain ⟨flag, hflag⟩ := h.flag
  have hreg : (ops.modify k (·.withData val)).map (·.register) = ops.map (·.register) :=
    map_modify_withData _ (fun _ _ => rfl) k val
  exact h.of_map flag hreg (flags_of_map (map_modify_withData _ (fun _ _ => rfl) k val) hflag)

/-- A store to an operation of a loaded batch. -/
theorem assign_loaded {s : BatchStorage} {addr room k : Nat}
    (hs : s.slot b = .loaded addr ops room) (hk : k < ops.length) (val : BitVec 64) :
    ∃ s', assign s b (addr, k) val = some s' ∧
      s'.slot b = .loaded addr (ops.modify k (·.withData val)) room := by
  -- the place written is among the operations, not in the room behind them
  have hcells : (ops ++ List.replicate room MsrBatchOp.zero).modify k (·.withData val)
      = ops.modify k (·.withData val) ++ List.replicate room .zero := by
    apply List.ext_getElem?
    intro j
    rw [List.getElem?_modify]
    rcases Nat.lt_or_ge j ops.length with hj | hj
    · rw [List.getElem?_append_left hj, List.getElem?_append_left (by rwa [List.length_modify]),
        List.getElem?_modify]
    · have hkj : ¬ k = j := by omega
      rw [List.getElem?_append_right hj,
        List.getElem?_append_right (by rwa [List.length_modify]), List.length_modify]
      simp [hkj]
  obtain ⟨l, hl, hb⟩ : ∃ l, s.batch = some l ∧ b < l.length := by
    rcases s with ⟨- | l, brk⟩
    · cases hs
    · refine ⟨l, rfl, ?_⟩
      by_contra hge
      have hempty : (BatchStorage.mk (some l) brk).slot b = .empty :=
        List.getD_eq_default _ _ (Nat.not_lt.mp hge)
      rw [hempty] at hs
      cases hs
  have hlt : k < (ops ++ List.replicate room MsrBatchOp.zero).length := by
    rw [List.length_append]
    exact Nat.lt_add_right _ hk
  have hrun : assign s b (addr, k) val
      = some (s.setSlot b (.loaded addr (ops.modify k (·.withData val)) room)) := by
    simp only [assign, hs, MsrBatch.loaded, Option.bind_some, hcells, List.length_modify]
    exact if_pos ⟨trivial, hlt⟩
  refine ⟨_, hrun, ?_⟩
  rw [BatchStorage.slot_setSlot hl hb, Function.update_self]

namespace FeatureState

/-- **Storing through a table** changes the data of that operation, and of no other. -/
theorem Holds.poke (h : st.Holds t b loads ops) (hload : loads[n]? = some load)
    (hi : i < load.count t) (val : BitVec 64) :
    ∃ st', st.poke b n i val = some st' ∧
      st'.Holds t b loads (ops.modify (loadStart t loads n + i) (·.withData val)) := by
  have hlt := h.entry_lt hload hi
  obtain ⟨addr, room, vals, hslot, hvals, hlaid⟩ := h.place
  obtain ⟨tbl, htbl, hpoints⟩ := hlaid.points n load hload
  obtain ⟨s', hs', hslot'⟩ := assign_loaded hslot hlt val
  have hptr : tbl i = some (addr, loadStart t loads n + i) := by
    rw [hpoints i hi, Nat.zero_add]
  refine ⟨{ st with msr := { st.msr with store := s' } }, ?_, ?_⟩
  · simp [FeatureState.poke, hvals, htbl, hptr, hs']
  · exact ⟨⟨addr, room, vals, hslot', hvals, hlaid⟩, uniform_modify h.uniform _ _,
      (map_modify_withData _ (fun _ _ => rfl) _ _).trans h.register⟩

/-- No store through a table that is not there. -/
theorem poke_of_no_table {vals : List DestTable} (hvals : st.tables b = some vals)
    (hn : vals[n]? = none) (val : BitVec 64) : st.poke b n i val = none := by
  simp [FeatureState.poke, hvals, hn]

theorem Holds.poke_of_ge (h : st.Holds t b loads ops) (hn : loads.length ≤ n) (val : BitVec 64) :
    st.poke b n i val = none := by
  obtain ⟨addr, room, vals, -, hvals, hlaid⟩ := h.place
  apply poke_of_no_table hvals
  rw [List.getElem?_eq_none_iff, hlaid.length]
  exact hn

end FeatureState

theorem writeOps_length (hu : Uniform e.topo ops) (m : Machine) :
    (writeOps e ops m).1.length = ops.length := by
  have hmap := congrArg List.length (writeOps_registers hu m).register
  rwa [List.length_map, List.length_map] at hmap

/-- A write leaves the data of the operations alone. -/
theorem ioctlOp_msrdata {op : MsrBatchOp} (h : op.isrdmsr = false) (m : Machine) :
    (ioctlOp e op m).2.1.msrdata = op.msrdata := by
  unfold ioctlOp
  rw [h]
  split
  · simp only [Bool.false_eq_true, if_false]
    split <;> rfl
  · rfl

theorem ioctlLoop_msrdata (h : ∀ op ∈ ops, op.isrdmsr = false) (m : Machine) :
    (ioctlLoop e ops m).2.1.map (·.msrdata) = ops.map (·.msrdata) :=
  ioctlLoop_map (·.msrdata) (fun op hop => ioctlOp_msrdata (h op hop)) m

theorem compatLoop_msrdata (ops : List MsrBatchOp) (m : Machine) :
    (compatLoop e .write ops m).1.map (·.msrdata) = ops.map (·.msrdata) :=
  compatLoop_map (·.msrdata) (fun _ _ => rfl) ops m

theorem writeOps_msrdata (hu : Uniform e.topo ops) (m : Machine) :
    (writeOps e ops m).1.map (·.msrdata) = ops.map (·.msrdata) := by
  unfold writeOps
  split
  · rw [switchFlags_uniform hu, ioctlLoop_msrdata (flagged_uniform hu .write).2, List.map_map]
    rfl
  · exact compatLoop_msrdata ops m

/-- A batch write of a loaded batch, on either path. -/
theorem writeBatch_loaded {s : BatchStorage} {addr room : Nat} (m : Machine)
    (ioctls : List Submission) (hb : b + 1 < 2 ^ 31) (hne : ops ≠ [])
    (hs : s.slot b = .loaded addr ops room) (hu : Uniform e.topo ops) :
    ∃ ret st', writeBatch e b ⟨s, m, ioctls⟩ = some (ret, st') ∧
      st'.machine = (writeOps e ops m).2 ∧
      st'.store.slot = Function.update s.slot b (.loaded addr (writeOps e ops m).1 room) := by
  have hlen := writeOps_length hu m
  have hlive : ((⟨s, m, ioctls⟩ : MsrState).store.slot b).live = some ops := by
    rw [hs, MsrBatch.loaded_live]
  have hwith := MsrBatch.withLive_loaded addr ops _ room hlen
  rw [← hs] at hwith
  rw [← hwith]
  cases hfd : e.batchfd with
  | true =>
      obtain ⟨s', hrun, hslot⟩ := doBatchOp_fast .write hb hfd hlive hne
      refine ⟨_, _, hrun, ?_, ?_⟩
      · rw [writeOps, hfd, if_pos rfl]
      · rw [writeOps, hfd, if_pos rfl]
        exact hslot
  | false =>
      obtain ⟨s', hrun, hslot⟩ := doBatchOp_slow .write hb hfd hlive
      refine ⟨_, _, hrun, ?_, ?_⟩
      · rw [writeOps, hfd, if_neg Bool.false_ne_true]
      · rw [writeOps, hfd, if_neg Bool.false_ne_true]
        exact hslot

namespace FeatureState

/-- **Reading a kept batch** is reading its operations, whatever the tables point to. -/
theorem Holds.read (h : st.Holds e.topo b loads ops) (hb : b + 1 < 2 ^ 31) (hne : ops ≠ []) :
    ∃ err st', st.read e b = some (err, st') ∧
      st'.Holds e.topo b loads (readOps e ops st.msr.machine).1 ∧
      st'.msr.machine = (readOps e ops st.msr.machine).2 := by
  obtain ⟨addr, room, vals, hslot, hvals, hlaid⟩ := h.place
  obtain ⟨err, msr', hread, hmachine, hslot'⟩ :=
    readBatch_loaded st.msr.machine st.msr.ioctls hb hne hslot h.uniform
  have hrun : st.read e b = some (err, { st with msr := msr' }) := by
    rw [FeatureState.read]
    exact congrArg (Option.map _) hread
  refine ⟨err, _, hrun, ⟨⟨addr, room, vals, ?_, hvals, hlaid⟩, ?_, ?_⟩, hmachine⟩
  · show msr'.store.slot b = _
    rw [hslot', Function.update_self]
  · exact readOps_uniform h.uniform _
  · exact (readOps_image h.uniform _).register.trans h.register

/-- **Writing a kept batch** is writing its operations, with the data that was stored in
them. -/
theorem Holds.write (h : st.Holds e.topo b loads ops) (hb : b + 1 < 2 ^ 31) (hne : ops ≠ []) :
    ∃ err st', st.write e b = some (err, st') ∧
      st'.Holds e.topo b loads (writeOps e ops st.msr.machine).1 ∧
      st'.msr.machine = (writeOps e ops st.msr.machine).2 := by
  obtain ⟨addr, room, vals, hslot, hvals, hlaid⟩ := h.place
  obtain ⟨err, msr', hwrite, hmachine, hslot'⟩ :=
    writeBatch_loaded st.msr.machine st.msr.ioctls hb hne hslot h.uniform
  have hrun : st.write e b = some (err, { st with msr := msr' }) := by
    rw [FeatureState.write]
    exact congrArg (Option.map _) hwrite
  refine ⟨err, _, hrun, ⟨⟨addr, room, vals, ?_, hvals, hlaid⟩, ?_, ?_⟩, hmachine⟩
  · show msr'.store.slot b = _
    rw [hslot', Function.update_self]
  · exact writeOps_uniform h.uniform _
  · exact (writeOps_registers h.uniform _).register.trans h.register

/-! Of a batch that is loaded, whatever its operations. -/

theorem Holds.ops_ne_nil (h : st.Holds t b loads ops) (hne : loads ≠ []) : ops ≠ [] := by
  obtain ⟨load, rest, rfl⟩ := List.exists_cons_of_ne_nil hne
  have hlt := h.entry_lt (n := 0) rfl (load.count_pos t)
  exact List.ne_nil_of_length_pos (Nat.zero_lt_of_lt hlt)

theorem Loaded.of_sameAt {st' : FeatureState} (h : st.Loaded t b loads) (hsame : SameAt b st st') :
    st'.Loaded t b loads := by
  obtain ⟨ops, h⟩ := h
  exact ⟨ops, h.of_sameAt hsame⟩

theorem Loaded.of_sameBut {b' : Nat} {st' : FeatureState} (h : st.Loaded t b loads)
    (hsame : SameBut b' st st') (hne : b ≠ b') : st'.Loaded t b loads :=
  h.of_sameAt (hsame.sameAt hne)

theorem Loaded.peek (h : st.Loaded t b loads) (hload : loads[n]? = some load)
    (hi : i < load.count t) : ∃ v, st.peek b n i = some v := by
  obtain ⟨ops, h⟩ := h
  exact h.peek_isSome hload hi

theorem Loaded.poke (h : st.Loaded t b loads) (hload : loads[n]? = some load)
    (hi : i < load.count t) (val : BitVec 64) :
    ∃ st', st.poke b n i val = some st' ∧ st'.Loaded t b loads ∧ SameBut b st st' := by
  obtain ⟨ops, h⟩ := h
  obtain ⟨st', hrun, h'⟩ := h.poke hload hi val
  exact ⟨st', hrun, ⟨_, h'⟩, (poke_sameBut hrun).1⟩

theorem Loaded.read (h : st.Loaded e.topo b loads) (hb : b + 1 < 2 ^ 31) (hne : loads ≠ []) :
    ∃ err st', st.read e b = some (err, st') ∧ st'.Loaded e.topo b loads ∧ SameBut b st st' := by
  obtain ⟨ops, h⟩ := h
  obtain ⟨err, st', hrun, h', -⟩ := h.read hb (h.ops_ne_nil hne)
  exact ⟨err, st', hrun, ⟨_, h'⟩, read_sameBut hrun⟩

theorem Loaded.write (h : st.Loaded e.topo b loads) (hb : b + 1 < 2 ^ 31) (hne : loads ≠ []) :
    ∃ err st', st.write e b = some (err, st') ∧ st'.Loaded e.topo b loads ∧ SameBut b st st' := by
  obtain ⟨ops, h⟩ := h
  obtain ⟨err, st', hrun, h', -⟩ := h.write hb (h.ops_ne_nil hne)
  exact ⟨err, st', hrun, ⟨_, h'⟩, write_sameBut hrun⟩

/-- The registers that a call finds are no matter of the batches. -/
theorem Loaded.found (h : st.Loaded t b loads) (contents : Nat → Nat → BitVec 64) :
    (st.found contents).Loaded t b loads := by
  obtain ⟨ops, hplace, hu, hreg⟩ := h
  exact ⟨ops, hplace, hu, hreg⟩

end FeatureState

end Steps

end Variorum
