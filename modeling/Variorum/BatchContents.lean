/-
Variorum/BatchContents.lean

Building a batch, read as building it alone.

The calls that build a batch are `allocate_batch`, `create_batch_op` and the two
loaders; all but the first run one loop (`BatchCall.run_of_adds`).  `BatchContents`
is the abstract reading of a batch: its operations, `numops` and `size`, wherever
its array stands.  What a building call makes of the contents of its batch is a
matter of those contents alone (`BatchContents.build`), and so is whether the
call conforms (`capacityPre_iff`).  Read like this the store is a system of
components, one for each batch number (`componentwise_build`).
-/
import Variorum.BatchCapacity
import Variorum.Components

namespace Variorum

open Runs

/-! ### Calls -/

namespace BatchCall

/-- The batch a call is for. -/
def batchnum : BatchCall → Nat
  | allocate b _ => b
  | create _ _ _ _ b => b
  | loadSocket _ _ b => b
  | loadThread _ _ b => b
  | read b => b
  | write b => b

/-- The calls that build batches: allocating, creating and loading, but not reading or
writing. -/
def Building : BatchCall → Prop
  | read _ => False
  | write _ => False
  | _ => True

/-- What a call adds to its batch: the register address, the devices with the indices
into the caller's table, and that table. -/
def adds (t : Topology) : BatchCall → Option (Nat × List (Nat × Nat) × DestTable)
  | create msr cpu dest i _ => some (msr, [(cpu, i)], dest)
  | loadSocket msr val _ => val.map fun dest => (msr, socketLoop t t.ncores 0 0, dest)
  | loadThread msr val _ =>
      val.map fun dest => (msr, (List.range t.nthreads).map fun i => (i, i), dest)
  | _ => none

end BatchCall

/-! ### A batch by itself -/

/-- What a batch holds, wherever its array stands. -/
structure BatchContents where
  ops : Option (List MsrBatchOp)
  numops : Nat
  size : Nat
  deriving DecidableEq, Repr

def MsrBatch.contents (x : MsrBatch) : BatchContents := ⟨x.ops.map (·.cells), x.numops, x.size⟩

/-- The contents of every batch. -/
def BatchStorage.contents (s : BatchStorage) : Nat → BatchContents := MsrBatch.contents ∘ s.slot

namespace BatchContents

def capacity (x : BatchContents) : Nat :=
  match x.ops with
  | none => 0
  | some cells => cells.length

/-- One operation more: refused, stored, or stored outside the array. -/
def add (x : BatchContents) (msr cpu : Nat) : Option BatchContents :=
  if x.numops > x.size then some x
  else
    match x.ops with
    | none => none
    | some cells =>
        if x.numops < cells.length then
          some { x with
            numops := x.numops + 1, ops := some (cells.modify x.numops (·.fill msr cpu)) }
        else none

/-- Operations added one for each device, as far as the batch has room. -/
def addAll (msr : Nat) : List Nat → BatchContents → Option BatchContents
  | [], x => some x
  | cpu :: rest, x => (x.add msr cpu).bind (addAll msr rest)

/-- What a building call makes of its batch. -/
def build (t : Topology) (x : BatchContents) (c : BatchCall) : Option BatchContents :=
  match c with
  | .allocate b bsize =>
      if b + 1 < 2 ^ 31 then
        some { x with ops := some (List.replicate (bsize % 2 ^ 32) .zero), size := bsize % 2 ^ 32 }
      else none
  | c =>
      match c.adds t with
      | none => some x
      | some (msr, pairs, _) =>
          if c.batchnum + 1 < 2 ^ 31 then addAll msr (pairs.map (·.1)) x else none

/-- The call conforms, as far as its batch goes. -/
def Pre (t : Topology) (x : BatchContents) : BatchCall → Prop
  | .allocate b _ => b + 1 < 2 ^ 31 ∧ x.ops = none
  | .create _ _ _ _ b => b + 1 < 2 ^ 31 ∧ x.numops < x.capacity
  | .loadSocket _ val b =>
      val = none ∨ b + 1 < 2 ^ 31 ∧ x.numops + t.nsockets ≤ x.capacity
  | .loadThread _ val b =>
      val = none ∨ b + 1 < 2 ^ 31 ∧ x.numops + t.nthreads ≤ x.capacity
  | .read b => b + 1 < 2 ^ 31
  | .write b => b + 1 < 2 ^ 31

end BatchContents

/-! ### The loop behind a call -/

section Adds

variable {e : MsrEnv} {st : MsrState} {c : BatchCall} {t : Topology} {msr : Nat}
variable {pairs : List (Nat × Nat)} {dest : DestTable}

/-- `create_batch_op` is a loader of one operation. -/
theorem loadLoop_singleton (s : BatchStorage) (msr cpu : Nat) (dest : DestTable) (i b : Nat) :
    loadLoop msr b [(cpu, i)] dest s = (createBatchOp s msr cpu dest i b).map (·.2) := by
  rw [loadLoop]
  cases createBatchOp s msr cpu dest i b <;> rfl

namespace BatchCall

/-- A call that adds operations runs the loop of the loaders. -/
theorem run_of_adds (h : c.adds e.topo = some (msr, pairs, dest)) :
    (c.run e st).map (fun r => (r.table, r.state))
      = (loadLoop msr c.batchnum pairs dest st.store).map
          fun (dest', s) => (some dest', { st with store := s }) := by
  cases c with
  | create msr cpu dest i b =>
      obtain ⟨rfl, rfl, rfl⟩ : _ ∧ _ ∧ _ := by simpa [adds] using h
      rw [loadLoop_singleton, run, Option.map_map, Option.map_map]
      rfl
  | loadSocket msr val b =>
      obtain ⟨dest, rfl, heq⟩ := Option.map_eq_some_iff.mp h
      obtain ⟨rfl, rfl, rfl⟩ : _ ∧ _ ∧ _ := by simpa using heq
      rw [run, loadSocketBatch, Option.map_map, Option.map_map]
      rfl
  | loadThread msr val b =>
      obtain ⟨dest, rfl, heq⟩ := Option.map_eq_some_iff.mp h
      obtain ⟨rfl, rfl, rfl⟩ : _ ∧ _ ∧ _ := by simpa using heq
      rw [run, loadThreadBatch, Option.map_map, Option.map_map]
      rfl
  | allocate b bsize => cases h
  | read b => cases h
  | write b => cases h

/-- The devices of such a call: the one of `create_batch_op`, or those of a loader. -/
theorem adds_cases (h : c.adds t = some (msr, pairs, dest)) :
    (∃ cpu i, pairs = [(cpu, i)]) ∨ pairs = socketLoop t t.ncores 0 0 ∨
      pairs = (List.range t.nthreads).map fun i => (i, i) := by
  cases c with
  | create msr cpu dest i b =>
      obtain ⟨-, rfl, -⟩ : _ ∧ [(cpu, i)] = pairs ∧ _ := by simpa [adds] using h
      exact .inl ⟨cpu, i, rfl⟩
  | loadSocket msr val b =>
      obtain ⟨dest, rfl, heq⟩ := Option.map_eq_some_iff.mp h
      obtain ⟨-, hpairs, -⟩ : _ ∧ socketLoop t t.ncores 0 0 = pairs ∧ _ := by simpa using heq
      exact .inr (.inl hpairs.symm)
  | loadThread msr val b =>
      obtain ⟨dest, rfl, heq⟩ := Option.map_eq_some_iff.mp h
      obtain ⟨-, hpairs, -⟩ : _ ∧ ((List.range t.nthreads).map fun i => (i, i)) = pairs ∧ _ := by
        simpa using heq
      exact .inr (.inr hpairs.symm)
  | allocate b bsize => cases h
  | read b => cases h
  | write b => cases h

/-- Such a call adds at least one. -/
theorem adds_pairs_ne_nil (h : c.adds t = some (msr, pairs, dest)) : pairs ≠ [] := by
  rw [← List.length_pos_iff]
  obtain ⟨cpu, i, rfl⟩ | rfl | rfl := adds_cases h
  · exact Nat.one_pos
  · rw [socketLoop_length]
    exact t.nsockets_pos
  · rw [threadPairs_length]
    exact t.nthreads_pos

end BatchCall

end Adds

/-! ### Building -/

section Building

variable {e : MsrEnv} {s s' : BatchStorage} {st : MsrState} {c : BatchCall} {b msr : Nat}
variable {x y : BatchContents}

theorem BatchStorage.contents_update {z : MsrBatch}
    (h : s'.slot = Function.update s.slot b z) :
    s'.contents = Function.update s.contents b z.contents := by
  rw [contents, h]
  exact Function.comp_update _ _ _ _

theorem BatchStorage.contents_of_slot (h : s'.slot = s.slot) : s'.contents = s.contents := by
  rw [contents, h]
  rfl

/-- What adding an operation makes of the contents. -/
theorem MsrBatch.addOp_contents (z : MsrBatch) (msr cpu : Nat) (h : z.numops ≤ z.size) :
    (z.addOp msr cpu).map (·.2.contents) = z.contents.add msr cpu := by
  have hroom : ¬ z.contents.numops > z.contents.size := Nat.not_lt.mpr h
  rw [BatchContents.add, if_neg hroom]
  rcases z with ⟨- | a, numops, size⟩
  · rfl
  · by_cases hlt : numops < a.cells.length <;> simp [addOp, contents, hlt]

/-- `create_batch_op` seen on the contents: it adds an operation to its batch, and no
other changes. -/
theorem createBatchOp_contents (hb : b + 1 < 2 ^ 31) (s : BatchStorage) (msr cpu : Nat)
    (dest : DestTable) (i : Nat) :
    (createBatchOp s msr cpu dest i b).map (·.2.2.contents)
      = ((s.contents b).add msr cpu).map (Function.update s.contents b) := by
  by_cases hfull : (s.slot b).size < (s.slot b).numops
  · obtain ⟨s', hs', hslot⟩ := createBatchOp_full msr cpu dest i hb hfull
    have hadd : (s.contents b).add msr cpu = some (s.contents b) := if_pos hfull
    rw [hs', hadd, Option.map_some, Option.map_some, Function.update_eq_self]
    exact congrArg some (BatchStorage.contents_of_slot hslot)
  · have hroom : (s.slot b).numops ≤ (s.slot b).size := Nat.not_lt.mp hfull
    have hadd := MsrBatch.addOp_contents (s.slot b) msr cpu hroom
    rw [show (s.slot b).contents = s.contents b from rfl] at hadd
    rcases hop : (s.slot b).addOp msr cpu with - | ⟨ptr, z⟩
    · rw [hop] at hadd
      rw [createBatchOp_fault hb hroom (MsrBatch.addOp_eq_none_iff.mp hop), ← hadd]
      rfl
    · rw [hop] at hadd
      obtain ⟨s', hs', hslot⟩ := createBatchOp_room dest i hb hroom hop
      rw [hs', ← hadd, Option.map_some, Option.map_some, Option.map_some]
      exact congrArg some (BatchStorage.contents_update hslot)

/-- The loop of the loaders on the contents, by induction on the devices. -/
theorem loadLoop_contents (hb : b + 1 < 2 ^ 31) (s : BatchStorage) (msr : Nat)
    (pairs : List (Nat × Nat)) (dest : DestTable) :
    (loadLoop msr b pairs dest s).map (·.2.contents)
      = (BatchContents.addAll msr (pairs.map (·.1)) (s.contents b)).map
          (Function.update s.contents b) := by
  induction pairs generalizing dest s with
  | nil => exact congrArg some (Function.update_eq_self b s.contents).symm
  | cons p rest ih =>
      have hstep := createBatchOp_contents hb s msr p.1 dest p.2
      rw [loadLoop, List.map_cons, BatchContents.addAll]
      rcases hs₁ : createBatchOp s msr p.1 dest p.2 b with - | ⟨ret, dest₁, s₁⟩
      · rw [hs₁] at hstep
        rw [Option.map_eq_none_iff.mp hstep.symm]
        rfl
      · rw [hs₁, Option.map_some] at hstep
        obtain ⟨y, hy, hview⟩ := Option.map_eq_some_iff.mp hstep.symm
        rw [hy, Option.bind_some, Option.bind_some, ih, ← hview, Function.update_self]
        congr 1
        funext v
        exact Function.update_idem y v s.contents

/-- **The store is componentwise** for the calls that build. -/
theorem componentwise_build (e : MsrEnv) :
    Componentwise (BatchCall.step e) BatchCall.Building BatchCall.batchnum
      (fun st => st.store.contents) (BatchContents.build e.topo) := by
  refine ⟨fun st c hc => ?_⟩
  -- a call that adds operations goes through one loop, which touches its own batch only
  have hadds : ∀ {msr pairs dest}, c.adds e.topo = some (msr, pairs, dest) →
      (c.step e st).map (fun st => st.store.contents)
        = (if c.batchnum + 1 < 2 ^ 31
            then BatchContents.addAll msr (pairs.map (·.1)) (st.store.contents c.batchnum)
            else none).map (Function.update st.store.contents c.batchnum) := by
    intro msr pairs dest hadd
    have hloop : (c.run e st).map (fun r => (r.table, r.state)) = _ := BatchCall.run_of_adds hadd
    have hview := congrArg (Option.map fun r => r.2.store.contents) hloop
    rw [Option.map_map, Option.map_map] at hview
    rw [BatchCall.step, Option.map_map]
    refine hview.trans ?_
    by_cases hb : c.batchnum + 1 < 2 ^ 31
    · rw [if_pos hb, ← loadLoop_contents hb st.store msr pairs dest]
      rfl
    · rw [if_neg hb, loadLoop_of_ge (Nat.not_lt.mp hb) (BatchCall.adds_pairs_ne_nil hadd)]
      rfl
  -- without a table to load into nothing changes
  have hnull : (some st).map (fun st => st.store.contents)
      = (some (st.store.contents c.batchnum)).map
          (Function.update st.store.contents c.batchnum) := by
    rw [Option.map_some, Option.map_some, Function.update_eq_self]
  cases c with
  | allocate b bsize =>
      by_cases hb : b + 1 < 2 ^ 31
      · obtain ⟨s', hs', hslot⟩ := allocateBatch_of_lt (s := st.store) hb bsize
        rw [BatchCall.step, BatchCall.run, hs', BatchContents.build, if_pos hb]
        exact congrArg some (BatchStorage.contents_update hslot)
      · rw [BatchCall.step, BatchCall.run, allocateBatch,
          BatchStorage.batchStorage_of_ge (Nat.not_lt.mp hb), BatchContents.build, if_neg hb]
        rfl
  | create msr cpu dest i b => exact hadds rfl
  | loadSocket msr val b =>
      cases val with
      | none => exact hnull
      | some dest => exact hadds rfl
  | loadThread msr val b =>
      cases val with
      | none => exact hnull
      | some dest => exact hadds rfl
  | read b => exact hc.elim
  | write b => exact hc.elim

/-- Whether a call conforms is a matter of its batch. -/
theorem capacityPre_iff : c.CapacityPre e st ↔ (st.store.contents c.batchnum).Pre e.topo c := by
  have hcap : ∀ z : MsrBatch, z.contents.capacity = z.capacity := by
    rintro ⟨- | a, numops, size⟩ <;> rfl
  have hnull : ∀ z : MsrBatch, z.contents.ops = none ↔ z.ops = none := fun z =>
    Option.map_eq_none_iff
  cases c with
  | allocate b bsize => exact and_congr_right fun _ => (hnull _).symm
  | create msr cpu dest i b =>
      show _ ↔ b + 1 < 2 ^ 31 ∧ (st.store.slot b).numops < (st.store.slot b).contents.capacity
      rw [hcap]
      rfl
  | loadSocket msr val b =>
      show _ ↔ val = none ∨ b + 1 < 2 ^ 31 ∧
        (st.store.slot b).numops + _ ≤ (st.store.slot b).contents.capacity
      rw [hcap]
      rfl
  | loadThread msr val b =>
      show _ ↔ val = none ∨ b + 1 < 2 ^ 31 ∧
        (st.store.slot b).numops + _ ≤ (st.store.slot b).contents.capacity
      rw [hcap]
      rfl
  | read b => exact Iff.rfl
  | write b => exact Iff.rfl

/-- With a free entry there is room for an operation, whether or not it is refused. -/
theorem BatchContents.add_of_lt (msr cpu : Nat) (h : x.numops < x.capacity) :
    ∃ y, x.add msr cpu = some y ∧ y.numops ≤ x.numops + 1 ∧ y.capacity = x.capacity := by
  rw [add]
  split
  · exact ⟨x, rfl, Nat.le_succ _, rfl⟩
  · rcases x with ⟨- | cells, numops, size⟩
    · cases h
    · simp only [capacity] at h
      exact ⟨_, if_pos h, Nat.le_refl _, List.length_modify _ _ _⟩

theorem BatchContents.addAll_of_le (msr : Nat) {cpus : List Nat}
    (h : x.numops + cpus.length ≤ x.capacity) : ∃ y, addAll msr cpus x = some y := by
  induction cpus generalizing x with
  | nil => exact ⟨x, rfl⟩
  | cons cpu rest ih =>
      rw [List.length_cons] at h
      obtain ⟨y, hy, hnum, hcap⟩ := x.add_of_lt msr cpu (by omega)
      rw [addAll, hy]
      exact ih (by rw [hcap]; omega)

/-- A conforming call goes through. -/
theorem BatchContents.build_of_pre {t : Topology} (hc : c.Building) (hpre : x.Pre t c) :
    ∃ y, x.build t c = some y := by
  cases c with
  | allocate b bsize => exact ⟨_, if_pos hpre.1⟩
  | create msr cpu dest i b =>
      have hone : x.numops + [cpu].length ≤ x.capacity := hpre.2
      obtain ⟨y, hy⟩ := addAll_of_le msr hone
      exact ⟨y, (if_pos hpre.1).trans hy⟩
  | loadSocket msr val b =>
      cases val with
      | none => exact ⟨x, rfl⟩
      | some dest =>
          obtain ⟨hb, hroom⟩ := hpre.resolve_left (Option.some_ne_none dest)
          rw [← socketLoop_length t, ← List.length_map (·.1)] at hroom
          obtain ⟨y, hy⟩ := addAll_of_le msr hroom
          exact ⟨y, (if_pos hb).trans hy⟩
  | loadThread msr val b =>
      cases val with
      | none => exact ⟨x, rfl⟩
      | some dest =>
          obtain ⟨hb, hroom⟩ := hpre.resolve_left (Option.some_ne_none dest)
          rw [← threadPairs_length t, ← List.length_map (·.1)] at hroom
          obtain ⟨y, hy⟩ := addAll_of_le msr hroom
          exact ⟨y, (if_pos hb).trans hy⟩
  | read b => exact hc.elim
  | write b => exact hc.elim

end Building

end Variorum
