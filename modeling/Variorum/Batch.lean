/-
Variorum/Batch.lean

Batches of register operations: the storage behind a batch number, the calls
that build a batch and the two ways a batch is carried out.

`batch_storage` keeps two parallel arrays that grow on demand, one of batches
and one of their sizes; `BatchStorage` holds them as one list.  What a caller
sees of it is the total map `slot` from batch numbers to batches, a number not
used before being an empty batch: `batchStorage_slot` says that growing the
arrays does not change this map, and every later lemma is about it.

An `ops` array is what one `calloc` returned, and an entry is only reached
through it.  A store beyond the array, or through a NULL `ops`, is memory
corruption and has no model: the call answers `none`.  The same holds for the
overflow of `batchnum + 1`.

`do_batch_op` hands the batch to the `msr_batch` ioctl when the device could be
opened, and to `compatibility_batch` otherwise.  The ioctl carries out the
operations in order on the named CPUs and fails iff some operation fails.
-/
import Mathlib.Data.List.GetD
import Variorum.MsrCore

namespace Variorum

/-! ### Data -/

/-- `struct msr_batch_op`.  Its `wmask` is never set. -/
structure MsrBatchOp where
  cpu : BitVec 16
  isrdmsr : Bool
  err : Int
  msr : BitVec 32
  msrdata : BitVec 64
  deriving DecidableEq, Repr

/-- An entry as `calloc` leaves it. -/
def MsrBatchOp.zero : MsrBatchOp := ⟨0, false, 0, 0, 0⟩

/-- The fields `create_batch_op` sets: a read of `msr` on `cpu`. -/
def MsrBatchOp.fill (op : MsrBatchOp) (msr cpu : Nat) : MsrBatchOp :=
  { op with msr := BitVec.ofNat 32 msr, cpu := BitVec.ofNat 16 cpu, isrdmsr := true, err := 0 }

/-- The block behind an `ops` pointer. -/
structure OpsArray where
  addr : Nat
  cells : List MsrBatchOp
  deriving DecidableEq, Repr

/-- `struct msr_batch_array` with the entry of the `size` array that goes with
it. -/
structure MsrBatch where
  ops : Option OpsArray
  numops : Nat
  size : Nat
  deriving DecidableEq, Repr

/-- A pointer to the `msrdata` of an operation: a block and a position. -/
abbrev Dest := Nat × Nat

/-- A caller's table of destination pointers (`uint64_t **`). -/
abbrev DestTable := Nat → Option Dest

/-- The statics of `batch_storage`.  `batch` is `none` while the pointer is
NULL; its length is `arrsize`.  `brk` numbers the blocks `calloc` returns. -/
structure BatchStorage where
  batch : Option (List MsrBatch)
  brk : Nat

namespace MsrBatch

def empty : MsrBatch := ⟨none, 0, 0⟩

/-- The number of entries the `ops` array really has. -/
def capacity (x : MsrBatch) : Nat :=
  match x.ops with
  | none => 0
  | some a => a.cells.length

/-- The `numops` entries in use, if all of them lie inside the array. -/
def live (x : MsrBatch) : Option (List MsrBatchOp) :=
  match x.ops with
  | none => if x.numops = 0 then some [] else none
  | some a => if x.numops ≤ a.cells.length then some (a.cells.take x.numops) else none

/-- Put back the entries in use. -/
def withLive (x : MsrBatch) (ops : List MsrBatchOp) : MsrBatch :=
  { x with ops := x.ops.map fun a => { a with cells := ops ++ a.cells.drop x.numops } }

/-- The stores of `create_batch_op` to entry `numops`, and the address of its
`msrdata`. -/
def addOp (x : MsrBatch) (msr cpu : Nat) : Option (Dest × MsrBatch) :=
  match x.ops with
  | none => none
  | some a =>
      if x.numops < a.cells.length then
        some ((a.addr, x.numops),
          { x with
            numops := x.numops + 1
            ops := some { a with cells := a.cells.modify x.numops (·.fill msr cpu) } })
      else none

end MsrBatch

namespace BatchStorage

/-- Nothing allocated yet. -/
def start : BatchStorage := ⟨none, 0⟩

/-- The batch behind a number. -/
def slot (s : BatchStorage) (batchnum : Nat) : MsrBatch :=
  match s.batch with
  | none => .empty
  | some l => l.getD batchnum .empty

/-- Store through the pointer `&batch[batchnum]`. -/
def setSlot (s : BatchStorage) (batchnum : Nat) (x : MsrBatch) : BatchStorage :=
  { s with batch := s.batch.map (·.set batchnum x) }

end BatchStorage

/-! ### Building a batch -/

/-- `batch_storage`: afterwards the arrays reach `batchnum`. -/
def batchStorage (s : BatchStorage) (batchnum : Nat) : Option BatchStorage :=
  -- `batchnum + 1` is computed as an `int`
  if 2 ^ 31 ≤ batchnum + 1 then none
  else
    match s.batch with
    | none =>
        let arrsize := if batchnum + 1 > 1 then batchnum + 1 else 1
        some { s with batch := some (List.replicate arrsize .empty) }
    | some l =>
        if batchnum + 1 > l.length then
          some { s with batch := some (l ++ List.replicate (batchnum + 1 - l.length) .empty) }
        else some s

/-- `allocate_batch`.  A batch that already has an array is reported and gets a
new one all the same. -/
def allocateBatch (s : BatchStorage) (batchnum bsize : Nat) : Option (Int × BatchStorage) :=
  (batchStorage s batchnum).map fun s =>
    let size := bsize % 2 ^ 32
    let ops : OpsArray := ⟨s.brk, List.replicate size .zero⟩
    (0, { s.setSlot batchnum { s.slot batchnum with ops := some ops, size := size } with
          brk := s.brk + 1 })

/-- `create_batch_op(msr, cpu, &dest[i], batchnum)`: the next operation of the batch,
with its address in the caller's table. -/
def createBatchOp (s : BatchStorage) (msr cpu : Nat) (dest : DestTable) (i batchnum : Nat) :
    Option (Int × DestTable × BatchStorage) :=
  (batchStorage s batchnum).bind fun s =>
    let x := s.slot batchnum
    if x.numops > x.size then some (VariorumError.msrBatch.code, dest, s)
    else
      (x.addOp msr cpu).map fun (ptr, x') =>
        (0, Function.update dest i (some ptr), s.setSlot batchnum x')

/-- The loop body shared by the two loaders, over the (device, table index)
pairs of the loop.  The return value of `create_batch_op` is dropped. -/
def loadLoop (msr batchnum : Nat) :
    List (Nat × Nat) → DestTable → BatchStorage → Option (DestTable × BatchStorage)
  | [], dest, s => some (dest, s)
  | (devIdx, valIdx) :: rest, dest, s =>
      (createBatchOp s msr devIdx dest valIdx batchnum).bind fun (_, dest', s') =>
        loadLoop msr batchnum rest dest' s'

/-- The iterations of the loop of `load_socket_batch` from `devIdx`, `valIdx`
on.  Each iteration advances `devIdx` by at least one, so `ncores` of them are
more than enough (`socketLoop_length`). -/
def socketLoop (t : Topology) : Nat → Nat → Nat → List (Nat × Nat)
  | 0, _, _ => []
  | fuel + 1, devIdx, valIdx =>
      if devIdx < t.ncores then
        (devIdx, valIdx % (t.nsockets * (t.nthreads / t.ncores)))
          :: socketLoop t fuel (devIdx + t.ncores / t.nsockets) (valIdx + 1)
      else []

/-- `load_socket_batch`; `val` is `none` for a NULL pointer. -/
def loadSocketBatch (t : Topology) (s : BatchStorage) (msr : Nat) (val : Option DestTable)
    (batchnum : Nat) : Option (Int × Option DestTable × BatchStorage) :=
  match val with
  | none => some (VariorumError.msrBatch.code, none, s)
  | some val =>
      (loadLoop msr batchnum (socketLoop t t.ncores 0 0) val s).map fun (val', s') =>
        (0, some val', s')

/-- `load_thread_batch`: an operation for every hardware thread of the node. -/
def loadThreadBatch (t : Topology) (s : BatchStorage) (msr : Nat) (val : Option DestTable)
    (batchnum : Nat) : Option (Int × Option DestTable × BatchStorage) :=
  match val with
  | none => some (VariorumError.msrBatch.code, none, s)
  | some val =>
      (loadLoop msr batchnum ((List.range t.nthreads).map fun i => (i, i)) val s).map
        fun (val', s') => (0, some val', s')

/-! ### Carrying out a batch -/

/-- `BATCH_READ` and `BATCH_WRITE`, the two requests. -/
inductive BatchType
  | read
  | write
  deriving DecidableEq, Repr

/-- The value of `isrdmsr` that goes with a request. -/
def BatchType.flag : BatchType → Bool
  | read => true
  | write => false

/-- A batch as it was handed to the ioctl, with the request it was to carry
out. -/
structure Submission where
  type : BatchType
  ops : List MsrBatchOp

/-- The batches, the registers and the ioctls issued so far, the latest
last. -/
structure MsrState where
  store : BatchStorage
  machine : Machine
  ioctls : List Submission

/-- The node, its MSR driver and whether `/dev/cpu/msr_batch` could be opened;
`do_batch_op` opens it once and keeps the outcome. -/
structure MsrEnv where
  topo : Topology
  driver : Driver
  batchfd : Bool

/-- The two-socket node with `msr_batch` and no failing access. -/
def twoSocketEnv : MsrEnv := ⟨twoSockets, ⟨fun _ _ => false⟩, true⟩

/-- One iteration of the loop of `compatibility_batch`. -/
def compatOp (e : MsrEnv) (type : BatchType) (op : MsrBatchOp) (m : Machine) :
    MsrBatchOp × Machine :=
  match type with
  | .read =>
      let (_, val, m') :=
        readMsrByIdx e.topo e.driver (op.cpu.setWidth 32) op.msr.toNat op.msrdata m
      ({ op with msrdata := val }, m')
  | .write =>
      let (_, m') :=
        writeMsrByIdx e.topo e.driver (op.cpu.setWidth 32) op.msr.toNat op.msrdata m
      (op, m')

def compatLoop (e : MsrEnv) (type : BatchType) :
    List MsrBatchOp → Machine → List MsrBatchOp × Machine
  | [], m => ([], m)
  | op :: rest, m =>
      let (op', m') := compatOp e type op m
      let (rest', m'') := compatLoop e type rest m'
      (op' :: rest', m'')

/-- `compatibility_batch`: the operations one by one, as single reads and writes. -/
def compatibilityBatch (e : MsrEnv) (type : BatchType) (batchnum : Nat) (st : MsrState) :
    Option (Int × MsrState) :=
  (batchStorage st.store batchnum).bind fun s =>
    (s.slot batchnum).live.map fun ops =>
      let (ops', m') := compatLoop e type ops st.machine
      (0, { st with
            store := s.setSlot batchnum ((s.slot batchnum).withLive ops'), machine := m' })

/-- The kernel's side of one operation: whether it succeeded, the operation
after it, the registers after it.  The error codes are `-ENXIO` for a CPU that
does not exist and `-EIO` for a refused access. -/
def ioctlOp (e : MsrEnv) (op : MsrBatchOp) (m : Machine) : Bool × MsrBatchOp × Machine :=
  if op.cpu.toNat < e.topo.nthreads then
    if op.isrdmsr then
      match m.pread e.driver op.cpu.toNat op.msr.toNat with
      | (none, m') => (false, { op with err := -5 }, m')
      | (some v, m') => (true, { op with msrdata := v, err := 0 }, m')
    else
      match m.pwrite e.driver op.cpu.toNat op.msr.toNat op.msrdata with
      | (false, m') => (false, { op with err := -5 }, m')
      | (true, m') => (true, { op with err := 0 }, m')
  else (false, { op with err := -6 }, m)

/-- `ioctl(batchfd, X86_IOC_MSR_BATCH, batch)`: whether no operation failed,
the operations copied back, the registers. -/
def ioctlLoop (e : MsrEnv) : List MsrBatchOp → Machine → Bool × List MsrBatchOp × Machine
  | [], m => (true, [], m)
  | op :: rest, m =>
      let (ok, op', m') := ioctlOp e op m
      let (oks, rest', m'') := ioctlLoop e rest m'
      (ok && oks, op' :: rest', m'')

/-- "If current flag is the opposite type, switch the flags."  Only the first
operation is looked at. -/
def switchFlags (type : BatchType) : List MsrBatchOp → List MsrBatchOp
  | [] => []
  | op :: rest =>
      if op.isrdmsr = type.flag then op :: rest
      else (op :: rest).map fun op => { op with isrdmsr := type.flag }

/-- `do_batch_op`: the flags are set for the request, and the batch goes to the driver. -/
def doBatchOp (e : MsrEnv) (type : BatchType) (batchnum : Nat) (st : MsrState) :
    Option (Int × MsrState) :=
  if e.batchfd then
    (batchStorage st.store batchnum).bind fun s =>
      let x := s.slot batchnum
      -- "Using empty batch"
      if x.numops = 0 then some (-1, { st with store := s })
      else
        x.live.map fun ops =>
          let sub := switchFlags type ops
          let (ok, ops', m') := ioctlLoop e sub st.machine
          (if ok then 0 else -1,
            { store := s.setSlot batchnum (x.withLive ops'), machine := m'
              ioctls := st.ioctls ++ [⟨type, sub⟩] })
  else compatibilityBatch e type batchnum st

/-- `read_batch`: the batch is submitted with the request to read. -/
def readBatch (e : MsrEnv) (batchnum : Nat) (st : MsrState) : Option (Int × MsrState) :=
  doBatchOp e .read batchnum st

/-- `write_batch`: the batch is submitted with the request to write. -/
def writeBatch (e : MsrEnv) (batchnum : Nat) (st : MsrState) : Option (Int × MsrState) :=
  doBatchOp e .write batchnum st

/-! ### One batch -/

namespace MsrBatch

variable {x x' : MsrBatch} {ops ops' : List MsrBatchOp}

theorem live_of_le (h : x.numops ≤ x.capacity) : ∃ ops, x.live = some ops := by
  rcases x with ⟨- | a, numops, size⟩
  · exact ⟨[], if_pos (Nat.le_zero.mp h)⟩
  · exact ⟨a.cells.take numops, if_pos h⟩

theorem live_length (h : x.live = some ops) : ops.length = x.numops := by
  rcases x with ⟨- | a, numops, size⟩ <;> simp only [live] at h <;> split at h
  · next h0 =>
      obtain rfl := Option.some.inj h
      exact h0.symm
  · cases h
  · next hle =>
      obtain rfl := Option.some.inj h
      exact List.length_take_of_le hle
  · cases h

/-- Putting back as many entries as were taken out gives them again. -/
theorem live_withLive (h : x.live = some ops) (hlen : ops'.length = ops.length) :
    (x.withLive ops').live = some ops' := by
  have hn := live_length h
  rcases x with ⟨- | a, numops, size⟩ <;> simp only [live] at h <;> split at h
  · next h0 =>
      obtain rfl := Option.some.inj h
      obtain rfl := List.length_eq_zero_iff.mp hlen
      exact if_pos h0
  · cases h
  · next hle =>
      subst hn
      simp [withLive, live, hlen]
  · cases h

theorem withLive_capacity (h : x.live = some ops) (hlen : ops'.length = ops.length) :
    (x.withLive ops').capacity = x.capacity := by
  have hn := live_length h
  rcases x with ⟨- | a, numops, size⟩
  · rfl
  · simp only [live] at h
    split at h
    · next hle => simp only [withLive, capacity, Option.map_some, List.length_append,
        List.length_drop]; simp only at hn; omega
    · cases h

/-- There is room for an operation as long as the array has a free entry. -/
theorem addOp_eq_none_iff {msr cpu : Nat} : x.addOp msr cpu = none ↔ x.capacity ≤ x.numops := by
  rcases x with ⟨- | a, numops, size⟩ <;> simp [addOp, capacity]

/-- What adding an operation does to a batch: one more entry in use, filled in, in an
array of the same extent. -/
theorem addOp_spec {msr cpu : Nat} {ptr : Dest} (h : x.addOp msr cpu = some (ptr, x')) :
    x'.numops = x.numops + 1 ∧ x'.size = x.size ∧ x'.capacity = x.capacity ∧
      ∃ ops, ∃ op : MsrBatchOp, x.live = some ops ∧
        x'.live = some (ops ++ [op.fill msr cpu]) := by
  rcases x with ⟨- | a, numops, size⟩
  · cases h
  · simp only [addOp] at h
    split at h
    · next hlt =>
        obtain ⟨-, rfl⟩ := Prod.mk.inj (Option.some.inj h)
        refine ⟨rfl, rfl, by simp [capacity], ?_⟩
        refine ⟨a.cells.take numops, a.cells[numops], if_pos hlt.le, ?_⟩
        have htake : (a.cells.modify numops (·.fill msr cpu)).take (numops + 1)
            = a.cells.take numops ++ [a.cells[numops].fill msr cpu] := by
          rw [List.modify_eq_take_cons_drop hlt]
          simp [List.take_append, List.take_take, hlt.le]
        simp only [live, List.length_modify, Nat.succ_le_of_lt hlt, if_true, htake]
    · cases h

end MsrBatch

/-! ### The storage as a map

`batch_storage` never fails where it is defined, and what it changes is not
seen through `slot`. -/

namespace BatchStorage

variable {s : BatchStorage} {batchnum : Nat}

theorem batchStorage_of_ge (h : 2 ^ 31 ≤ batchnum + 1) : batchStorage s batchnum = none := by
  simp only [batchStorage, h, if_true]

theorem slot_extend (l : List MsrBatch) (n brk : Nat) :
    slot ⟨some (l ++ List.replicate n MsrBatch.empty), brk⟩ = slot ⟨some l, brk⟩ := by
  funext b
  show (l ++ List.replicate n MsrBatch.empty).getD b MsrBatch.empty = l.getD b .empty
  by_cases hb : b < l.length
  · rw [List.getD_append _ _ _ _ hb]
  · rw [List.getD_append_right _ _ _ _ (Nat.not_lt.mp hb),
      List.getD_eq_default _ _ (Nat.not_lt.mp hb)]
    exact List.getElem?_getD_replicate_default_eq _ _ _

theorem slot_setSlot {l : List MsrBatch} (hs : s.batch = some l) (hb : batchnum < l.length)
    (x : MsrBatch) : (s.setSlot batchnum x).slot = Function.update s.slot batchnum x := by
  have hget : s.slot = fun b => l.getD b .empty := by
    funext b
    simp only [slot, hs]
  rw [hget]
  funext b
  simp only [setSlot, slot, hs, Option.map_some, List.getD_eq_getElem?_getD]
  by_cases hne : b = batchnum
  · subst hne
    rw [List.getElem?_set_self hb, Function.update_self, Option.getD_some]
  · rw [List.getElem?_set_ne (Ne.symm hne), Function.update_of_ne hne]

/-- Growing the arrays changes no batch, and the one asked for can be stored
to afterwards. -/
theorem batchStorage_of_lt (h : batchnum + 1 < 2 ^ 31) :
    ∃ s', batchStorage s batchnum = some s' ∧ s'.slot = s.slot ∧ s'.brk = s.brk ∧
      ∀ x, (s'.setSlot batchnum x).slot = Function.update s.slot batchnum x := by
  have hreach : ∃ s' l, batchStorage s batchnum = some s' ∧ s'.batch = some l ∧
      batchnum < l.length ∧ s'.slot = s.slot ∧ s'.brk = s.brk := by
    simp only [batchStorage, Nat.not_le.mpr h, if_false]
    rcases s with ⟨- | l, brk⟩ <;> simp only
    · refine ⟨_, _, rfl, rfl, ?_, slot_extend [] _ brk, rfl⟩
      rw [List.length_replicate]
      split <;> omega
    · split
      · refine ⟨_, _, rfl, rfl, ?_, slot_extend l _ brk, rfl⟩
        simp only [List.length_append, List.length_replicate]
        omega
      · exact ⟨_, l, rfl, rfl, by omega, rfl, rfl⟩
  obtain ⟨s', l, hs', hl, hb, hslot, hbrk⟩ := hreach
  exact ⟨s', hs', hslot, hbrk, fun x => hslot ▸ slot_setSlot hl hb x⟩

/-- What holds of a batch, and of one stored if that is the batch, holds after the store. -/
theorem of_update {P : MsrBatch → Prop} {s' : BatchStorage} {x : MsrBatch} {b : Nat}
    (hs : P (s.slot b)) (hx : b = batchnum → P x)
    (h : s'.slot = Function.update s.slot batchnum x) : P (s'.slot b) := by
  rw [h]
  by_cases hb : b = batchnum
  · subst hb
    rw [Function.update_self]
    exact hx rfl
  · rwa [Function.update_of_ne hb]

theorem forall_update {P : MsrBatch → Prop} {s' : BatchStorage} {x : MsrBatch}
    (hs : ∀ b, P (s.slot b)) (hx : P x) (h : s'.slot = Function.update s.slot batchnum x) :
    ∀ b, P (s'.slot b) :=
  fun b => of_update (hs b) (fun _ => hx) h

end BatchStorage

/-! ### The calls as updates of the map -/

section Specs

variable {s s' : BatchStorage} {msr cpu i batchnum : Nat} {dest dest' : DestTable}
variable {pairs : List (Nat × Nat)}

theorem allocateBatch_of_lt (h : batchnum + 1 < 2 ^ 31) (bsize : Nat) :
    ∃ s', allocateBatch s batchnum bsize = some (0, s') ∧
      s'.slot = Function.update s.slot batchnum
        { s.slot batchnum with
          ops := some ⟨s.brk, List.replicate (bsize % 2 ^ 32) .zero⟩, size := bsize % 2 ^ 32 } := by
  obtain ⟨s', hs', hslot, hbrk, hset⟩ := BatchStorage.batchStorage_of_lt (s := s) h
  refine ⟨_, by rw [allocateBatch, hs', Option.map_some], ?_⟩
  rw [← hset, ← hslot, ← hbrk]
  rfl

/-- What an allocation that returns has done. -/
theorem allocateBatch_slot {bsize : Nat} {ret : Int}
    (h : allocateBatch s batchnum bsize = some (ret, s')) :
    batchnum + 1 < 2 ^ 31 ∧ s'.slot = Function.update s.slot batchnum
      { s.slot batchnum with
        ops := some ⟨s.brk, List.replicate (bsize % 2 ^ 32) .zero⟩, size := bsize % 2 ^ 32 } := by
  have hb : batchnum + 1 < 2 ^ 31 := by
    by_contra hge
    rw [allocateBatch, BatchStorage.batchStorage_of_ge (Nat.not_lt.mp hge)] at h
    cases h
  obtain ⟨s₁, hs₁, hslot⟩ := allocateBatch_of_lt (s := s) hb bsize
  obtain ⟨-, rfl⟩ := Prod.mk.inj (Option.some.inj (hs₁.symm.trans h))
  exact ⟨hb, hslot⟩

/-- The three outcomes of `create_batch_op`: refused, stored, stored outside
the array. -/
theorem createBatchOp_full (msr cpu : Nat) (dest : DestTable) (i : Nat)
    (h : batchnum + 1 < 2 ^ 31)
    (hfull : (s.slot batchnum).size < (s.slot batchnum).numops) :
    ∃ s', createBatchOp s msr cpu dest i batchnum
        = some (VariorumError.msrBatch.code, dest, s') ∧ s'.slot = s.slot := by
  obtain ⟨s', hs', hslot, -, -⟩ := BatchStorage.batchStorage_of_lt (s := s) h
  refine ⟨s', ?_, hslot⟩
  rw [← hslot] at hfull
  simp only [createBatchOp, hs', Option.bind_some, gt_iff_lt, hfull, if_true]

theorem createBatchOp_room (dest : DestTable) (i : Nat) (h : batchnum + 1 < 2 ^ 31)
    (hroom : (s.slot batchnum).numops ≤ (s.slot batchnum).size) {ptr : Dest} {x' : MsrBatch}
    (hadd : (s.slot batchnum).addOp msr cpu = some (ptr, x')) :
    ∃ s', createBatchOp s msr cpu dest i batchnum
        = some (0, Function.update dest i (some ptr), s') ∧
      s'.slot = Function.update s.slot batchnum x' := by
  obtain ⟨s', hs', hslot, -, hset⟩ := BatchStorage.batchStorage_of_lt (s := s) h
  refine ⟨s'.setSlot batchnum x', ?_, hset x'⟩
  rw [← hslot] at hroom hadd
  simp only [createBatchOp, hs', Option.bind_some, gt_iff_lt, Nat.not_lt.mpr hroom, if_false,
    hadd, Option.map_some]

theorem createBatchOp_fault (h : batchnum + 1 < 2 ^ 31)
    (hroom : (s.slot batchnum).numops ≤ (s.slot batchnum).size)
    (hadd : (s.slot batchnum).capacity ≤ (s.slot batchnum).numops) :
    createBatchOp s msr cpu dest i batchnum = none := by
  obtain ⟨s', hs', hslot, -, hset⟩ := BatchStorage.batchStorage_of_lt (s := s) h
  rw [← hslot] at hroom hadd
  simp only [createBatchOp, hs', Option.bind_some, gt_iff_lt, Nat.not_lt.mpr hroom, if_false,
    MsrBatch.addOp_eq_none_iff.mpr hadd, Option.map_none]

theorem createBatchOp_of_ge (h : 2 ^ 31 ≤ batchnum + 1) :
    createBatchOp s msr cpu dest i batchnum = none := by
  rw [createBatchOp, BatchStorage.batchStorage_of_ge h, Option.bind_none]

/-- Whatever `create_batch_op` does to the storage is either nothing or adding
one operation to the batch named. -/
theorem createBatchOp_slot {r : Int}
    (h : createBatchOp s msr cpu dest i batchnum = some (r, dest', s')) :
    s'.slot = s.slot ∨
      ∃ ptr x', (s.slot batchnum).addOp msr cpu = some (ptr, x') ∧
        s'.slot = Function.update s.slot batchnum x' := by
  rcases Nat.lt_or_ge (batchnum + 1) (2 ^ 31) with hb | hb
  · by_cases hfull : (s.slot batchnum).size < (s.slot batchnum).numops
    · obtain ⟨s₁, hs₁, hslot⟩ :=
        createBatchOp_full msr cpu dest i hb hfull
      obtain ⟨-, -, rfl⟩ : _ ∧ _ ∧ s₁ = s' := by simpa [hs₁] using h
      exact .inl hslot
    · rcases hadd : (s.slot batchnum).addOp msr cpu with - | ⟨ptr, x'⟩
      · rw [createBatchOp_fault hb (Nat.not_lt.mp hfull)
          (MsrBatch.addOp_eq_none_iff.mp hadd)] at h
        cases h
      · obtain ⟨s₁, hs₁, hslot⟩ :=
          createBatchOp_room dest i hb (Nat.not_lt.mp hfull) hadd
        obtain ⟨-, -, rfl⟩ : _ ∧ _ ∧ s₁ = s' := by simpa [hs₁] using h
        exact .inr ⟨ptr, x', rfl, hslot⟩
  · rw [createBatchOp_of_ge hb] at h
    cases h

/-- What adding an operation keeps of a batch, a loader keeps. -/
theorem loadLoop_keeps {P : MsrBatch → Prop}
    (hadd : ∀ {x cpu ptr x'}, P x → x.addOp msr cpu = some (ptr, x') → P x') {b : Nat}
    (hs : P (s.slot b)) (h : loadLoop msr batchnum pairs dest s = some (dest', s')) :
    P (s'.slot b) := by
  induction pairs generalizing dest s with
  | nil =>
      obtain ⟨-, rfl⟩ := Prod.mk.inj (Option.some.inj h)
      exact hs
  | cons p rest ih =>
      obtain ⟨⟨r, dest₁, s₁⟩, hs₁, hrest⟩ := Option.bind_eq_some_iff.mp h
      rcases createBatchOp_slot hs₁ with hslot | ⟨ptr, x', hx', hslot⟩
      · exact ih (hslot ▸ hs) hrest
      · refine ih (BatchStorage.of_update hs ?_ hslot) hrest
        rintro rfl
        exact hadd hs hx'

end Specs

/-! ### Carrying out: specifications

Neither path changes a direction flag while it works through the operations. -/

section Execution

variable {e : MsrEnv} {type : BatchType} {batchnum : Nat} {st : MsrState}
variable {ops : List MsrBatchOp}

theorem compatOp_isrdmsr (op : MsrBatchOp) (m : Machine) :
    (compatOp e type op m).1.isrdmsr = op.isrdmsr := by
  cases type <;> rfl

/-- What an iteration keeps of an operation, the loop keeps of each. -/
theorem compatLoop_map {γ : Type*} (f : MsrBatchOp → γ)
    (hf : ∀ op m, f (compatOp e type op m).1 = f op) (ops : List MsrBatchOp) (m : Machine) :
    (compatLoop e type ops m).1.map f = ops.map f := by
  induction ops generalizing m with
  | nil => rfl
  | cons op rest ih =>
      simp only [compatLoop, List.map_cons, hf, ih]

theorem compatLoop_flags (e : MsrEnv) (type : BatchType) (ops : List MsrBatchOp) (m : Machine) :
    (compatLoop e type ops m).1.map (·.isrdmsr) = ops.map (·.isrdmsr) :=
  compatLoop_map (·.isrdmsr) compatOp_isrdmsr ops m

theorem ioctlOp_isrdmsr (op : MsrBatchOp) (m : Machine) :
    (ioctlOp e op m).2.1.isrdmsr = op.isrdmsr := by
  unfold ioctlOp
  split
  · split <;> split <;> rfl
  · rfl

theorem ioctlLoop_map {γ : Type*} (f : MsrBatchOp → γ)
    (hf : ∀ op ∈ ops, ∀ m, f (ioctlOp e op m).2.1 = f op) (m : Machine) :
    (ioctlLoop e ops m).2.1.map f = ops.map f := by
  induction ops generalizing m with
  | nil => rfl
  | cons op rest ih =>
      obtain ⟨hop, hrest⟩ := List.forall_mem_cons.mp hf
      simp only [ioctlLoop, List.map_cons, hop, ih hrest]

theorem ioctlLoop_flags (e : MsrEnv) (ops : List MsrBatchOp) (m : Machine) :
    (ioctlLoop e ops m).2.1.map (·.isrdmsr) = ops.map (·.isrdmsr) :=
  ioctlLoop_map (·.isrdmsr) (fun op _ => ioctlOp_isrdmsr op) m

theorem switchFlags_length (ops : List MsrBatchOp) :
    (switchFlags type ops).length = ops.length := by
  cases ops with
  | nil => rfl
  | cons op rest => by_cases h : op.isrdmsr = type.flag <;> simp [switchFlags, h]

theorem compatLoop_length (ops : List MsrBatchOp) (m : Machine) :
    (compatLoop e type ops m).1.length = ops.length := by
  simpa using congrArg List.length (compatLoop_flags e type ops m)

theorem ioctlLoop_length (ops : List MsrBatchOp) (m : Machine) :
    (ioctlLoop e ops m).2.1.length = ops.length := by
  simpa using congrArg List.length (ioctlLoop_flags e ops m)

theorem doBatchOp_of_ge (h : 2 ^ 31 ≤ batchnum + 1) :
    doBatchOp e type batchnum st = none := by
  unfold doBatchOp compatibilityBatch
  rw [BatchStorage.batchStorage_of_ge h]
  split <;> rfl

theorem doBatchOp_of_not_live (hlive : (st.store.slot batchnum).live = none) :
    doBatchOp e type batchnum st = none := by
  rcases Nat.lt_or_ge (batchnum + 1) (2 ^ 31) with hb | hb
  · obtain ⟨s', hs', hslot, -, -⟩ := BatchStorage.batchStorage_of_lt (s := st.store) hb
    have hn : (st.store.slot batchnum).numops ≠ 0 := by
      intro h0
      obtain ⟨ops, hops⟩ := MsrBatch.live_of_le (x := st.store.slot batchnum) (by omega)
      rw [hlive] at hops
      cases hops
    simp [doBatchOp, compatibilityBatch, hs', hslot, hn, hlive]
  · exact doBatchOp_of_ge hb

/-- Through `msr_batch`, an empty batch is refused. -/
theorem doBatchOp_empty (type : BatchType) (hb : batchnum + 1 < 2 ^ 31) (hfd : e.batchfd = true)
    (hlive : (st.store.slot batchnum).live = some []) :
    ∃ s', doBatchOp e type batchnum st = some (-1, { st with store := s' }) ∧
      s'.slot = st.store.slot := by
  obtain ⟨s', hs', hslot, -, -⟩ := BatchStorage.batchStorage_of_lt (s := st.store) hb
  refine ⟨s', ?_, hslot⟩
  have hn : (st.store.slot batchnum).numops = 0 := (MsrBatch.live_length hlive).symm
  simp [doBatchOp, hfd, hs', hslot, hn]

/-- Through `msr_batch`, any other batch is submitted. -/
theorem doBatchOp_fast (type : BatchType) (hb : batchnum + 1 < 2 ^ 31) (hfd : e.batchfd = true)
    (hlive : (st.store.slot batchnum).live = some ops) (hne : ops ≠ []) :
    ∃ s', doBatchOp e type batchnum st
        = some (if (ioctlLoop e (switchFlags type ops) st.machine).1 then 0 else -1,
            ⟨s', (ioctlLoop e (switchFlags type ops) st.machine).2.2,
              st.ioctls ++ [⟨type, switchFlags type ops⟩]⟩) ∧
      s'.slot = Function.update st.store.slot batchnum
        ((st.store.slot batchnum).withLive
          (ioctlLoop e (switchFlags type ops) st.machine).2.1) := by
  obtain ⟨s', hs', hslot, -, hset⟩ := BatchStorage.batchStorage_of_lt (s := st.store) hb
  refine ⟨_, ?_, hset _⟩
  have hn : (st.store.slot batchnum).numops ≠ 0 := by
    rw [← MsrBatch.live_length hlive]
    exact fun h => hne (List.length_eq_zero_iff.mp h)
  simp [doBatchOp, hfd, hs', hslot, hn, hlive]

/-- Without it, the operations are carried out one by one and the call
succeeds. -/
theorem doBatchOp_slow (type : BatchType) (hb : batchnum + 1 < 2 ^ 31) (hfd : e.batchfd = false)
    (hlive : (st.store.slot batchnum).live = some ops) :
    ∃ s', doBatchOp e type batchnum st
        = some (0, { st with store := s', machine := (compatLoop e type ops st.machine).2 }) ∧
      s'.slot = Function.update st.store.slot batchnum
        ((st.store.slot batchnum).withLive (compatLoop e type ops st.machine).1) := by
  obtain ⟨s', hs', hslot, -, hset⟩ := BatchStorage.batchStorage_of_lt (s := st.store) hb
  refine ⟨_, ?_, hset _⟩
  simp [doBatchOp, compatibilityBatch, hfd, hs', hslot, hlive]

/-- The three ways in which `do_batch_op` comes back. -/
theorem doBatchOp_cases {ret : Int} {st' : MsrState}
    (h : doBatchOp e type batchnum st = some (ret, st')) :
    batchnum + 1 < 2 ^ 31 ∧ ∃ ops, (st.store.slot batchnum).live = some ops ∧
      (e.batchfd = false ∧ st'.ioctls = st.ioctls ∧
          st'.store.slot = Function.update st.store.slot batchnum
            ((st.store.slot batchnum).withLive (compatLoop e type ops st.machine).1) ∨
        e.batchfd = true ∧ ops = [] ∧ st'.ioctls = st.ioctls ∧ st'.store.slot = st.store.slot ∨
        e.batchfd = true ∧ ops ≠ [] ∧ st'.ioctls = st.ioctls ++ [⟨type, switchFlags type ops⟩] ∧
          st'.store.slot = Function.update st.store.slot batchnum
            ((st.store.slot batchnum).withLive
              (ioctlLoop e (switchFlags type ops) st.machine).2.1)) := by
  have hb : batchnum + 1 < 2 ^ 31 := by
    by_contra hge
    rw [doBatchOp_of_ge (Nat.not_lt.mp hge)] at h
    cases h
  rcases hlive : (st.store.slot batchnum).live with - | ops
  · rw [doBatchOp_of_not_live hlive] at h
    cases h
  refine ⟨hb, ops, rfl, ?_⟩
  cases hfd : e.batchfd with
  | false =>
      obtain ⟨s', hrun, hslot⟩ := doBatchOp_slow type hb hfd hlive
      obtain ⟨-, rfl⟩ := Prod.mk.inj (Option.some.inj (hrun.symm.trans h))
      exact .inl ⟨rfl, rfl, hslot⟩
  | true =>
      by_cases hne : ops = []
      · subst hne
        obtain ⟨s', hrun, hslot⟩ := doBatchOp_empty type hb hfd hlive
        obtain ⟨-, rfl⟩ := Prod.mk.inj (Option.some.inj (hrun.symm.trans h))
        exact .inr (.inl ⟨rfl, rfl, rfl, hslot⟩)
      · obtain ⟨s', hrun, hslot⟩ := doBatchOp_fast type hb hfd hlive hne
        obtain ⟨-, rfl⟩ := Prod.mk.inj (Option.some.inj (hrun.symm.trans h))
        exact .inr (.inr ⟨rfl, hne, rfl, hslot⟩)

/-- Every other batch is left alone. -/
theorem doBatchOp_slot_of_ne {ret : Int} {st' : MsrState}
    (h : doBatchOp e type batchnum st = some (ret, st')) {b : Nat} (hb : b ≠ batchnum) :
    st'.store.slot b = st.store.slot b := by
  obtain ⟨-, ops, -, ⟨-, -, hslot⟩ | ⟨-, -, -, hslot⟩ | ⟨-, -, -, hslot⟩⟩ := doBatchOp_cases h
  · rw [hslot, Function.update_of_ne hb]
  · rw [hslot]
  · rw [hslot, Function.update_of_ne hb]

/-- It comes back as long as the batch lies inside its array. -/
theorem doBatchOp_isSome (e : MsrEnv) (type : BatchType) (hb : batchnum + 1 < 2 ^ 31)
    (hlive : (st.store.slot batchnum).live = some ops) :
    ∃ ret st', doBatchOp e type batchnum st = some (ret, st') := by
  cases hfd : e.batchfd with
  | false =>
      obtain ⟨s', hrun, -⟩ := doBatchOp_slow type hb hfd hlive
      exact ⟨_, _, hrun⟩
  | true =>
      by_cases hne : ops = []
      · subst hne
        obtain ⟨s', hrun, -⟩ := doBatchOp_empty type hb hfd hlive
        exact ⟨_, _, hrun⟩
      · obtain ⟨s', hrun, -⟩ := doBatchOp_fast type hb hfd hlive hne
        exact ⟨_, _, hrun⟩

/-- What putting back as many operations with the same flags, or with switched
ones, keeps of every batch, `do_batch_op` keeps. -/
theorem doBatchOp_forall {P : MsrBatch → Prop}
    (hback : ∀ {x ops ops'}, P x → x.live = some ops → ops'.length = ops.length →
      (ops'.map (·.isrdmsr) = ops.map (·.isrdmsr) ∨
        ops'.map (·.isrdmsr) = (switchFlags type ops).map (·.isrdmsr)) → P (x.withLive ops'))
    {ret : Int} {st' : MsrState} (hs : ∀ b, P (st.store.slot b))
    (h : doBatchOp e type batchnum st = some (ret, st')) : ∀ b, P (st'.store.slot b) := by
  obtain ⟨-, ops, hlive, ⟨-, -, hslot⟩ | ⟨-, -, -, hslot⟩ | ⟨-, -, -, hslot⟩⟩ :=
    doBatchOp_cases h
  · refine BatchStorage.forall_update hs (hback (hs batchnum) hlive ?_ (.inl ?_)) hslot
    · exact compatLoop_length ops st.machine
    · exact compatLoop_flags e type ops st.machine
  · rwa [hslot]
  · refine BatchStorage.forall_update hs (hback (hs batchnum) hlive ?_ (.inr ?_)) hslot
    · rw [ioctlLoop_length, switchFlags_length]
    · exact ioctlLoop_flags e (switchFlags type ops) st.machine

end Execution

/-! ### Runs of calls -/

/-- A call of the batch interface. -/
inductive BatchCall
  | allocate (batchnum bsize : Nat)
  | create (msr cpu : Nat) (dest : DestTable) (i batchnum : Nat)
  | loadSocket (msr : Nat) (val : Option DestTable) (batchnum : Nat)
  | loadThread (msr : Nat) (val : Option DestTable) (batchnum : Nat)
  | read (batchnum : Nat)
  | write (batchnum : Nat)

/-- What a call answers: its return value, the caller's table if it was given
one, and the state after it. -/
structure BatchReply where
  ret : Int
  table : Option DestTable
  state : MsrState

namespace BatchCall

def run (e : MsrEnv) (st : MsrState) : BatchCall → Option BatchReply
  | allocate batchnum bsize =>
      (allocateBatch st.store batchnum bsize).map fun (ret, s) =>
        ⟨ret, none, { st with store := s }⟩
  | create msr cpu dest i batchnum =>
      (createBatchOp st.store msr cpu dest i batchnum).map fun (ret, dest', s) =>
        ⟨ret, some dest', { st with store := s }⟩
  | loadSocket msr val batchnum =>
      (loadSocketBatch e.topo st.store msr val batchnum).map fun (ret, val', s) =>
        ⟨ret, val', { st with store := s }⟩
  | loadThread msr val batchnum =>
      (loadThreadBatch e.topo st.store msr val batchnum).map fun (ret, val', s) =>
        ⟨ret, val', { st with store := s }⟩
  | read batchnum =>
      (readBatch e batchnum st).map fun (ret, st') => ⟨ret, none, st'⟩
  | write batchnum =>
      (writeBatch e batchnum st).map fun (ret, st') => ⟨ret, none, st'⟩

/-- The state after a call. -/
def step (e : MsrEnv) (st : MsrState) (c : BatchCall) : Option MsrState :=
  (c.run e st).map (·.state)

end BatchCall

/-- No batch allocated, no ioctl issued. -/
def MsrState.start (m : Machine) : MsrState := ⟨.start, m, []⟩

end Variorum
