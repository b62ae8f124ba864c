/-
Variorum/BatchLoad.lean

Two ways to the same registers: the loaders of batches, which number devices in
a loop and hand out pointers into the batch, and `read_msr_by_coord`, which
flattens a coordinate.

`load_socket_batch` and `load_thread_batch` are one loop over pairs of a device
and a table index (`BatchLoad.pairs`).  `loadAll_loaded` says what any number
of loads make of a fresh batch: their operations one after the other, and in
each caller's table the address of the operation for its device, which later
loads do not move.  After a batch read in which nothing was refused the
operation for device `n` holds the register of CPU `n % 2^16`, since its `cpu`
field has 16 bits (`loaded_value`); a single read at a coordinate finds that of
the CPU that `devidx` gives.  The two agree exactly where the numbers do
(`batchLoading_iff`).
-/
import Variorum.BatchCapacity
import Variorum.BatchImage

namespace Variorum

open History

/-! ### Loads -/

/-- A call of one of the two loaders. -/
inductive BatchLoad
  | socket (msr : BitVec 32)
  | thread (msr : BitVec 32)

namespace BatchLoad

def msr : BatchLoad → Nat
  | socket msr => msr.toNat
  | thread msr => msr.toNat

/-- The operations the call adds: the device and the index into the table. -/
def pairs (t : Topology) : BatchLoad → List (Nat × Nat)
  | socket _ => socketLoop t t.ncores 0 0
  | thread _ => (List.range t.nthreads).map fun i => (i, i)

/-- The device for index `i`. -/
def dev (t : Topology) : BatchLoad → Nat → Nat
  | socket _, i => i * t.coresPerSocket
  | thread _, i => i

/-- One operation for each socket, or one for each hardware thread. -/
def count (t : Topology) : BatchLoad → Nat
  | socket _ => t.nsockets
  | thread _ => t.nthreads

/-- The call, with the caller's table. -/
def run (t : Topology) (batchnum : Nat) (s : BatchStorage) (val : DestTable) :
    BatchLoad → Option (Int × Option DestTable × BatchStorage)
  | socket msr => loadSocketBatch t s msr.toNat (some val) batchnum
  | thread msr => loadThreadBatch t s msr.toNat (some val) batchnum

end BatchLoad

/-- Loads into one batch, one after the other, each with a table of its own. -/
def loadAll (t : Topology) (batchnum : Nat) :
    List (BatchLoad × DestTable) → BatchStorage → Option (List DestTable × BatchStorage)
  | [], s => some ([], s)
  | (load, val) :: rest, s =>
      match load.run t batchnum s val with
      | some (_, some val', s') =>
          (loadAll t batchnum rest s').map fun (vals, s'') => (val' :: vals, s'')
      | _ => none

/-- The operations that loads add, all told. -/
def loadCount (t : Topology) (loads : List (BatchLoad × DestTable)) : Nat :=
  (loads.map fun l => l.1.count t).sum

/-- What a pointer into the batch points to. -/
def deref (s : BatchStorage) (batchnum : Nat) (ptr : Dest) : Option (BitVec 64) :=
  (s.slot batchnum).ops.bind fun a =>
    if a.addr = ptr.1 then a.cells[ptr.2]?.map (·.msrdata) else none

/-- The value that `read_msr_by_coord` returns when it is not refused. -/
def coordValue (t : Topology) (m : Machine) (socket core thread : BitVec 32) (msr : Nat) :
    Option (BitVec 64) :=
  match readMsrByCoord t ⟨fun _ _ => false⟩ socket core thread msr (some 0) m with
  | (0, val, _) => val
  | _ => none

/-- Through the table of a load, every socket's value, or every coordinate's, is
the one a single read from `m` returns. -/
def BatchLoad.Agrees (t : Topology) (s : BatchStorage) (batchnum : Nat) (val : DestTable)
    (m : Machine) : BatchLoad → Prop
  | .socket msr => ∀ i < t.nsockets,
      ∃ v, coordValue t m (BitVec.ofNat 32 i) 0#32 0#32 msr.toNat = some v ∧
        (val i).bind (deref s batchnum) = some v
  | .thread msr => ∀ i j k : BitVec 32, t.Valid i.toNat j.toNat k.toNat →
      ∃ v, coordValue t m i j k msr.toNat = some v ∧
        (val (devidx t i j k).toNat).bind (deref s batchnum) = some v

/-- Batch loading agrees with single reads, whichever way batches are carried
out: into a fresh batch of sufficient size any loads add exactly their
operations, and what a batch read with nothing refused leaves behind their
tables is what single reads return. -/
structure BatchLoading (t : Topology) : Prop where
  /-- The loop of `load_socket_batch` ends by itself. -/
  ends : ∀ fuel, t.ncores ≤ fuel → (socketLoop t fuel 0 0).length = t.nsockets
  agrees : ∀ e : MsrEnv, e.topo = t → ∀ s batchnum bsize s₁,
    s.slot batchnum = .empty → allocateBatch s batchnum bsize = some (0, s₁) →
    ∀ loads, loadCount t loads ≤ bsize % 2 ^ 32 →
      ∃ vals s₂, loadAll t batchnum loads s₁ = some (vals, s₂) ∧
        (s₂.slot batchnum).numops = loadCount t loads ∧
        (loads ≠ [] → ∀ m ioctls, ∃ ret st',
          readBatch e batchnum ⟨s₂, m, ioctls⟩ = some (ret, st') ∧
          (m.Clean e.driver st'.machine →
            ∀ p ∈ (loads.map Prod.fst).zip vals, p.1.Agrees t st'.store batchnum p.2 m))

/-! ### What loads leave -/

/-- The operations of loads, in order. -/
def loadedOps (t : Topology) (loads : List (BatchLoad × DestTable)) : List MsrBatchOp :=
  loads.flatMap fun l => (l.1.pairs t).map fun p => .fill .zero l.1.msr p.1

/-- Behind each index of the table stands the register of the CPU that the 16
bits of a `cpu` field make of the device. -/
def BatchLoad.Finds (t : Topology) (s : BatchStorage) (batchnum : Nat) (val : DestTable)
    (m : Machine) (load : BatchLoad) : Prop :=
  ∀ i < load.count t,
    (val i).bind (deref s batchnum) = some (m.msr (load.dev t i % 2 ^ 16) load.msr)

/-- Behind each index of the table stands the operation for its device. -/
def PointsTo (t : Topology) (addr : Nat) (ops : List MsrBatchOp) (load : BatchLoad)
    (val : DestTable) : Prop :=
  ∀ i < load.count t, ∃ k, val i = some (addr, k) ∧
    (ops.map (·.register))[k]? = some (load.dev t i % 2 ^ 16, load.msr)

section Loads

variable {t : Topology} {s s₁ : BatchStorage} {addr room batchnum : Nat}
variable {ops : List MsrBatchOp} {load : BatchLoad} {loads : List (BatchLoad × DestTable)}

theorem BatchLoad.pairs_eq (t : Topology) (load : BatchLoad) :
    load.pairs t = (List.range (load.count t)).map fun i => (load.dev t i, i) := by
  cases load with
  | socket msr => exact socketLoop_eq t t.nsockets_le
  | thread msr => rfl

theorem BatchLoad.pairs_getElem? {i : Nat} (hi : i < load.count t) :
    (load.pairs t)[i]? = some (load.dev t i, i) := by
  rw [load.pairs_eq t, List.getElem?_map, List.getElem?_range hi]
  rfl

theorem BatchLoad.dev_lt {i : Nat} (hi : i < load.count t) : load.dev t i < t.nthreads := by
  cases load with
  | socket msr =>
      show i * t.coresPerSocket < t.nthreads
      rw [← Topology.cpu_socket]
      exact (Topology.valid_socket hi).cpu_lt
  | thread msr => exact hi

theorem BatchLoad.pairs_length (t : Topology) (load : BatchLoad) :
    (load.pairs t).length = load.count t := by
  rw [load.pairs_eq t, List.length_map, List.length_range]

theorem BatchLoad.pairs_nodup (t : Topology) (load : BatchLoad) :
    ((load.pairs t).map (·.2)).Nodup := by
  rw [load.pairs_eq t, List.map_map]
  exact (List.map_id _).symm ▸ List.nodup_range

theorem BatchLoad.count_le (t : Topology) (load : BatchLoad) : load.count t ≤ t.nthreads := by
  cases load with
  | socket msr => exact t.nsockets_le.trans t.ncores_le
  | thread msr => exact Nat.le_refl _

theorem BatchLoad.count_pos (t : Topology) (load : BatchLoad) : 0 < load.count t := by
  cases load with
  | socket msr => exact t.nsockets_pos
  | thread msr => exact t.nthreads_pos

/-- Both loaders are the one loop. -/
theorem BatchLoad.run_eq (t : Topology) (batchnum : Nat) (s : BatchStorage) (val : DestTable)
    (load : BatchLoad) :
    load.run t batchnum s val = (loadLoop load.msr batchnum (load.pairs t) val s).map
      fun (val', s') => (0, some val', s') := by
  cases load <;> rfl

theorem length_loadedOps (t : Topology) (loads : List (BatchLoad × DestTable)) :
    (loadedOps t loads).length = loadCount t loads := by
  unfold loadedOps loadCount
  rw [List.length_flatMap]
  congr 1
  apply List.map_congr_left
  intro l _
  rw [List.length_map, BatchLoad.pairs_length]

theorem BatchLoad.fill_register (load : BatchLoad) (dev : Nat) :
    (MsrBatchOp.fill .zero load.msr dev).register = (dev % 2 ^ 16, load.msr) := by
  have hmsr : load.msr < 2 ^ 32 := by cases load <;> exact BitVec.isLt _
  show ((BitVec.ofNat 16 dev).toNat, (BitVec.ofNat 32 load.msr).toNat) = _
  rw [BitVec.toNat_ofNat, BitVec.toNat_ofNat, Nat.mod_eq_of_lt hmsr]

/-- Later operations do not move earlier ones. -/
theorem PointsTo.append {val : DestTable} (h : PointsTo t addr ops load val)
    (more : List MsrBatchOp) : PointsTo t addr (ops ++ more) load val := by
  intro i hi
  obtain ⟨k, hval, hget⟩ := h i hi
  have hk : k < (ops.map (·.register)).length := (List.getElem?_eq_some_iff.mp hget).1
  refine ⟨k, hval, ?_⟩
  rw [List.map_append, List.getElem?_append_left hk, hget]

/-- Nor does carrying them out. -/
theorem PointsTo.of_register {val : DestTable} {ops' : List MsrBatchOp}
    (h : PointsTo t addr ops load val)
    (hreg : ops'.map (·.register) = ops.map (·.register)) : PointsTo t addr ops' load val := by
  intro i hi
  rw [hreg]
  exact h i hi

/-- **Loads into a batch with room**, by induction on the loads: their operations
go behind those that are there, and every table points to its own. -/
theorem loadAll_loaded (hb : batchnum + 1 < 2 ^ 31)
    (hs : s.slot batchnum = .loaded addr ops (loadCount t loads + room)) :
    ∃ vals s', loadAll t batchnum loads s = some (vals, s') ∧ vals.length = loads.length ∧
      s'.slot batchnum = .loaded addr (ops ++ loadedOps t loads) room ∧
      ∀ p ∈ (loads.map Prod.fst).zip vals, PointsTo t addr (ops ++ loadedOps t loads) p.1 p.2 := by
  -- by induction on the loads: each fills the next operations of the batch, in their order
  induction loads generalizing s ops with
  | nil =>
      refine ⟨[], s, rfl, rfl, ?_, by simp⟩
      rw [hs]
      simp [loadCount, loadedOps]
  | cons l rest ih =>
      obtain ⟨load, val⟩ := l
      have hcount : loadCount t ((load, val) :: rest) + room
          = (load.pairs t).length + (loadCount t rest + room) := by
        rw [load.pairs_length]
        exact Nat.add_assoc _ _ _
      rw [hcount] at hs
      obtain ⟨val', s₁, hload, hslot, -, hdest⟩ :=
        loadLoop_loaded load.msr val hb hs (load.pairs_nodup t)
      obtain ⟨vals, s', hrest, hlen, hslot', hvals⟩ := ih hslot
      have hops : ops ++ loadedOps t ((load, val) :: rest)
          = ops ++ ((load.pairs t).map fun p => .fill .zero load.msr p.1) ++ loadedOps t rest := by
        rw [List.append_assoc]
        rfl
      refine ⟨val' :: vals, s', ?_, congrArg (· + 1) hlen, hops ▸ hslot', ?_⟩
      · rw [loadAll, load.run_eq, hload]
        simp only [Option.map_some, hrest]
      · rw [hops]
        rw [List.map_cons, List.zip_cons_cons]
        refine List.forall_mem_cons.mpr ⟨?_, hvals⟩
        -- the operations of the later loads come behind, so the places stay as they are
        apply PointsTo.append
        intro i hi
        have hget : (load.pairs t)[i]? = some (load.dev t i, i) := load.pairs_getElem? hi
        refine ⟨ops.length + i, hdest i _ hget, ?_⟩
        rw [List.getElem?_map, List.getElem?_append_right (Nat.le_add_right _ _),
          Nat.add_sub_cancel_left, List.getElem?_map, hget, ← load.fill_register]
        rfl

/-- A load leaves every other batch alone. -/
theorem loadLoop_slot_of_ne {msr : Nat} {pairs : List (Nat × Nat)} {dest dest' : DestTable}
    (h : loadLoop msr batchnum pairs dest s = some (dest', s₁)) {b : Nat} (hb : b ≠ batchnum) :
    s₁.slot b = s.slot b := by
  induction pairs generalizing dest s with
  | nil =>
      obtain ⟨-, rfl⟩ := Prod.mk.inj (Option.some.inj h)
      rfl
  | cons p rest ih =>
      obtain ⟨⟨r, dest₁, s'⟩, hs', hrest⟩ := Option.bind_eq_some_iff.mp h
      rw [ih hrest]
      rcases createBatchOp_slot hs' with hslot | ⟨ptr, x', -, hslot⟩
      · rw [hslot]
      · rw [hslot, Function.update_of_ne hb]

theorem loadAll_slot_of_ne {vals : List DestTable}
    (h : loadAll t batchnum loads s = some (vals, s₁)) {b : Nat} (hb : b ≠ batchnum) :
    s₁.slot b = s.slot b := by
  induction loads generalizing s vals with
  | nil =>
      obtain ⟨-, rfl⟩ := Prod.mk.inj (Option.some.inj h)
      rfl
  | cons l rest ih =>
      obtain ⟨load, val⟩ := l
      rw [loadAll, load.run_eq] at h
      cases hrun : loadLoop load.msr batchnum (load.pairs t) val s with
      | none =>
          rw [hrun] at h
          cases h
      | some r =>
          rw [hrun] at h
          obtain ⟨⟨vals', s'⟩, hrest, heq⟩ := Option.map_eq_some_iff.mp h
          obtain ⟨-, rfl⟩ := Prod.mk.inj heq
          rw [ih hrest, loadLoop_slot_of_ne hrun hb]

/-- The operations of loads read, and name CPUs of the node. -/
theorem loadedOps_uniform (t : Topology) (loads : List (BatchLoad × DestTable)) :
    Uniform t (loadedOps t loads) := by
  have hmem : ∀ op ∈ loadedOps t loads,
      ∃ load p, p ∈ BatchLoad.pairs t load ∧ op = .fill .zero load.msr p.1 := by
    intro op hop
    obtain ⟨l, -, hl⟩ := List.mem_flatMap.mp hop
    obtain ⟨p, hp, rfl⟩ := List.mem_map.mp hl
    exact ⟨l.1, p, hp, rfl⟩
  refine ⟨?_, true, ?_⟩
  · intro op hop
    obtain ⟨load, p, hp, rfl⟩ := hmem op hop
    rw [load.pairs_eq t] at hp
    obtain ⟨i, hi, rfl⟩ := List.mem_map.mp hp
    show (BitVec.ofNat 16 (load.dev t i)).toNat < t.nthreads
    rw [BitVec.toNat_ofNat]
    exact (Nat.mod_le _ _).trans_lt (BatchLoad.dev_lt (List.mem_range.mp hi))
  · intro op hop
    obtain ⟨load, p, -, rfl⟩ := hmem op hop
    rfl

end Loads

/-! ### What a read finds -/

section Reading

variable {e : MsrEnv} {t : Topology} {s : BatchStorage} {addr room batchnum : Nat}
variable {ops ops' : List MsrBatchOp} {m : Machine}

theorem MsrBatch.withLive_loaded (addr : Nat) (ops ops' : List MsrBatchOp) (room : Nat)
    (hlen : ops'.length = ops.length) :
    (MsrBatch.loaded addr ops room).withLive ops' = .loaded addr ops' room := by
  simp [withLive, loaded, hlen]

theorem deref_loaded (hs : s.slot batchnum = .loaded addr ops room) {k : Nat}
    (hk : k < ops.length) : deref s batchnum (addr, k) = ops[k]?.map (·.msrdata) := by
  simp [deref, hs, MsrBatch.loaded, List.getElem?_append_left hk]

theorem readOps_length (hu : Uniform e.topo ops) (m : Machine) :
    (readOps e ops m).1.length = ops.length := by
  have hmap := congrArg List.length (readOps_image hu m).register
  rwa [List.length_map, List.length_map] at hmap

/-- A batch read of a loaded batch, on either path. -/
theorem readBatch_loaded (m : Machine) (ioctls : List Submission) (hb : batchnum + 1 < 2 ^ 31)
    (hne : ops ≠ [])
    (hs : s.slot batchnum = .loaded addr ops room) (hu : Uniform e.topo ops) :
    ∃ ret st', readBatch e batchnum ⟨s, m, ioctls⟩ = some (ret, st') ∧
      st'.machine = (readOps e ops m).2 ∧
      st'.store.slot
        = Function.update s.slot batchnum (.loaded addr (readOps e ops m).1 room) := by
  have hlen := readOps_length hu m
  have hlive : ((⟨s, m, ioctls⟩ : MsrState).store.slot batchnum).live = some ops := by
    rw [hs, MsrBatch.loaded_live]
  have hwith := MsrBatch.withLive_loaded addr ops _ room hlen
  rw [← hs] at hwith
  rw [← hwith]
  cases hfd : e.batchfd with
  | true =>
      obtain ⟨s', hrun, hslot⟩ :=
        doBatchOp_fast .read hb hfd hlive hne
      refine ⟨_, _, hrun, ?_, ?_⟩
      · rw [readOps, hfd, if_pos rfl]
      · rw [readOps, hfd, if_pos rfl]
        exact hslot
  | false =>
      obtain ⟨s', hrun, hslot⟩ := doBatchOp_slow .read hb hfd hlive
      refine ⟨_, _, hrun, ?_, ?_⟩
      · rw [readOps, hfd, if_neg Bool.false_ne_true]
      · rw [readOps, hfd, if_neg Bool.false_ne_true]
        exact hslot

/-- With nothing refused, an operation holds its register. -/
theorem readOps_value (hu : Uniform e.topo ops)
    (hclean : m.Clean e.driver (readOps e ops m).2) {k : Nat} {op : MsrBatchOp}
    (hk : ops[k]? = some op) :
    (readOps e ops m).1[k]?.map (·.msrdata) = some (m.msr op.cpu.toNat op.msr.toNat) := by
  obtain ⟨hmachine, -, hdata⟩ := readOps_image hu m
  have hlog : (readOps e ops m).2.log = m.log ++ ops.map (·.readAccess) := by rw [hmachine]
  rw [Machine.Clean, hlog, clean_append_iff] at hclean
  have hok : e.driver.fails (m.log.length + k) op.readAccess = false := by
    apply accepted_getElem hclean
    rw [List.getElem?_map, hk]
    rfl
  rw [← List.getElem?_map, hdata, image, List.getElem?_mapIdx, hk]
  simp [hok]

/-- **What a load's table points to** after a batch read with nothing refused:
behind the entry for device `n`, the register of CPU `n % 2^16`. -/
theorem loaded_value {load : BatchLoad} {val : DestTable} (hu : Uniform e.topo ops)
    (hclean : m.Clean e.driver (readOps e ops m).2)
    (hs : s.slot batchnum = .loaded addr (readOps e ops m).1 room)
    (hval : PointsTo t addr ops load val) : load.Finds t s batchnum val m := by
  intro i hi
  obtain ⟨k, hptr, hget⟩ := hval i hi
  rw [List.getElem?_map, Option.map_eq_some_iff] at hget
  obtain ⟨op, hop, hreg⟩ := hget
  have hlen := readOps_length hu m
  have hk : k < ops.length := (List.getElem?_eq_some_iff.mp hop).1
  obtain ⟨hcpu, hmsr⟩ := Prod.mk.inj hreg
  rw [hptr, Option.bind_some, deref_loaded hs (hlen.symm ▸ hk), readOps_value hu hclean hop,
    hcpu, hmsr]

/-- What a single read finds at a valid coordinate. -/
theorem coordValue_of_valid {i j k : BitVec 32} (h : t.Valid i.toNat j.toNat k.toNat)
    (m : Machine) (msr : Nat) :
    coordValue t m i j k msr = some (m.msr (flatIndex t i j k) msr) := by
  show (match CoordCall.run t ⟨fun _ _ => false⟩ i j k msr m (.read (some 0)) with
    | (0, val, _) => val
    | _ => none) = _
  rw [CoordCall.run_of_lt (flatIndex_lt_nthreads t i j k h)]
  rfl

end Reading

section Fresh

variable {t : Topology} {loads : List (BatchLoad × DestTable)}

/-- Loads into a fresh batch. -/
theorem loadAll_fresh {s s₁ : BatchStorage} {batchnum bsize : Nat}
    (hempty : s.slot batchnum = .empty)
    (hs₁ : allocateBatch s batchnum bsize = some (0, s₁))
    (hroom : loadCount t loads ≤ bsize % 2 ^ 32) :
    batchnum + 1 < 2 ^ 31 ∧ ∃ vals s₂, loadAll t batchnum loads s₁ = some (vals, s₂) ∧
      vals.length = loads.length ∧
      s₂.slot batchnum
        = .loaded s.brk (loadedOps t loads) (bsize % 2 ^ 32 - loadCount t loads) ∧
      ∀ p ∈ (loads.map Prod.fst).zip vals, PointsTo t s.brk (loadedOps t loads) p.1 p.2 := by
  obtain ⟨hb, hslot⟩ := allocateBatch_slot hs₁
  have hloaded : s₁.slot batchnum
      = .loaded s.brk [] (loadCount t loads + (bsize % 2 ^ 32 - loadCount t loads)) := by
    rw [hslot, Function.update_self, hempty, Nat.add_sub_cancel' hroom]
    simp [MsrBatch.loaded, MsrBatch.empty]
  exact ⟨hb, loadAll_loaded hb hloaded⟩

/-- Loads into a fresh batch, and a batch read after them. -/
theorem loadAll_read {e : MsrEnv} (he : e.topo = t) {s s₁ : BatchStorage}
    {batchnum bsize : Nat} (hempty : s.slot batchnum = .empty)
    (hs₁ : allocateBatch s batchnum bsize = some (0, s₁))
    (hroom : loadCount t loads ≤ bsize % 2 ^ 32) :
    ∃ vals s₂, loadAll t batchnum loads s₁ = some (vals, s₂) ∧
      vals.length = loads.length ∧
      (s₂.slot batchnum).numops = loadCount t loads ∧
      (loads ≠ [] → ∀ m ioctls, ∃ ret st',
        readBatch e batchnum ⟨s₂, m, ioctls⟩ = some (ret, st') ∧
        m.log <+: st'.machine.log ∧
        (m.Clean e.driver st'.machine →
          ∀ p ∈ (loads.map Prod.fst).zip vals, p.1.Finds t st'.store batchnum p.2 m)) := by
  subst he
  obtain ⟨hb, vals, s₂, hload, hlen, hslot, hpoints⟩ := loadAll_fresh hempty hs₁ hroom
  refine ⟨vals, s₂, hload, hlen, ?_, ?_⟩
  · rw [hslot]
    exact length_loadedOps e.topo loads
  · intro hne m ioctls
    have hu := loadedOps_uniform e.topo loads
    have hops : loadedOps e.topo loads ≠ [] := by
      rw [← List.length_pos_iff, length_loadedOps]
      obtain ⟨l, rest, rfl⟩ := List.exists_cons_of_ne_nil hne
      exact Nat.add_pos_left (l.1.count_pos e.topo) _
    obtain ⟨ret, st', hread, hmachine, hslot'⟩ :=
      readBatch_loaded m ioctls hb hops hslot hu
    refine ⟨ret, st', hread, ?_, ?_⟩
    · rw [hmachine, (readOps_image hu m).machine]
      exact List.prefix_append _ _
    · intro hclean p hp
      rw [hmachine] at hclean
      have hself := congrFun hslot' batchnum
      rw [Function.update_self] at hself
      exact loaded_value hu hclean hself (hpoints p hp)

end Fresh

/-! ### Where the two agree -/

/-- The numbers agree: the device of a socket, in the 16 bits of a `cpu` field,
is what `devidx` makes of the socket, and what `devidx` makes of any coordinate
fits in 16 bits. -/
structure BatchFits (t : Topology) : Prop where
  socket : ∀ i < t.nsockets, i * t.coresPerSocket % 2 ^ 16 = socketIndex t i
  thread : ∀ i j k : BitVec 32, t.Valid i.toNat j.toNat k.toNat → flatIndex t i j k < 2 ^ 16

section Agreement

variable {t : Topology}

/-- A coordinate of the node fits in three words. -/
theorem Topology.Valid.toWords {socket core thread : Nat} (h : t.Valid socket core thread) :
    (BitVec.ofNat 32 socket).toNat = socket ∧ (BitVec.ofNat 32 core).toNat = core ∧
      (BitVec.ofNat 32 thread).toNat = thread := by
  have ht := t.nthreads_lt
  have hn := t.nsockets_lt
  have hc : t.coresPerSocket ≤ t.ncores := Nat.div_le_self _ _
  have hk : t.threadsPerCore ≤ t.nthreads := Nat.div_le_self _ _
  have hnc := t.ncores_le
  obtain ⟨hs, hcore, hthread⟩ := h
  simp only [BitVec.toNat_ofNat]
  omega

/-- Where the last socket does not overflow `devidx`, the numbers agree on nodes
of up to 65536 hardware threads. -/
theorem batchFits_iff (hfit : (t.nsockets - 1) * t.ncores < 2 ^ 32) :
    BatchFits t ↔ t.nthreads ≤ 2 ^ 16 := by
  have hflat : ∀ i j k : BitVec 32, t.Valid i.toNat j.toNat k.toNat →
      flatIndex t i j k = t.cpu i.toNat j.toNat k.toNat := by
    intro i j k h
    apply flatIndex_of_valid t i j k h
    exact (Nat.mul_le_mul_right _ (by have := h.1; omega)).trans_lt hfit
  constructor
  · intro hfits
    by_contra hmany
    -- CPU 65536 has a coordinate
    obtain ⟨i, j, k, hv, hcpu⟩ := Topology.exists_cpu (t := t) (c := 2 ^ 16) (by omega)
    obtain ⟨hi, hj, hk⟩ := hv.toWords
    have hv' : t.Valid (BitVec.ofNat 32 i).toNat (BitVec.ofNat 32 j).toNat
        (BitVec.ofNat 32 k).toNat := by rwa [hi, hj, hk]
    have hlt := hfits.thread _ _ _ hv'
    rw [hflat _ _ _ hv', hi, hj, hk, hcpu] at hlt
    exact Nat.lt_irrefl _ hlt
  · intro hfew
    refine ⟨?_, ?_⟩
    · intro i hi
      have hcpu := (Topology.valid_socket hi).cpu_lt
      rw [socketIndex_of_last_fits hfit hi, ← Topology.cpu_socket]
      exact Nat.mod_eq_of_lt (by omega)
    · intro i j k h
      rw [hflat i j k h]
      exact h.cpu_lt.trans_le hfew

/-- A load agrees with single reads if the numbers agree. -/
theorem BatchLoad.agrees_of_fits (hfits : BatchFits t) {s : BatchStorage} {batchnum : Nat}
    {m : Machine} {load : BatchLoad} {val : DestTable} (hval : load.Finds t s batchnum val m) :
    load.Agrees t s batchnum val m := by
  cases load with
  | socket msr =>
      intro i hi
      have hv : t.Valid (BitVec.ofNat 32 i).toNat (0#32).toNat (0#32).toNat :=
        (socket_toNat hi).symm ▸ Topology.valid_socket hi
      refine ⟨_, coordValue_of_valid hv m _, ?_⟩
      have hfound := hval i hi
      rw [show (BatchLoad.socket msr).dev t i = i * t.coresPerSocket from rfl,
        hfits.socket i hi] at hfound
      exact hfound
  | thread msr =>
      intro i j k h
      refine ⟨_, coordValue_of_valid h m _, ?_⟩
      have hfound := hval _ (flatIndex_lt_nthreads t i j k h)
      rw [show (BatchLoad.thread msr).dev t (flatIndex t i j k) = flatIndex t i j k from rfl,
        Nat.mod_eq_of_lt (hfits.thread i j k h)] at hfound
      rw [devidx_toNat]
      exact hfound

/-- The contents by which CPUs are told apart. -/
def cpuNumbers : Machine := ⟨fun cpu _ => BitVec.ofNat 64 cpu, []⟩

theorem cpuNumbers_inj {a b msr : Nat} (ha : a < t.nthreads) (hb : b < t.nthreads)
    (h : cpuNumbers.msr a msr = cpuNumbers.msr b msr) : a = b := by
  have ht := t.nthreads_lt
  have hnat := congrArg BitVec.toNat h
  simp only [cpuNumbers, BitVec.toNat_ofNat] at hnat
  omega

/-- One load into the first batch of a process, then a read. -/
theorem load_agrees (hlaw : BatchLoading t) (load : BatchLoad) :
    ∃ s val, load.Finds t s 0 val cpuNumbers ∧ load.Agrees t s 0 val cpuNumbers := by
  have ht := t.nthreads_lt
  have hcount := load.count_le t
  let e : MsrEnv := ⟨t, ⟨fun _ _ => false⟩, true⟩
  obtain ⟨s₁, hs₁, -⟩ := allocateBatch_of_lt (s := .start) (by decide : 0 + 1 < 2 ^ 31) t.nthreads
  have hroom : loadCount t [(load, fun _ => none)] ≤ t.nthreads % 2 ^ 32 := by
    rw [Nat.mod_eq_of_lt (by omega)]
    simpa [loadCount] using hcount
  obtain ⟨vals, s₂, hload, hlen, -, hread⟩ :=
    loadAll_read (e := e) rfl rfl hs₁ hroom
  obtain ⟨vals', s₂', hload', -, hagree⟩ := hlaw.agrees e rfl _ _ _ _ rfl hs₁ _ hroom
  obtain ⟨rfl, rfl⟩ := Prod.mk.inj (Option.some.inj (hload.symm.trans hload'))
  obtain ⟨ret, st', hst', hgrow, hfinds⟩ := hread (by simp) cpuNumbers []
  obtain ⟨ret', st'', hst'', hagrees⟩ := hagree (by simp) cpuNumbers []
  obtain ⟨-, rfl⟩ := Prod.mk.inj (Option.some.inj (hst'.symm.trans hst''))
  have hclean : cpuNumbers.Clean e.driver st'.machine := clean_of_never (fun _ _ => rfl) hgrow
  obtain ⟨val, rfl⟩ := List.length_eq_one_iff.mp hlen
  have hmem : (load, val) ∈ [load].zip [val] := by simp
  exact ⟨st'.store, val, hfinds hclean _ hmem, hagrees hclean _ hmem⟩

/-- Where they agree on every machine, the numbers agree. -/
theorem BatchLoading.fits (hlaw : BatchLoading t) : BatchFits t := by
  refine ⟨?_, ?_⟩
  · intro i hi
    have hv : t.Valid (BitVec.ofNat 32 i).toNat (0#32).toNat (0#32).toNat :=
      (socket_toNat hi).symm ▸ Topology.valid_socket hi
    obtain ⟨s, val, hfinds, hagrees⟩ := load_agrees hlaw (.socket 0#32)
    obtain ⟨v, hsingle, hbatch⟩ := hagrees i hi
    rw [hfinds i hi, ← hsingle, coordValue_of_valid hv] at hbatch
    have hdev : (BatchLoad.socket 0#32).dev t i < t.nthreads := BatchLoad.dev_lt hi
    exact cpuNumbers_inj (t := t) ((Nat.mod_le _ _).trans_lt hdev) (socketIndex_lt hi)
      (Option.some.inj hbatch)
  · intro i j k h
    have hlt := flatIndex_lt_nthreads t i j k h
    obtain ⟨s, val, hfinds, hagrees⟩ := load_agrees hlaw (.thread 0#32)
    obtain ⟨v, hsingle, hbatch⟩ := hagrees i j k h
    rw [devidx_toNat, hfinds _ hlt, ← hsingle, coordValue_of_valid h] at hbatch
    have hdev : (BatchLoad.thread 0#32).dev t (flatIndex t i j k) < t.nthreads := hlt
    have heq := cpuNumbers_inj (t := t) ((Nat.mod_le _ _).trans_lt hdev) hlt
      (Option.some.inj hbatch)
    rw [← heq]
    exact Nat.mod_lt _ (by decide)

/-- **Batch loading and single reads, exactly.**  What a batch finds for a device is
what a single read finds at its coordinate, precisely on the nodes whose numbers agree:
those that `devidx` gives fit the 16 bits of an operation, and for a socket they are the
ones that the loop over the sockets counts up to. -/
theorem batchLoading_iff (t : Topology) : BatchLoading t ↔ BatchFits t := by
  constructor
  · exact BatchLoading.fits
  · intro hfits
    refine ⟨?_, ?_⟩
    · intro fuel hfuel
      rw [socketLoop_eq t (t.nsockets_le.trans hfuel), List.length_map, List.length_range]
    · intro e he s batchnum bsize s₁ hempty hs₁ loads hroom
      obtain ⟨vals, s₂, hload, -, hnum, hread⟩ := loadAll_read he hempty hs₁ hroom
      refine ⟨vals, s₂, hload, hnum, fun hne m ioctls => ?_⟩
      obtain ⟨ret, st', hst', -, hfinds⟩ := hread hne m ioctls
      exact ⟨ret, st', hst', fun hclean p hp =>
        BatchLoad.agrees_of_fits hfits (hfinds hclean p hp)⟩

/-- One socket of 65537 cores. -/
def wideNode : Topology where
  nsockets := 1
  ncores := 65537
  nthreads := 65537
  nsockets_pos := Nat.one_pos
  ncores_pos := by decide
  nthreads_pos := by decide
  nsockets_dvd := one_dvd _
  ncores_dvd := dvd_rfl
  nthreads_lt := by decide

/-- On that node every CPU's register holds the number of the CPU.  The batch
gives 0 for CPU 65536, a single read gives 65536. -/
theorem loadThreadBatch_wideNode :
    (∃ s₁ vals s₂ ret st', allocateBatch .start 0 65537 = some (0, s₁) ∧
      loadAll wideNode 0 [(.thread 0x10, fun _ => none)] s₁ = some (vals, s₂) ∧
      readBatch ⟨wideNode, ⟨fun _ _ => false⟩, true⟩ 0 ⟨s₂, cpuNumbers, []⟩ = some (ret, st') ∧
      vals.map (fun val => (val 65536).bind (deref st'.store 0)) = [some 0]) ∧
      coordValue wideNode cpuNumbers 0 65536 0 0x10 = some 65536 ∧ ¬ BatchLoading wideNode := by
  refine ⟨?_, ?_, ?_⟩
  · obtain ⟨s₁, hs₁, -⟩ := allocateBatch_of_lt (s := .start) (by decide : 0 + 1 < 2 ^ 31) 65537
    obtain ⟨vals, s₂, hload, hlen, -, hread⟩ := loadAll_read
      (e := ⟨wideNode, ⟨fun _ _ => false⟩, true⟩) (t := wideNode) rfl rfl hs₁
      (by decide : loadCount wideNode [(.thread 0x10, fun _ => none)] ≤ 65537 % 2 ^ 32)
    obtain ⟨ret, st', hst', hgrow, hfinds⟩ := hread (by simp) cpuNumbers []
    have hclean := clean_of_never (fun _ _ => rfl) hgrow
    obtain ⟨val, rfl⟩ := List.length_eq_one_iff.mp hlen
    have hmem : (BatchLoad.thread 0x10, val) ∈ [BatchLoad.thread 0x10].zip [val] := by simp
    have hlt : 65536 < wideNode.nthreads := by decide
    have hval : (val 65536).bind (deref st'.store 0) = some (BitVec.ofNat 64 (65536 % 2 ^ 16)) :=
      hfinds hclean _ hmem 65536 hlt
    refine ⟨s₁, [val], s₂, ret, st', hs₁, hload, hst', ?_⟩
    rw [List.map_singleton, hval]
    rfl
  · have hv : wideNode.Valid (0 : BitVec 32).toNat (65536 : BitVec 32).toNat
        (0 : BitVec 32).toNat := by decide
    rw [coordValue_of_valid hv]
    rfl
  · intro hlaw
    have hfew := (batchFits_iff (t := wideNode) (by decide)).mp hlaw.fits
    exact absurd hfew (by decide)

end Agreement

end Variorum
