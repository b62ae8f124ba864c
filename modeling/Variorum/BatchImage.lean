/-
Variorum/BatchImage.lean

Batches whose answer nobody looks at: what a batch read leaves in the `msrdata`
of its operations, and what a batch write leaves in the registers.

The callers of `read_batch` and `write_batch` that come after this module drop
the answer, so a read that is refused shows only in the data, which then is what
an earlier call left there.  `image` is that data, and `readOps_image` says that
both ways of carrying out a batch make it.  Of a batch write each register keeps
the last value that was let through to it (`writeOps_registers`).

Both statements are about operations that share one direction flag and name CPUs
of the node.  Carrying out such a batch keeps it so, and `loadLoop_loaded` says
what the loaders build.
-/
import Variorum.Batch

namespace Variorum

open History

/-- The operations of a batch read and the registers after it; the answer is
dropped. -/
def readOps (e : MsrEnv) (ops : List MsrBatchOp) (m : Machine) : List MsrBatchOp × Machine :=
  if e.batchfd then (ioctlLoop e (switchFlags .read ops) m).2 else compatLoop e .read ops m

/-- The operations of a batch write and the registers after it; the answer is
dropped. -/
def writeOps (e : MsrEnv) (ops : List MsrBatchOp) (m : Machine) : List MsrBatchOp × Machine :=
  if e.batchfd then (ioctlLoop e (switchFlags .write ops) m).2 else compatLoop e .write ops m

/-! ### Operations -/

namespace MsrBatchOp

/-- The register an operation is about. -/
def register (op : MsrBatchOp) : Nat × Nat := (op.cpu.toNat, op.msr.toNat)

/-- The access an operation that reads makes. -/
def readAccess (op : MsrBatchOp) : Access := ⟨.read, op.cpu.toNat, op.msr.toNat⟩

/-- The access an operation that writes makes. -/
def writeAccess (op : MsrBatchOp) : Access := ⟨.write, op.cpu.toNat, op.msr.toNat⟩

/-- What an operation that writes stores: the register and the value. -/
def store (op : MsrBatchOp) : (Nat × Nat) × BitVec 64 := (op.register, op.msrdata)

/-- The same operation, to be carried out for a request of this type. -/
def flagged (type : BatchType) (op : MsrBatchOp) : MsrBatchOp := { op with isrdmsr := type.flag }

end MsrBatchOp

/-- The operations name CPUs of the node and share one direction flag. -/
structure Uniform (t : Topology) (ops : List MsrBatchOp) : Prop where
  cpu_lt : ∀ op ∈ ops, op.cpu.toNat < t.nthreads
  flag : ∃ flag, ∀ op ∈ ops, op.isrdmsr = flag

/-- The data of the operations after a read: the register, or what was there before
where the access is refused. -/
def image (d : Driver) (m : Machine) (ops : List MsrBatchOp) : List (BitVec 64) :=
  ops.mapIdx fun k op =>
    if d.fails (m.log.length + k) op.readAccess then op.msrdata
    else m.msr op.cpu.toNat op.msr.toNat

/-- The stores that are let through, from `m` on. -/
def written (d : Driver) (m : Machine) (stores : List ((Nat × Nat) × BitVec 64)) :
    List ((Nat × Nat) × BitVec 64) :=
  survivors (fun n store => d.fails n ⟨.write, store.1.1, store.1.2⟩) m.log.length stores

/-- What a register holds after stores, each of them let through or not. -/
def afterStores (d : Driver) (m : Machine) (stores : List ((Nat × Nat) × BitVec 64))
    (cpu msr : Nat) : BitVec 64 :=
  ((lastFor Prod.fst (cpu, msr) (written d m stores)).map Prod.snd).getD (m.msr cpu msr)

section Specs

variable {e : MsrEnv} {t : Topology} {d : Driver} {type : BatchType}
variable {op op' : MsrBatchOp} {ops ops' : List MsrBatchOp} {m m₁ m₂ m' : Machine}

theorem switchFlags_uniform (h : Uniform t ops) :
    switchFlags type ops = ops.map (·.flagged type) := by
  obtain ⟨flag, hflag⟩ := h.flag
  cases ops with
  | nil => rfl
  | cons op ops =>
      rw [switchFlags]
      split
      · next hop =>
          -- the flags are as requested already
          have hsame : ∀ op' ∈ op :: ops, op'.flagged type = op' := by
            intro op' hop'
            rw [MsrBatchOp.flagged, ← hop, hflag op List.mem_cons_self, ← hflag op' hop']
          exact (List.map_id _).symm.trans
            (List.map_congr_left fun op' hop' => (hsame op' hop').symm)
      · rfl

theorem flagged_uniform (h : Uniform t ops) (type : BatchType) :
    (∀ op ∈ ops.map (·.flagged type), op.cpu.toNat < t.nthreads) ∧
      ∀ op ∈ ops.map (·.flagged type), op.isrdmsr = type.flag := by
  constructor <;> intro op hop <;> obtain ⟨op', hop', rfl⟩ := List.mem_map.mp hop
  · exact h.cpu_lt op' hop'
  · rfl

theorem image_cons (op : MsrBatchOp) (ops : List MsrBatchOp) (a : Access) :
    image d m (op :: ops)
      = (if d.fails m.log.length op.readAccess then op.msrdata
          else m.msr op.cpu.toNat op.msr.toNat) ::
        image d { m with log := m.log ++ [a] } ops := by
  rw [image, List.mapIdx_cons, image, List.length_append]
  simp only [Nat.add_zero, List.length_singleton, Nat.add_assoc, Nat.add_comm 1]

/-- The image does not depend on the flags. -/
theorem image_flagged (ops : List MsrBatchOp) :
    image d m (ops.map (·.flagged type)) = image d m ops := by
  induction ops generalizing m with
  | nil => rfl
  | cons op ops ih =>
      rw [List.map_cons, image_cons _ _ op.readAccess, image_cons _ _ op.readAccess, ih]
      rfl

/-- Every operation is for a CPU with a number of 16 bits. -/
theorem register_cpu_lt {r : Nat × Nat} (h : r ∈ ops.map (·.register)) : r.1 < 2 ^ 16 := by
  obtain ⟨op, -, rfl⟩ := List.mem_map.mp h
  exact op.cpu.isLt

/-- With nothing refused, the image is what the registers hold. -/
theorem image_of_accepted (hacc : Accepted d.fails m.log.length (ops.map (·.readAccess))) :
    image d m ops = ops.map fun op => m.msr op.cpu.toNat op.msr.toNat := by
  apply List.ext_getElem?
  intro k
  rw [image, List.getElem?_mapIdx, List.getElem?_map]
  cases hop : ops[k]? with
  | none => rfl
  | some op =>
      have hok : d.fails (m.log.length + k) op.readAccess = false := by
        apply accepted_getElem hacc
        rw [List.getElem?_map, hop]
        rfl
      simp [hok]

/-! ### Reading -/

/-- `ops'` and `m'` come of reading for `ops`: one access for each of them, and
their image. -/
structure BatchRead (d : Driver) (ops ops' : List MsrBatchOp) (m m' : Machine) : Prop where
  machine : m' = { m with log := m.log ++ ops.map (·.readAccess) }
  register : ops'.map (·.register) = ops.map (·.register)
  data : ops'.map (·.msrdata) = image d m ops

theorem BatchRead.nil : BatchRead d [] [] m m := ⟨by simp, rfl, rfl⟩

theorem BatchRead.cons (hop : BatchRead d [op] [op'] m m₁) (hrest : BatchRead d ops ops' m₁ m₂) :
    BatchRead d (op :: ops) (op' :: ops') m m₂ := by
  obtain ⟨rfl, hreg, hdata⟩ := hop
  obtain ⟨rfl, hreg', hdata'⟩ := hrest
  refine ⟨by simp, ?_, ?_⟩
  · exact congrArg₂ List.cons (List.cons.inj hreg).1 hreg'
  · rw [image_cons op ops op.readAccess]
    exact congrArg₂ List.cons (List.cons.inj hdata).1 hdata'

theorem ioctlOp_reads (hcpu : op.cpu.toNat < e.topo.nthreads) (hflag : op.isrdmsr = true)
    (m : Machine) : BatchRead e.driver [op] [(ioctlOp e op m).2.1] m (ioctlOp e op m).2.2 := by
  rw [ioctlOp, if_pos hcpu, if_pos hflag]
  cases hfails : e.driver.fails m.log.length op.readAccess <;>
    simp only [MsrBatchOp.readAccess] at hfails <;>
    constructor <;>
    simp [Machine.pread, hfails, MsrBatchOp.readAccess, MsrBatchOp.register, image]

theorem compatOp_reads (h : op.cpu.toNat < e.topo.nthreads) (m : Machine) :
    BatchRead e.driver [op] [(compatOp e .read op m).1] m (compatOp e .read op m).2 := by
  have hcpu : (op.cpu.setWidth 32).toNat = op.cpu.toNat := BitVec.toNat_setWidth_of_le (by decide)
  have hlt : (op.cpu.setWidth 32).toNat < e.topo.nthreads := hcpu.symm ▸ h
  simp only [compatOp, readMsrByIdx_of_lt hlt, hcpu]
  cases hfails : e.driver.fails m.log.length op.readAccess <;>
    simp only [MsrBatchOp.readAccess] at hfails <;>
    constructor <;>
    simp [Machine.pread, hfails, MsrBatchOp.readAccess, MsrBatchOp.register, image]

theorem ioctlLoop_reads (hcpu : ∀ op ∈ ops, op.cpu.toNat < e.topo.nthreads)
    (hflag : ∀ op ∈ ops, op.isrdmsr = true) (m : Machine) :
    BatchRead e.driver ops (ioctlLoop e ops m).2.1 m (ioctlLoop e ops m).2.2 := by
  induction ops generalizing m with
  | nil => exact .nil
  | cons op ops ih =>
      obtain ⟨hcpu, hcpus⟩ := List.forall_mem_cons.mp hcpu
      obtain ⟨hflag, hflags⟩ := List.forall_mem_cons.mp hflag
      exact (ioctlOp_reads hcpu hflag m).cons (ih hcpus hflags _)

theorem compatLoop_reads (hcpu : ∀ op ∈ ops, op.cpu.toNat < e.topo.nthreads) (m : Machine) :
    BatchRead e.driver ops (compatLoop e .read ops m).1 m (compatLoop e .read ops m).2 := by
  induction ops generalizing m with
  | nil => exact .nil
  | cons op ops ih =>
      obtain ⟨hcpu, hcpus⟩ := List.forall_mem_cons.mp hcpu
      exact (compatOp_reads hcpu m).cons (ih hcpus _)

/-- **A batch of reads**, on either path. -/
theorem readOps_image (h : Uniform e.topo ops) (m : Machine) :
    BatchRead e.driver ops (readOps e ops m).1 m (readOps e ops m).2 := by
  unfold readOps
  split
  · rw [switchFlags_uniform h]
    have hflagged := flagged_uniform h .read
    obtain ⟨hmachine, hreg, hdata⟩ := ioctlLoop_reads hflagged.1 hflagged.2 m
    refine ⟨?_, ?_, ?_⟩
    · rw [hmachine, List.map_map]
      rfl
    · rw [hreg, List.map_map]
      rfl
    · rw [hdata, image_flagged]
  · exact compatLoop_reads h.cpu_lt m

/-! ### Writing -/

/-- `ops'` and `m'` come of writing for `ops`: one access for each of them, and in
each register the last value let through to it. -/
structure BatchWrite (d : Driver) (ops ops' : List MsrBatchOp) (m m' : Machine) : Prop where
  log : m'.log = m.log ++ ops.map (·.writeAccess)
  register : ops'.map (·.register) = ops.map (·.register)
  msr : m'.msr = afterStores d m (ops.map (·.store))

theorem BatchWrite.nil : BatchWrite d [] [] m m := ⟨by simp, rfl, rfl⟩

/-- What one write does to the registers. -/
theorem pwrite_msr (d : Driver) (m : Machine) (op : MsrBatchOp) :
    (m.pwrite d op.cpu.toNat op.msr.toNat op.msrdata).2.msr = afterStores d m [op.store] := by
  funext cpu msr
  unfold afterStores
  cases hfails : d.fails m.log.length op.writeAccess
  · have hwritten : written d m [op.store] = [op.store] :=
      if_neg (show ¬ d.fails m.log.length op.writeAccess = true by rw [hfails]; decide)
    rw [Machine.pwrite_of_ok _ _ _ _ _ hfails, hwritten, lastFor_singleton]
    by_cases hreg : op.store.1 = (cpu, msr)
    · obtain ⟨rfl, rfl⟩ := Prod.mk.inj hreg
      rw [if_pos hreg]
      exact Machine.store_self _ _ _ _
    · rw [if_neg hreg]
      apply Machine.store_of_ne
      by_contra hboth
      push Not at hboth
      exact hreg (Prod.ext hboth.1.symm hboth.2.symm)
  · have hwritten : written d m [op.store] = [] := if_pos hfails
    rw [Machine.pwrite_of_fail _ _ _ _ _ hfails, hwritten]
    rfl

theorem BatchWrite.cons (hop : BatchWrite d [op] [op'] m m₁) (hrest : BatchWrite d ops ops' m₁ m₂) :
    BatchWrite d (op :: ops) (op' :: ops') m m₂ := by
  have hwritten : written d m ((op :: ops).map (·.store))
      = written d m ([op].map (·.store)) ++ written d m₁ (ops.map (·.store)) := by
    show survivors _ _ ([op.store] ++ ops.map (·.store)) = _
    rw [survivors_append, written, written, hop.log, List.length_append]
    rfl
  refine ⟨?_, ?_, ?_⟩
  · rw [hrest.log, hop.log, List.append_assoc]
    rfl
  · exact congrArg₂ List.cons (List.cons.inj hop.register).1 hrest.register
  · funext cpu msr
    rw [hrest.msr, afterStores, afterStores, hwritten, lastFor_append, hop.msr]
    cases lastFor Prod.fst (cpu, msr) (written d m₁ (ops.map (·.store))) <;> rfl

/-- Stores change nothing exactly when each register holds the last value let through
to it. -/
theorem afterStores_eq_iff (d : Driver) (m : Machine) (stores : List ((Nat × Nat) × BitVec 64)) :
    afterStores d m stores = m.msr ↔
      ∀ cpu msr store, lastFor Prod.fst (cpu, msr) (written d m stores) = some store →
        store.2 = m.msr cpu msr := by
  rw [funext_iff]
  apply forall_congr'
  intro cpu
  rw [funext_iff]
  apply forall_congr'
  intro msr
  unfold afterStores
  cases lastFor Prod.fst (cpu, msr) (written d m stores) with
  | none => exact iff_of_true rfl nofun
  | some store => simp

/-- Registers that no store names keep their value. -/
theorem afterStores_of_notMem (d : Driver) (m : Machine)
    {stores : List ((Nat × Nat) × BitVec 64)} {cpu msr : Nat}
    (h : (cpu, msr) ∉ stores.map Prod.fst) : afterStores d m stores cpu msr = m.msr cpu msr := by
  unfold afterStores
  cases hlast : lastFor Prod.fst (cpu, msr) (written d m stores) with
  | none => rfl
  | some store =>
      obtain ⟨hmem, hkey⟩ := mem_of_lastFor hlast
      exact absurd (List.mem_map.mpr ⟨store, survivors_subset _ _ hmem, hkey⟩) h

/-- With nothing refused, a register that stores name holds the value of one of
them. -/
theorem afterStores_of_mem {stores : List ((Nat × Nat) × BitVec 64)}
    (hacc : Accepted (fun n store => d.fails n ⟨.write, store.1.1, store.1.2⟩) m.log.length stores)
    {cpu msr : Nat} (h : (cpu, msr) ∈ stores.map Prod.fst) :
    ((cpu, msr), afterStores d m stores cpu msr) ∈ stores := by
  obtain ⟨store, hstore, hkey⟩ := List.mem_map.mp h
  unfold afterStores
  rw [written, survivors_of_accepted hacc]
  have hsome : (lastFor Prod.fst (cpu, msr) stores).isSome := hkey ▸ lastFor_isSome hstore
  obtain ⟨last, hlast⟩ := Option.isSome_iff_exists.mp hsome
  obtain ⟨hmem, hlastkey⟩ := mem_of_lastFor hlast
  rw [hlast]
  exact hlastkey ▸ hmem

/-- The accesses of a batch write, seen as stores. -/
theorem accepted_stores {n : Nat} {stores : List ((Nat × Nat) × BitVec 64)}
    (hregs : stores.map Prod.fst = ops.map (·.register))
    (h : Accepted d.fails n (ops.map (·.writeAccess))) :
    Accepted (fun k store => d.fails k ⟨.write, store.1.1, store.1.2⟩) n stores := by
  rw [← accepted_map fun store : (Nat × Nat) × BitVec 64 =>
    (⟨.write, store.1.1, store.1.2⟩ : Access)]
  have hmap := congrArg (List.map fun r : Nat × Nat => (⟨.write, r.1, r.2⟩ : Access)) hregs
  rw [List.map_map, List.map_map] at hmap
  exact hmap ▸ h

theorem ioctlOp_writes (hcpu : op.cpu.toNat < e.topo.nthreads) (hflag : op.isrdmsr = false)
    (m : Machine) : BatchWrite e.driver [op] [(ioctlOp e op m).2.1] m (ioctlOp e op m).2.2 := by
  have hmachine : (ioctlOp e op m).2.2
      = (m.pwrite e.driver op.cpu.toNat op.msr.toNat op.msrdata).2 := by
    rw [ioctlOp, if_pos hcpu, hflag]
    rcases m.pwrite e.driver op.cpu.toNat op.msr.toNat op.msrdata with ⟨- | -, m'⟩ <;> rfl
  have hreg : (ioctlOp e op m).2.1.register = op.register := by
    rw [ioctlOp, if_pos hcpu, hflag]
    rcases m.pwrite e.driver op.cpu.toNat op.msr.toNat op.msrdata with ⟨- | -, m'⟩ <;> rfl
  rw [hmachine]
  exact ⟨Machine.pwrite_log _ _ _ _ _, congrArg (List.cons · []) hreg, pwrite_msr _ _ _⟩

theorem compatOp_writes (h : op.cpu.toNat < e.topo.nthreads) (m : Machine) :
    BatchWrite e.driver [op] [(compatOp e .write op m).1] m (compatOp e .write op m).2 := by
  have hcpu : (op.cpu.setWidth 32).toNat = op.cpu.toNat := BitVec.toNat_setWidth_of_le (by decide)
  have hlt : (op.cpu.setWidth 32).toNat < e.topo.nthreads := hcpu.symm ▸ h
  have hmachine : (compatOp e .write op m).2
      = (m.pwrite e.driver op.cpu.toNat op.msr.toNat op.msrdata).2 := by
    simp only [compatOp, writeMsrByIdx_of_lt hlt, hcpu]
    rcases m.pwrite e.driver op.cpu.toNat op.msr.toNat op.msrdata with ⟨- | -, m'⟩ <;> rfl
  rw [hmachine]
  exact ⟨Machine.pwrite_log _ _ _ _ _, rfl, pwrite_msr _ _ _⟩

theorem ioctlLoop_writes (hcpu : ∀ op ∈ ops, op.cpu.toNat < e.topo.nthreads)
    (hflag : ∀ op ∈ ops, op.isrdmsr = false) (m : Machine) :
    BatchWrite e.driver ops (ioctlLoop e ops m).2.1 m (ioctlLoop e ops m).2.2 := by
  induction ops generalizing m with
  | nil => exact .nil
  | cons op ops ih =>
      obtain ⟨hcpu, hcpus⟩ := List.forall_mem_cons.mp hcpu
      obtain ⟨hflag, hflags⟩ := List.forall_mem_cons.mp hflag
      exact (ioctlOp_writes hcpu hflag m).cons (ih hcpus hflags _)

theorem compatLoop_writes (hcpu : ∀ op ∈ ops, op.cpu.toNat < e.topo.nthreads) (m : Machine) :
    BatchWrite e.driver ops (compatLoop e .write ops m).1 m (compatLoop e .write ops m).2 := by
  induction ops generalizing m with
  | nil => exact .nil
  | cons op ops ih =>
      obtain ⟨hcpu, hcpus⟩ := List.forall_mem_cons.mp hcpu
      exact (compatOp_writes hcpu m).cons (ih hcpus _)

/-- **A batch of writes**, on either path. -/
theorem writeOps_registers (h : Uniform e.topo ops) (m : Machine) :
    BatchWrite e.driver ops (writeOps e ops m).1 m (writeOps e ops m).2 := by
  unfold writeOps
  split
  · rw [switchFlags_uniform h]
    have hflagged := flagged_uniform h .write
    obtain ⟨hlog, hreg, hmsr⟩ := ioctlLoop_writes hflagged.1 hflagged.2 m
    refine ⟨?_, ?_, ?_⟩
    · rw [hlog, List.map_map]
      rfl
    · rw [hreg, List.map_map]
      rfl
    · rw [hmsr, List.map_map]
      rfl
  · exact compatLoop_writes h.cpu_lt m

/-! ### What carrying out keeps -/

/-- Operations with the same registers and the same flags are uniform as well. -/
theorem Uniform.of_map (h : Uniform t ops) (flag : Bool)
    (hreg : ops'.map (·.register) = ops.map (·.register))
    (hflag : ∀ op ∈ ops', op.isrdmsr = flag) : Uniform t ops' where
  cpu_lt := by
    intro op hop
    have hmem : op.register ∈ ops.map (·.register) := hreg ▸ List.mem_map_of_mem hop
    obtain ⟨op', hop', heq⟩ := List.mem_map.mp hmem
    rw [← show op'.cpu.toNat = op.cpu.toNat from congrArg Prod.fst heq]
    exact h.cpu_lt op' hop'
  flag := ⟨flag, hflag⟩

theorem flags_of_map {flag : Bool} (hflags : ops'.map (·.isrdmsr) = ops.map (·.isrdmsr))
    (h : ∀ op ∈ ops, op.isrdmsr = flag) : ∀ op ∈ ops', op.isrdmsr = flag := by
  intro op hop
  have hmem : op.isrdmsr ∈ ops.map (·.isrdmsr) := hflags ▸ List.mem_map_of_mem hop
  obtain ⟨op', hop', heq⟩ := List.mem_map.mp hmem
  exact heq ▸ h op' hop'

theorem readOps_uniform (h : Uniform e.topo ops) (m : Machine) :
    Uniform e.topo (readOps e ops m).1 := by
  have hreg := (readOps_image h m).register
  obtain ⟨flag, hflag⟩ := h.flag
  cases hfd : e.batchfd with
  | true =>
      apply h.of_map true hreg
      rw [readOps, hfd, if_pos rfl, switchFlags_uniform h]
      exact flags_of_map (ioctlLoop_flags e _ m) (flagged_uniform h .read).2
  | false =>
      apply h.of_map flag hreg
      rw [readOps, hfd, if_neg Bool.false_ne_true]
      exact flags_of_map (compatLoop_flags e _ ops m) hflag

theorem writeOps_uniform (h : Uniform e.topo ops) (m : Machine) :
    Uniform e.topo (writeOps e ops m).1 := by
  have hreg := (writeOps_registers h m).register
  obtain ⟨flag, hflag⟩ := h.flag
  cases hfd : e.batchfd with
  | true =>
      apply h.of_map false hreg
      rw [writeOps, hfd, if_pos rfl, switchFlags_uniform h]
      exact flags_of_map (ioctlLoop_flags e _ m) (flagged_uniform h .write).2
  | false =>
      apply h.of_map flag hreg
      rw [writeOps, hfd, if_neg Bool.false_ne_true]
      exact flags_of_map (compatLoop_flags e _ ops m) hflag

end Specs

/-! ### Loading -/

/-- A batch into which `ops` were loaded, with room for as many again. -/
def MsrBatch.loaded (addr : Nat) (ops : List MsrBatchOp) (room : Nat) : MsrBatch :=
  ⟨some ⟨addr, ops ++ List.replicate room .zero⟩, ops.length, ops.length + room⟩

section Loading

variable {s : BatchStorage} {addr room batchnum : Nat} {ops : List MsrBatchOp}
variable {pairs : List (Nat × Nat)}

theorem MsrBatch.loaded_live (addr : Nat) (ops : List MsrBatchOp) (room : Nat) :
    (MsrBatch.loaded addr ops room).live = some ops := by
  simp [live, loaded]

/-- The next operation goes into the first free entry. -/
theorem MsrBatch.addOp_loaded (addr : Nat) (ops : List MsrBatchOp) (room msr cpu : Nat) :
    (MsrBatch.loaded addr ops (room + 1)).addOp msr cpu
      = some ((addr, ops.length), .loaded addr (ops ++ [.fill .zero msr cpu]) room) := by
  have hmodify : (ops ++ List.replicate (room + 1) MsrBatchOp.zero).modify ops.length
      (·.fill msr cpu) = (ops ++ [.fill .zero msr cpu]) ++ List.replicate room .zero := by
    have hlt : ops.length < (ops ++ List.replicate (room + 1) MsrBatchOp.zero).length := by simp
    rw [List.modify_eq_take_cons_drop hlt]
    simp [List.replicate_succ, List.drop_append]
  have hlt : ops.length < (ops ++ List.replicate (room + 1) MsrBatchOp.zero).length := by simp
  refine (if_pos hlt).trans ?_
  simp only [loaded, hmodify, List.length_append, List.length_singleton, Nat.add_assoc,
    Nat.add_comm 1 room]

/-- **A loader with room**: its operations go behind those that are there, and the
table gets the addresses of their data. -/
theorem loadLoop_loaded (msr : Nat) (dest : DestTable) (hb : batchnum + 1 < 2 ^ 31)
    (hs : s.slot batchnum = .loaded addr ops (pairs.length + room))
    (hpairs : (pairs.map (·.2)).Nodup) :
    ∃ dest' s', loadLoop msr batchnum pairs dest s = some (dest', s') ∧
      s'.slot batchnum = .loaded addr (ops ++ pairs.map fun p => .fill .zero msr p.1) room ∧
      (∀ i, i ∉ pairs.map (·.2) → dest' i = dest i) ∧
      ∀ k p, pairs[k]? = some p → dest' p.2 = some (addr, ops.length + k) := by
  -- by induction on the places; each turn takes one of the free slots for its operation
  induction pairs generalizing s dest ops with
  | nil =>
      refine ⟨dest, s, rfl, ?_, fun _ _ => rfl, nofun⟩
      rw [hs]
      simp
  | cons p rest ih =>
      rw [List.length_cons, Nat.add_right_comm] at hs
      obtain ⟨hp, hrest⟩ := List.nodup_cons.mp hpairs
      have hroom : (s.slot batchnum).numops ≤ (s.slot batchnum).size := by
        rw [hs]
        exact Nat.le_add_right _ _
      have hadd := MsrBatch.addOp_loaded addr ops (rest.length + room) msr p.1
      rw [← hs] at hadd
      obtain ⟨s₁, hs₁, hslot⟩ := createBatchOp_room dest p.2 hb hroom hadd
      have hs₁slot : s₁.slot batchnum
          = .loaded addr (ops ++ [.fill .zero msr p.1]) (rest.length + room) := by
        rw [hslot, Function.update_self]
      obtain ⟨dest', s', hload, hslot', hother, hdest⟩ :=
        ih (Function.update dest p.2 (some (addr, ops.length))) hs₁slot hrest
      refine ⟨dest', s', ?_, ?_, ?_, ?_⟩
      · rw [loadLoop, hs₁]
        exact hload
      · rw [hslot', List.map_cons, List.append_assoc]
        rfl
      · intro i hi
        rw [List.map_cons, List.mem_cons, not_or] at hi
        rw [hother i hi.2, Function.update_of_ne hi.1]
      -- the first place points to the operation just added, which no later turn moves
      · intro k q hq
        cases k with
        | zero =>
            obtain rfl := Option.some.inj hq
            rw [hother _ hp, Function.update_self]
            rfl
        | succ k =>
            rw [hdest k q hq, List.length_append, List.length_singleton, Nat.add_assoc,
              Nat.add_comm 1 k]

end Loading

end Variorum
