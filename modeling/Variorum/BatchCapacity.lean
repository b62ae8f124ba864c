/-
Variorum/BatchCapacity.lean

The capacity of a batch over runs of calls.

A batch must never have more operations in use than its array has entries.
Nothing in the code keeps it so: `create_batch_op` refuses an operation only
when `numops` already exceeds `size`, one operation too late, and
`allocate_batch` on a batch that has an array reports the conflict and then
replaces the array.  So every run that stays inside the arrays does so because
of its calls, and `capacity_iff` says exactly which calls those are.

The invariant that carries the proof (`MsrBatch.Within`) is the one the code
intends: `numops` is within the array, and `size` is the array's extent.
-/
import Variorum.Batch
import Variorum.Runs

namespace Variorum

open Runs

/-! ### The invariant -/

/-- The operations in use lie inside the array, and `size` is its extent. -/
def MsrBatch.Within (x : MsrBatch) : Prop := x.numops ≤ x.capacity ∧ x.size = x.capacity

/-- Every batch is within its array. -/
def BatchStorage.Within (s : BatchStorage) : Prop := ∀ b, (s.slot b).Within

theorem MsrBatch.within_addOp {x x' : MsrBatch} {msr cpu : Nat} {ptr : Dest} (hx : x.Within)
    (h : x.addOp msr cpu = some (ptr, x')) : x'.Within := by
  obtain ⟨hn, hs, hc, -⟩ := addOp_spec h
  have hroom : x.numops < x.capacity := by
    by_contra hge
    rw [addOp_eq_none_iff.mpr (Nat.not_lt.mp hge)] at h
    cases h
  exact ⟨by omega, by rw [hs, hc, hx.2]⟩

theorem BatchStorage.within_start : start.Within := fun _ => ⟨Nat.le_refl 0, rfl⟩

/-! ### The loaders -/

section Load

variable {s : BatchStorage} {msr batchnum : Nat} {dest : DestTable} {pairs : List (Nat × Nat)}

/-- The loop of `load_socket_batch` visits the first device of every socket and
ends by itself, however long it may run. -/
theorem socketLoop_eq (t : Topology) {fuel : Nat} (hfuel : t.nsockets ≤ fuel) :
    socketLoop t fuel 0 0
      = (List.range t.nsockets).map fun i => (i * t.coresPerSocket, i) := by
  have hstep : 0 < t.coresPerSocket := t.coresPerSocket_pos
  have hmul : t.nsockets * t.coresPerSocket = t.ncores := t.nsockets_mul_coresPerSocket
  -- by induction on the sockets left, from any socket on: the loop steps by the cores of one
  have key : ∀ (k fuel a : Nat), k ≤ fuel → a + k = t.nsockets →
      socketLoop t fuel (a * t.coresPerSocket) a
        = (List.range' a k).map fun i => (i * t.coresPerSocket, i) := by
    intro k
    induction k with
    | zero =>
        intro fuel a _ ha
        have hend : ¬ a * t.coresPerSocket < t.ncores := by
          rw [← hmul, show a = t.nsockets from ha]
          exact Nat.lt_irrefl _
        cases fuel with
        | zero => rfl
        | succ fuel => rw [socketLoop, if_neg hend, List.range'_zero, List.map_nil]
    | succ k ih =>
        intro fuel a hfuel ha
        obtain ⟨fuel, rfl⟩ : ∃ f, fuel = f + 1 := ⟨fuel - 1, by omega⟩
        have hgo : a * t.coresPerSocket < t.ncores := by
          rw [← hmul]
          exact Nat.mul_lt_mul_of_pos_right (by omega) hstep
        -- the code takes the index modulo a number that is no smaller than the sockets
        have hval : a % (t.nsockets * (t.nthreads / t.ncores)) = a := by
          apply Nat.mod_eq_of_lt
          calc a < t.nsockets * 1 := by omega
            _ ≤ t.nsockets * (t.nthreads / t.ncores) :=
              Nat.mul_le_mul_left _ t.threadsPerCore_pos
        have hnext : a * t.coresPerSocket + t.ncores / t.nsockets
            = (a + 1) * t.coresPerSocket := (Nat.succ_mul _ _).symm
        rw [socketLoop, if_pos hgo, hval, hnext, ih fuel (a + 1) (by omega) (by omega),
          List.range'_succ, List.map_cons]
  have hall := key t.nsockets fuel 0 hfuel (Nat.zero_add _)
  rwa [Nat.zero_mul, ← List.range_eq_range'] at hall

/-- The loop of `load_socket_batch` gives one device per socket. -/
theorem socketLoop_length (t : Topology) : (socketLoop t t.ncores 0 0).length = t.nsockets := by
  rw [socketLoop_eq t t.nsockets_le, List.length_map, List.length_range]

theorem threadPairs_length (t : Topology) :
    ((List.range t.nthreads).map fun i => (i, i)).length = t.nthreads := by
  rw [List.length_map, List.length_range]

/-- With room for all of its operations a loader stores them. -/
theorem loadLoop_of_le (msr : Nat) (dest : DestTable) (hb : batchnum + 1 < 2 ^ 31)
    (hx : (s.slot batchnum).Within)
    (hroom : (s.slot batchnum).numops + pairs.length ≤ (s.slot batchnum).capacity) :
    ∃ dest' s', loadLoop msr batchnum pairs dest s = some (dest', s') := by
  induction pairs generalizing s dest with
  | nil => exact ⟨dest, s, rfl⟩
  | cons p rest ih =>
      rw [List.length_cons] at hroom
      obtain ⟨⟨ptr, x'⟩, hadd⟩ : ∃ r, (s.slot batchnum).addOp msr p.1 = some r := by
        rw [← Option.ne_none_iff_exists']
        exact fun h => absurd (MsrBatch.addOp_eq_none_iff.mp h) (by omega)
      obtain ⟨s₁, hs₁, hslot⟩ :=
        createBatchOp_room dest p.2 hb (by rw [hx.2]; exact hx.1) hadd
      have hself : s₁.slot batchnum = x' := by
        rw [hslot, Function.update_self]
      obtain ⟨hn, -, hc, -⟩ := MsrBatch.addOp_spec hadd
      simp only [loadLoop, hs₁, Option.bind_some]
      exact ih _ (hself ▸ MsrBatch.within_addOp hx hadd) (by rw [hself, hn, hc]; omega)

/-- Without it, one of them is stored outside the array. -/
theorem loadLoop_of_gt (hb : batchnum + 1 < 2 ^ 31) (hx : (s.slot batchnum).Within)
    (hroom : (s.slot batchnum).capacity < (s.slot batchnum).numops + pairs.length) :
    loadLoop msr batchnum pairs dest s = none := by
  induction pairs generalizing s dest with
  | nil => exact absurd hx.1 (Nat.not_le.mpr hroom)
  | cons p rest ih =>
      rw [List.length_cons] at hroom
      have hsize : (s.slot batchnum).numops ≤ (s.slot batchnum).size := hx.2 ▸ hx.1
      rcases hadd : (s.slot batchnum).addOp msr p.1 with - | ⟨ptr, x'⟩
      · rw [loadLoop, createBatchOp_fault hb hsize (MsrBatch.addOp_eq_none_iff.mp hadd),
          Option.bind_none]
      · obtain ⟨s₁, hs₁, hslot⟩ := createBatchOp_room dest p.2 hb hsize hadd
        have hself : s₁.slot batchnum = x' := by
          rw [hslot, Function.update_self]
        obtain ⟨hn, -, hc, -⟩ := MsrBatch.addOp_spec hadd
        simp only [loadLoop, hs₁, Option.bind_some]
        exact ih (hself ▸ MsrBatch.within_addOp hx hadd) (by rw [hself, hn, hc]; omega)

theorem loadLoop_of_ge (hb : 2 ^ 31 ≤ batchnum + 1) (hne : pairs ≠ []) :
    loadLoop msr batchnum pairs dest s = none := by
  cases pairs with
  | nil => exact absurd rfl hne
  | cons p rest => rw [loadLoop, createBatchOp_of_ge hb, Option.bind_none]

/-- **A loader completes exactly when all of its operations fit.** -/
theorem loadLoop_isSome_iff (hx : (s.slot batchnum).Within) (hne : pairs ≠ []) :
    (∃ r, loadLoop msr batchnum pairs dest s = some r) ↔
      batchnum + 1 < 2 ^ 31 ∧
        (s.slot batchnum).numops + pairs.length ≤ (s.slot batchnum).capacity := by
  constructor
  · rintro ⟨r, hr⟩
    have hb : batchnum + 1 < 2 ^ 31 := by
      by_contra hge
      rw [loadLoop_of_ge (Nat.not_lt.mp hge) hne] at hr
      cases hr
    refine ⟨hb, ?_⟩
    by_contra hgt
    rw [loadLoop_of_gt hb hx (Nat.not_le.mp hgt)] at hr
    cases hr
  · rintro ⟨hb, hroom⟩
    obtain ⟨dest', s', h⟩ := loadLoop_of_le msr dest hb hx hroom
    exact ⟨_, h⟩

end Load

theorem MsrBatch.within_withLive {x : MsrBatch} {ops ops' : List MsrBatchOp} (hx : x.Within)
    (hlive : x.live = some ops) (hlen : ops'.length = ops.length) :
    (x.withLive ops').Within := by
  have hcap := withLive_capacity hlive hlen
  exact ⟨by rw [hcap]; exact hx.1, by rw [hcap]; exact hx.2⟩

/-- Reading or writing a batch within its array goes through and leaves every
batch within its array. -/
theorem doBatchOp_within (e : MsrEnv) (type : BatchType) {batchnum : Nat} {st : MsrState}
    (hs : st.store.Within) (hb : batchnum + 1 < 2 ^ 31) :
    ∃ ret st', doBatchOp e type batchnum st = some (ret, st') ∧ st'.store.Within := by
  obtain ⟨ops, hlive⟩ := MsrBatch.live_of_le (hs batchnum).1
  obtain ⟨ret, st', hrun⟩ := doBatchOp_isSome e type hb hlive
  exact ⟨ret, st', hrun,
    doBatchOp_forall (fun hx hl hlen _ => MsrBatch.within_withLive hx hl hlen) hs hrun⟩

/-! ### The contract of a call -/

namespace BatchCall

/-- What the return value of a call has to report. -/
def Reports (e : MsrEnv) (st : MsrState) (r : BatchReply) : BatchCall → Prop
  -- a batch that already has operations is refused
  | allocate b _ =>
      (st.store.slot b).ops ≠ none → r.ret ≠ 0 ∧ r.state.store.slot = st.store.slot
  -- an operation for which there is no entry is refused
  | create _ _ dest _ b =>
      (st.store.slot b).capacity ≤ (st.store.slot b).numops →
        r.ret ≠ 0 ∧ r.table = some dest ∧ r.state.store.slot b = st.store.slot b
  -- and the loaders say so when that happens to one of theirs
  | loadSocket _ _ b =>
      (st.store.slot b).capacity < (st.store.slot b).numops + e.topo.nsockets → r.ret ≠ 0
  | loadThread _ _ b =>
      (st.store.slot b).capacity < (st.store.slot b).numops + e.topo.nthreads → r.ret ≠ 0
  | read _ => True
  | write _ => True

/-- A call conforms: every entry it touches lies inside its array, afterwards
every batch is within its array, and it reports what it has to. -/
def CapacityOk (e : MsrEnv) (st : MsrState) (c : BatchCall) : Prop :=
  ∃ r, c.run e st = some r ∧
    (∀ b, (r.state.store.slot b).numops ≤ (r.state.store.slot b).capacity) ∧
    c.Reports e st r

/-- The calls that conform: no batch is allocated twice, no operation is added
to a batch without a free entry, and no batch number is the largest `int`. -/
def CapacityPre (e : MsrEnv) (st : MsrState) : BatchCall → Prop
  | allocate b _ => b + 1 < 2 ^ 31 ∧ (st.store.slot b).ops = none
  | create _ _ _ _ b =>
      b + 1 < 2 ^ 31 ∧ (st.store.slot b).numops < (st.store.slot b).capacity
  | loadSocket _ val b =>
      val = none ∨ b + 1 < 2 ^ 31 ∧
        (st.store.slot b).numops + e.topo.nsockets ≤ (st.store.slot b).capacity
  | loadThread _ val b =>
      val = none ∨ b + 1 < 2 ^ 31 ∧
        (st.store.slot b).numops + e.topo.nthreads ≤ (st.store.slot b).capacity
  | read b => b + 1 < 2 ^ 31
  | write b => b + 1 < 2 ^ 31

variable {e : MsrEnv} {st : MsrState} {c : BatchCall}

/-- Such a call goes through, reports what it has to and keeps every batch
within its array. -/
theorem run_of_pre (hs : st.store.Within) (hpre : c.CapacityPre e st) :
    ∃ r, c.run e st = some r ∧ r.state.store.Within ∧ c.Reports e st r := by
  cases c with
  | allocate b bsize =>
      obtain ⟨hb, hnull⟩ := hpre
      obtain ⟨s', hrun, hslot⟩ := allocateBatch_of_lt (s := st.store) hb bsize
      refine ⟨_, by rw [run, hrun]; rfl, BatchStorage.forall_update hs ?_ hslot,
        fun h => absurd hnull h⟩
      -- an empty batch has no operations, so the new one has room for those it has
      have hn : (st.store.slot b).numops ≤ (st.store.slot b).capacity := (hs b).1
      have hcap : (st.store.slot b).capacity = 0 := by
        simp only [MsrBatch.capacity, hnull]
      rw [hcap, Nat.le_zero] at hn
      simp [MsrBatch.Within, MsrBatch.capacity, hn]
  | create msr cpu dest i b =>
      obtain ⟨hb, hroom⟩ := hpre
      obtain ⟨⟨ptr, x'⟩, hadd⟩ : ∃ r, (st.store.slot b).addOp msr cpu = some r := by
        rw [← Option.ne_none_iff_exists']
        exact fun h => absurd (MsrBatch.addOp_eq_none_iff.mp h) (Nat.not_le.mpr hroom)
      obtain ⟨s', hrun, hslot⟩ :=
        createBatchOp_room dest i hb (by rw [(hs b).2]; exact (hs b).1) hadd
      exact ⟨_, by rw [run, hrun]; rfl,
        BatchStorage.forall_update hs (MsrBatch.within_addOp (hs b) hadd) hslot,
        fun h => absurd hroom (Nat.not_lt.mpr h)⟩
  | loadSocket msr val b =>
      rcases val with - | dest
      · exact ⟨_, rfl, hs, fun _ => VariorumError.msrBatch.code_ne_zero⟩
      -- a loop over the sockets that is within the room, or else is refused as a whole
      · obtain ⟨hb, hroom⟩ := hpre.resolve_left (Option.some_ne_none dest)
        rw [← socketLoop_length] at hroom
        obtain ⟨dest', s', hload⟩ := loadLoop_of_le msr dest hb (hs b) hroom
        refine ⟨_, by rw [run, loadSocketBatch, hload]; rfl,
          fun b => loadLoop_keeps MsrBatch.within_addOp (hs b) hload, ?_⟩
        intro h
        rw [socketLoop_length] at hroom
        exact absurd hroom (Nat.not_le.mpr h)
  | loadThread msr val b =>
      rcases val with - | dest
      · exact ⟨_, rfl, hs, fun _ => VariorumError.msrBatch.code_ne_zero⟩
      · obtain ⟨hb, hroom⟩ := hpre.resolve_left (Option.some_ne_none dest)
        rw [← threadPairs_length e.topo] at hroom
        obtain ⟨dest', s', hload⟩ := loadLoop_of_le msr dest hb (hs b) hroom
        refine ⟨_, by rw [run, loadThreadBatch, hload]; rfl,
          fun b => loadLoop_keeps MsrBatch.within_addOp (hs b) hload, ?_⟩
        intro h
        rw [threadPairs_length] at hroom
        exact absurd hroom (Nat.not_le.mpr h)
  | read b =>
      obtain ⟨ret, st', hrun, hwith⟩ := doBatchOp_within e .read hs hpre
      exact ⟨_, by rw [run, readBatch, hrun]; rfl, hwith, trivial⟩
  | write b =>
      obtain ⟨ret, st', hrun, hwith⟩ := doBatchOp_within e .write hs hpre
      exact ⟨_, by rw [run, writeBatch, hrun]; rfl, hwith, trivial⟩

theorem load_of_ok (msr : Nat) {b n : Nat} {val : Option DestTable} {pairs : List (Nat × Nat)}
    (hs : st.store.Within) (hlen : pairs.length = n) (hn : 0 < n)
    (h : ∀ dest, val = some dest → ∃ r, loadLoop msr b pairs dest st.store = some r) :
    val = none ∨ b + 1 < 2 ^ 31 ∧
      (st.store.slot b).numops + n ≤ (st.store.slot b).capacity := by
  rcases val with - | dest
  · exact .inl rfl
  · have hne : pairs ≠ [] := by
      rintro rfl
      exact absurd hlen (Nat.ne_of_lt hn)
    exact .inr (hlen ▸ (loadLoop_isSome_iff (hs b) hne).mp (h dest rfl))

/-- The other calls do not conform: they leave the array, or succeed where they
have to fail. -/
theorem pre_of_ok (hs : st.store.Within) (hok : c.CapacityOk e st) : c.CapacityPre e st := by
  obtain ⟨r, hrun, -, hrep⟩ := hok
  cases c with
  | allocate b bsize =>
      obtain ⟨⟨ret, s'⟩, ha, -⟩ := Option.map_eq_some_iff.mp hrun
      obtain ⟨hb, -⟩ := allocateBatch_slot ha
      refine ⟨hb, ?_⟩
      -- a live batch is not allocated again, though the call reports success
      by_contra hops
      obtain ⟨s', hall, -⟩ := allocateBatch_of_lt (s := st.store) hb bsize
      rw [run, hall, Option.map_some] at hrun
      exact (hrep hops).1 (congrArg BatchReply.ret (Option.some.inj hrun)).symm
  | create msr cpu dest i b =>
      have hb : b + 1 < 2 ^ 31 := by
        by_contra hge
        rw [run, createBatchOp_of_ge (Nat.not_lt.mp hge)] at hrun
        cases hrun
      refine ⟨hb, ?_⟩
      -- the operation behind the last slot is a store out of bounds
      by_contra hfull
      rw [run, createBatchOp_fault hb (by rw [(hs b).2]; exact (hs b).1)
        (Nat.not_lt.mp hfull)] at hrun
      cases hrun
  | loadSocket msr val b =>
      refine load_of_ok msr hs (socketLoop_length e.topo) e.topo.nsockets_pos ?_
      rintro dest rfl
      obtain ⟨⟨ret, val', s'⟩, hload, -⟩ := Option.map_eq_some_iff.mp hrun
      obtain ⟨r', hr', -⟩ := Option.map_eq_some_iff.mp hload
      exact ⟨r', hr'⟩
  | loadThread msr val b =>
      refine load_of_ok msr hs (threadPairs_length e.topo) e.topo.nthreads_pos ?_
      rintro dest rfl
      obtain ⟨⟨ret, val', s'⟩, hload, -⟩ := Option.map_eq_some_iff.mp hrun
      obtain ⟨r', hr', -⟩ := Option.map_eq_some_iff.mp hload
      exact ⟨r', hr'⟩
  | read b =>
      by_contra hge
      rw [run, readBatch, doBatchOp_of_ge (Nat.not_lt.mp hge)] at hrun
      cases hrun
  | write b =>
      by_contra hge
      rw [run, writeBatch, doBatchOp_of_ge (Nat.not_lt.mp hge)] at hrun
      cases hrun

/-- Within the arrays, a call conforms exactly when it is one of those. -/
theorem capacityOk_iff (hs : st.store.Within) : c.CapacityOk e st ↔ c.CapacityPre e st := by
  constructor
  · exact pre_of_ok hs
  · intro hpre
    obtain ⟨r, hrun, hwith, hrep⟩ := run_of_pre hs hpre
    exact ⟨r, hrun, fun b => (hwith b).1, hrep⟩

theorem step_within {st' : MsrState} (hs : st.store.Within) (hpre : c.CapacityPre e st)
    (hstep : c.step e st = some st') : st'.store.Within := by
  obtain ⟨r, hrun, hwith, -⟩ := run_of_pre hs hpre
  rw [step, hrun, Option.map_some] at hstep
  exact Option.some.inj hstep ▸ hwith

end BatchCall

/-! ### Runs -/

/-- **Batch capacity over whole runs.**  From the start, a run of calls stays
inside its arrays and reports every refusal exactly when each of its calls is
made on a batch that can take it. -/
theorem capacity_iff (e : MsrEnv) (m : Machine) (calls : List BatchCall) :
    Along (BatchCall.step e) (fun st c => c.CapacityOk e st) (.start m) calls ↔
      Along (BatchCall.step e) (fun st c => c.CapacityPre e st) (.start m) calls := by
  refine along_iff_of_inv (fun st => st.store.Within) ?_ ?_ BatchStorage.within_start
  · exact fun hs hok hstep =>
      BatchCall.step_within hs ((BatchCall.capacityOk_iff hs).mp hok) hstep
  · exact fun hs => BatchCall.capacityOk_iff hs

/-- The second of two operations on a batch of one entry is not refused: it is
stored behind the array. -/
theorem createBatchOp_beyond :
    ¬ Along (BatchCall.step twoSocketEnv) (fun st c => c.CapacityOk twoSocketEnv st)
        (.start ⟨fun _ _ => 0, []⟩)
        [.allocate 0 1, .create 0x610 0 (fun _ => none) 0 0,
          .create 0x610 2 (fun _ => none) 1 0] := by
  rintro ⟨-, h₁⟩
  obtain ⟨-, h₂⟩ := h₁ _ rfl
  obtain ⟨⟨r, hr, -⟩, -⟩ := h₂ _ rfl
  cases hr

/-- A conforming run goes through, and leaves every batch within its array. -/
theorem exec_of_pre {e : MsrEnv} {st : MsrState} {calls : List BatchCall} (hs : st.store.Within)
    (hpre : Along (BatchCall.step e) (fun st c => c.CapacityPre e st) st calls) :
    ∃ st', exec (BatchCall.step e) st calls = some st' ∧ st'.store.Within := by
  have hboth : Along (BatchCall.step e) (fun st c => st.store.Within ∧ c.CapacityPre e st)
      st calls :=
    hpre.imp_of_inv (fun st => st.store.Within) BatchCall.step_within (fun hw hp => ⟨hw, hp⟩) hs
  obtain ⟨st', hexec⟩ := hboth.exec_isSome fun {st c} h => by
    obtain ⟨r, hrun, -⟩ := BatchCall.run_of_pre h.1 h.2
    exact ⟨r.state, congrArg (Option.map _) hrun⟩
  exact ⟨st', hexec,
    hpre.exec_inv (fun st => st.store.Within) BatchCall.step_within hs hexec⟩

end Variorum
