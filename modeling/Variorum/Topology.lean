/-
Variorum/Topology.lean

The node topology: what `variorum_get_topology` accepts, the CPU at a
(socket, core, thread) coordinate, and `devidx`, the flattening the register
code uses.

`variorum_get_topology` asks hwloc for the number of sockets, cores and
hardware threads and ends the process unless each of them is a positive count
at one level and the cores divide evenly over the sockets and the threads over
the cores.  A `Topology` carries what survives those checks, so every function
below it takes the checks as facts.

`devidx` computes in C `unsigned` arithmetic and checks nothing.  Where the
coordinate is in range and `socket * ncores` does not overflow it is the CPU
number `Topology.cpu` (`devidx_toNat_of_valid`); elsewhere it is some other
number modulo 2^32 (`devidx_toNat`).
-/
import Mathlib.Data.Nat.ModEq
import Mathlib.Tactic.Ring
import Mathlib.Tactic.Linarith

namespace Variorum

/-! ### What hwloc reports -/

/-- The answer of `hwloc_get_nbobjs_by_type`: `-1` when the objects sit at
several levels of the topology, else their number, a C `int`. -/
inductive NbObjs
  | severalLevels
  | count (n : Fin (2 ^ 31))

/-- `g_platform[idx].{num_sockets, total_cores, total_threads}` once
`variorum_get_topology` has returned. -/
structure Topology where
  nsockets : Nat
  ncores : Nat
  nthreads : Nat
  nsockets_pos : 0 < nsockets
  ncores_pos : 0 < ncores
  nthreads_pos : 0 < nthreads
  nsockets_dvd : nsockets ∣ ncores
  ncores_dvd : ncores ∣ nthreads
  nthreads_lt : nthreads < 2 ^ 31

/-- `variorum_get_topology`; `none` is its `exit(-1)`. -/
def variorumGetTopology : NbObjs → NbObjs → NbObjs → Option Topology
  | .count sockets, .count cores, .count threads =>
      if h : 0 < sockets.val ∧ 0 < cores.val ∧ 0 < threads.val ∧
          cores.val % sockets.val = 0 ∧ threads.val % cores.val = 0 then
        some
          { nsockets := sockets, ncores := cores, nthreads := threads
            nsockets_pos := h.1, ncores_pos := h.2.1, nthreads_pos := h.2.2.1
            nsockets_dvd := Nat.dvd_of_mod_eq_zero h.2.2.2.1
            ncores_dvd := Nat.dvd_of_mod_eq_zero h.2.2.2.2
            nthreads_lt := threads.isLt }
      else none
  | _, _, _ => none

namespace Topology

variable (t : Topology)

theorem ncores_le : t.ncores ≤ t.nthreads := Nat.le_of_dvd t.nthreads_pos t.ncores_dvd

theorem nsockets_le : t.nsockets ≤ t.ncores := Nat.le_of_dvd t.ncores_pos t.nsockets_dvd

theorem nsockets_lt : t.nsockets < 2 ^ 31 :=
  (t.nsockets_le.trans t.ncores_le).trans_lt t.nthreads_lt

/-- Every topology is one `variorum_get_topology` accepts, so a statement about
all of them is a statement about all accepted ones and no others. -/
theorem accepted :
    ∃ sockets cores threads, variorumGetTopology sockets cores threads = some t := by
  have hc := t.ncores_le
  have hs := t.nsockets_le
  have ht := t.nthreads_lt
  refine ⟨.count ⟨t.nsockets, by omega⟩, .count ⟨t.ncores, by omega⟩,
    .count ⟨t.nthreads, ht⟩, ?_⟩
  have h : 0 < t.nsockets ∧ 0 < t.ncores ∧ 0 < t.nthreads ∧
      t.ncores % t.nsockets = 0 ∧ t.nthreads % t.ncores = 0 :=
    ⟨t.nsockets_pos, t.ncores_pos, t.nthreads_pos,
      Nat.mod_eq_zero_of_dvd t.nsockets_dvd, Nat.mod_eq_zero_of_dvd t.ncores_dvd⟩
  simp only [variorumGetTopology, dif_pos h]

/-! ### Coordinates -/

/-- `num_cores_per_socket`. -/
def coresPerSocket : Nat := t.ncores / t.nsockets

/-- `num_threads_per_core`. -/
def threadsPerCore : Nat := t.nthreads / t.ncores

theorem nsockets_mul_coresPerSocket : t.nsockets * t.coresPerSocket = t.ncores :=
  Nat.mul_div_cancel' t.nsockets_dvd

theorem ncores_mul_threadsPerCore : t.ncores * t.threadsPerCore = t.nthreads :=
  Nat.mul_div_cancel' t.ncores_dvd

theorem coresPerSocket_pos : 0 < t.coresPerSocket :=
  Nat.div_pos t.nsockets_le t.nsockets_pos

theorem threadsPerCore_pos : 0 < t.threadsPerCore :=
  Nat.div_pos t.ncores_le t.ncores_pos

/-- The coordinate names a hardware thread of the node. -/
def Valid (socket core thread : Nat) : Prop :=
  socket < t.nsockets ∧ core < t.coresPerSocket ∧ thread < t.threadsPerCore

instance (socket core thread : Nat) : Decidable (t.Valid socket core thread) := by
  unfold Valid; infer_instance

/-- The CPU at a coordinate: hardware threads are numbered thread-major, then
by socket, then by core. -/
def cpu (socket core thread : Nat) : Nat :=
  thread * t.ncores + socket * t.coresPerSocket + core

variable {t}

theorem Valid.offset_lt {socket core thread : Nat} (h : t.Valid socket core thread) :
    socket * t.coresPerSocket + core < t.ncores := by
  obtain ⟨hs, hc, -⟩ := h
  calc socket * t.coresPerSocket + core
      < (socket + 1) * t.coresPerSocket := by rw [Nat.succ_mul]; omega
    _ ≤ t.nsockets * t.coresPerSocket := Nat.mul_le_mul_right _ hs
    _ = t.ncores := t.nsockets_mul_coresPerSocket

theorem Valid.cpu_lt {socket core thread : Nat} (h : t.Valid socket core thread) :
    t.cpu socket core thread < t.nthreads := by
  have ho := h.offset_lt
  calc t.cpu socket core thread
      < (thread + 1) * t.ncores := by unfold cpu; rw [Nat.succ_mul]; omega
    _ ≤ t.threadsPerCore * t.ncores := Nat.mul_le_mul_right _ h.2.2
    _ = t.nthreads := by rw [Nat.mul_comm, t.ncores_mul_threadsPerCore]

/-- Every CPU of the node has a coordinate. -/
theorem exists_cpu {c : Nat} (h : c < t.nthreads) :
    ∃ socket core thread, t.Valid socket core thread ∧ t.cpu socket core thread = c := by
  have hcore : c % t.ncores < t.nsockets * t.coresPerSocket :=
    t.nsockets_mul_coresPerSocket.symm ▸ Nat.mod_lt _ t.ncores_pos
  have hthread : c < t.threadsPerCore * t.ncores := by
    rwa [Nat.mul_comm, t.ncores_mul_threadsPerCore]
  refine ⟨c % t.ncores / t.coresPerSocket, c % t.ncores % t.coresPerSocket, c / t.ncores,
    ⟨?_, Nat.mod_lt _ t.coresPerSocket_pos, ?_⟩, ?_⟩
  · rwa [Nat.div_lt_iff_lt_mul t.coresPerSocket_pos]
  · rwa [Nat.div_lt_iff_lt_mul t.ncores_pos]
  · rw [cpu, Nat.mul_comm, Nat.mul_comm (_ / t.coresPerSocket), Nat.add_assoc, Nat.div_add_mod,
      Nat.div_add_mod]

/-- No two coordinates share a CPU. -/
theorem Valid.cpu_inj {socket core thread socket' core' thread' : Nat}
    (h : t.Valid socket core thread) (h' : t.Valid socket' core' thread')
    (heq : t.cpu socket core thread = t.cpu socket' core' thread') :
    socket = socket' ∧ core = core' ∧ thread = thread' := by
  -- two digits determine the number they make, in either radix
  have digits : ∀ {b x y x' y' : Nat}, y < b → y' < b → x * b + y = x' * b + y' →
      x = x' ∧ y = y' := by
    intro b x y x' y' hy hy' hxy
    have hx := congrArg (· / b) hxy
    have hmod := congrArg (· % b) hxy
    simp only [Nat.mul_comm _ b, Nat.mul_add_div (Nat.zero_lt_of_lt hy), Nat.mul_add_mod,
      Nat.div_eq_of_lt hy, Nat.div_eq_of_lt hy', Nat.mod_eq_of_lt hy, Nat.mod_eq_of_lt hy',
      Nat.add_zero] at hx hmod
    exact ⟨hx, hmod⟩
  unfold cpu at heq
  rw [Nat.add_assoc, Nat.add_assoc] at heq
  obtain ⟨hthread, hrest⟩ := digits h.offset_lt h'.offset_lt heq
  obtain ⟨hsocket, hcore⟩ := digits h.2.1 h'.2.1 hrest
  exact ⟨hsocket, hcore, hthread⟩

/-- The first hardware thread of a socket, where socket registers are
accessed. -/
theorem valid_socket {socket : Nat} (h : socket < t.nsockets) : t.Valid socket 0 0 :=
  ⟨h, t.coresPerSocket_pos, t.threadsPerCore_pos⟩

theorem cpu_socket (socket : Nat) : t.cpu socket 0 0 = socket * t.coresPerSocket := by
  simp [cpu]

theorem cpu_socket_lt_iff {socket socket' : Nat} :
    t.cpu socket 0 0 < t.cpu socket' 0 0 ↔ socket < socket' := by
  rw [cpu_socket, cpu_socket, Nat.mul_lt_mul_right t.coresPerSocket_pos]

theorem cpu_socket_inj {socket socket' : Nat} :
    t.cpu socket 0 0 = t.cpu socket' 0 0 ↔ socket = socket' := by
  rw [cpu_socket, cpu_socket, Nat.mul_left_inj t.coresPerSocket_pos.ne']

end Topology

/-! ### The flattening -/

/-- `devidx`, in `unsigned` arithmetic; the result is returned as `uint64_t`. -/
def devidx (t : Topology) (socket core thread : BitVec 32) : BitVec 64 :=
  let nsockets := BitVec.ofNat 32 t.nsockets
  let ncores := BitVec.ofNat 32 t.ncores
  ((thread * nsockets * (ncores / nsockets)) + (socket * ncores / nsockets)
    + core).setWidth 64

variable (t : Topology) (socket core thread : BitVec 32)

/-- The number `devidx` computes, as an arithmetic expression. -/
def flatIndex : Nat :=
  (thread.toNat * t.ncores + socket.toNat * t.ncores % 2 ^ 32 / t.nsockets
    + core.toNat) % 2 ^ 32

theorem devidx_toNat : (devidx t socket core thread).toNat = flatIndex t socket core thread := by
  have hc := t.ncores_le
  have hs := t.nsockets_le
  have ht := t.nthreads_lt
  have hns : t.nsockets % 2 ^ 32 = t.nsockets := Nat.mod_eq_of_lt (by omega)
  have hnc : t.ncores % 2 ^ 32 = t.ncores := Nat.mod_eq_of_lt (by omega)
  have hmul : thread.toNat * t.nsockets * (t.ncores / t.nsockets) = thread.toNat * t.ncores := by
    rw [Nat.mul_assoc, Nat.mul_div_cancel' t.nsockets_dvd]
  simp only [devidx, flatIndex, BitVec.toNat_setWidth, BitVec.toNat_add, BitVec.toNat_mul,
    BitVec.toNat_udiv, BitVec.toNat_ofNat, hns, hnc, Nat.mod_mul_mod, Nat.mod_add_mod, hmul]
  exact Nat.mod_eq_of_lt (lt_of_lt_of_le (Nat.mod_lt _ (by decide)) (by decide))

/-- In range and without overflow of `socket * ncores`, the flattening is the
CPU number. -/
theorem flatIndex_of_valid (h : t.Valid socket.toNat core.toNat thread.toNat)
    (hfit : socket.toNat * t.ncores < 2 ^ 32) :
    flatIndex t socket core thread = t.cpu socket.toNat core.toNat thread.toNat := by
  have hdiv : socket.toNat * t.ncores / t.nsockets = socket.toNat * t.coresPerSocket :=
    Nat.mul_div_assoc _ t.nsockets_dvd
  have hlt := h.cpu_lt
  have ht := t.nthreads_lt
  rw [flatIndex, Nat.mod_eq_of_lt hfit, hdiv]
  exact Nat.mod_eq_of_lt (by unfold Topology.cpu at hlt; omega)

/-- Where `socket * ncores` overflows, the flattening falls short of the CPU
number. -/
theorem flatIndex_lt_of_overflow (hover : 2 ^ 32 ≤ socket.toNat * t.ncores) :
    flatIndex t socket core thread < t.cpu socket.toNat core.toNat thread.toNat := by
  have hsmall : socket.toNat * t.ncores % 2 ^ 32 < socket.toNat * t.ncores :=
    lt_of_lt_of_le (Nat.mod_lt _ (by decide)) hover
  have hdiv : socket.toNat * t.ncores % 2 ^ 32 / t.nsockets
      < socket.toNat * t.coresPerSocket := by
    rw [Nat.div_lt_iff_lt_mul t.nsockets_pos, Nat.mul_assoc, Nat.mul_comm t.coresPerSocket,
      t.nsockets_mul_coresPerSocket]
    exact hsmall
  calc flatIndex t socket core thread
      ≤ thread.toNat * t.ncores + socket.toNat * t.ncores % 2 ^ 32 / t.nsockets
          + core.toNat := Nat.mod_le _ _
    _ < t.cpu socket.toNat core.toNat thread.toNat := by unfold Topology.cpu; omega


/-- At a valid coordinate the flattening is the number of some CPU. -/
theorem flatIndex_lt_nthreads (h : t.Valid socket.toNat core.toNat thread.toNat) :
    flatIndex t socket core thread < t.nthreads := by
  rcases Nat.lt_or_ge (socket.toNat * t.ncores) (2 ^ 32) with hfit | hover
  · rw [flatIndex_of_valid t socket core thread h hfit]
    exact h.cpu_lt
  · exact (flatIndex_lt_of_overflow t socket core thread hover).trans h.cpu_lt

end Variorum
