/-
Variorum/MsrCore.lean

Access to one register: `core_fd`, `read_msr_by_idx`, `write_msr_by_idx` and
their wrappers by (socket, core, thread) coordinate.

Between `init_msr` and `finalize_msr` slot `i` of the descriptor table of
`core_fd` is open on the device file of CPU `i`, so a slot is named by its CPU
here.

The wrappers call `sockets_assert`, `cores_assert` and `threads_assert` and
drop what they answer, so nothing but the bound in `core_fd` stands between a
coordinate and a register: whatever number `devidx` makes of the coordinate is
accessed as soon as it is below the number of threads
(`CoordCall.run_of_lt`).  `coordSafe_iff` says for which coordinates that is
harmless.
-/
import Variorum.Error
import Variorum.MsrDevice
import Variorum.Topology

namespace Variorum

/-! ### One CPU -/

/-- `core_fd`: the descriptor slot of a logical processor; `none` is the NULL
pointer. -/
def coreFd (t : Topology) (devIdx : BitVec 32) : Option Nat :=
  if devIdx.toNat < t.nthreads then some devIdx.toNat else none

/-- `read_msr_by_idx`.  The cell behind `val` keeps its contents when nothing
is read. -/
def readMsrByIdx (t : Topology) (d : Driver) (devIdx : BitVec 32) (msr : Nat)
    (val : BitVec 64) (m : Machine) : Int × BitVec 64 × Machine :=
  match coreFd t devIdx with
  | none => (-1, val, m)
  | some fd =>
      match m.pread d fd msr with
      | (none, m') => (VariorumError.msrRead.code, val, m')
      | (some v, m') => (0, v, m')

/-- `write_msr_by_idx`. -/
def writeMsrByIdx (t : Topology) (d : Driver) (devIdx : BitVec 32) (msr : Nat)
    (val : BitVec 64) (m : Machine) : Int × Machine :=
  match coreFd t devIdx with
  | none => (-1, m)
  | some fd =>
      match m.pwrite d fd msr val with
      | (false, m') => (VariorumError.msrWrite.code, m')
      | (true, m') => (0, m')

/-! ### The coordinate checks -/

/-- `sockets_assert`. -/
def socketsAssert (t : Topology) (socket : BitVec 32) : Int :=
  if socket.toNat > t.nsockets then VariorumError.platformEnv.code else 0

/-- `threads_assert`. -/
def threadsAssert (t : Topology) (thread : BitVec 32) : Int :=
  if thread.toNat > t.nthreads then VariorumError.platformEnv.code else 0

/-- `cores_assert`. -/
def coresAssert (t : Topology) (core : BitVec 32) : Int :=
  if core.toNat > t.ncores then VariorumError.platformEnv.code else 0

/-! ### By coordinate -/

/-- `write_msr_by_coord`. -/
def writeMsrByCoord (t : Topology) (d : Driver) (socket core thread : BitVec 32) (msr : Nat)
    (val : BitVec 64) (m : Machine) : Int × Machine :=
  -- the results of the three checks are not looked at
  let _ := socketsAssert t socket
  let _ := coresAssert t core
  let _ := threadsAssert t thread
  writeMsrByIdx t d ((devidx t socket core thread).setWidth 32) msr val m

/-- `read_msr_by_coord`; `val` is `none` for a NULL pointer. -/
def readMsrByCoord (t : Topology) (d : Driver) (socket core thread : BitVec 32) (msr : Nat)
    (val : Option (BitVec 64)) (m : Machine) : Int × Option (BitVec 64) × Machine :=
  let _ := socketsAssert t socket
  let _ := coresAssert t core
  let _ := threadsAssert t thread
  match val with
  | none => (VariorumError.msrRead.code, none, m)
  | some v =>
      let (ret, v', m') := readMsrByIdx t d ((devidx t socket core thread).setWidth 32) msr v m
      (ret, some v', m')

/-! ### Specifications by index -/

section ByIdx

variable {t : Topology} {d : Driver} {devIdx : BitVec 32} {msr : Nat} {val : BitVec 64}
variable {m : Machine}

theorem readMsrByIdx_of_ge (h : t.nthreads ≤ devIdx.toNat) :
    readMsrByIdx t d devIdx msr val m = (-1, val, m) := by
  simp [readMsrByIdx, coreFd, Nat.not_lt.mpr h]

theorem writeMsrByIdx_of_ge (h : t.nthreads ≤ devIdx.toNat) :
    writeMsrByIdx t d devIdx msr val m = (-1, m) := by
  simp [writeMsrByIdx, coreFd, Nat.not_lt.mpr h]

theorem readMsrByIdx_of_lt (h : devIdx.toNat < t.nthreads) :
    readMsrByIdx t d devIdx msr val m
      = match m.pread d devIdx.toNat msr with
        | (none, m') => (VariorumError.msrRead.code, val, m')
        | (some v, m') => (0, v, m') := by
  simp only [readMsrByIdx, coreFd, if_pos h]

theorem writeMsrByIdx_of_lt (h : devIdx.toNat < t.nthreads) :
    writeMsrByIdx t d devIdx msr val m
      = match m.pwrite d devIdx.toNat msr val with
        | (false, m') => (VariorumError.msrWrite.code, m')
        | (true, m') => (0, m') := by
  simp only [writeMsrByIdx, coreFd, if_pos h]

end ByIdx

/-! ### Coordinate safety -/

/-- A call of one of the two wrappers, apart from its coordinate. -/
inductive CoordCall
  | read (val : Option (BitVec 64))
  | write (val : BitVec 64)

namespace CoordCall

/-- What a wrapper does: its return value, the cell behind `val`, the machine
after it. -/
def run (t : Topology) (d : Driver) (socket core thread : BitVec 32) (msr : Nat) (m : Machine) :
    CoordCall → Int × Option (BitVec 64) × Machine
  | read val => readMsrByCoord t d socket core thread msr val m
  | write val =>
      let (ret, m') := writeMsrByCoord t d socket core thread msr val m
      (ret, none, m')

/-- What the same call does when addressed to one CPU: a single access to that
CPU's register, or none when there is nowhere to read into. -/
def onCpu (d : Driver) (cpu msr : Nat) (m : Machine) :
    CoordCall → Int × Option (BitVec 64) × Machine
  | read none => (VariorumError.msrRead.code, none, m)
  | read (some val) =>
      match m.pread d cpu msr with
      | (none, m') => (VariorumError.msrRead.code, some val, m')
      | (some v, m') => (0, some v, m')
  | write val =>
      match m.pwrite d cpu msr val with
      | (false, m') => (VariorumError.msrWrite.code, none, m')
      | (true, m') => (0, none, m')

variable {t : Topology} {d : Driver} {socket core thread : BitVec 32} {msr : Nat} {m : Machine}

theorem idx_toNat (t : Topology) (socket core thread : BitVec 32) :
    ((devidx t socket core thread).setWidth 32).toNat = flatIndex t socket core thread := by
  rw [BitVec.toNat_setWidth, devidx_toNat]
  exact Nat.mod_eq_of_lt (Nat.mod_lt _ (by decide))

/-- Below the number of threads, the flattened number is the CPU accessed,
whatever the coordinate. -/
theorem run_of_lt (h : flatIndex t socket core thread < t.nthreads) (call : CoordCall) :
    call.run t d socket core thread msr m
      = call.onCpu d (flatIndex t socket core thread) msr m := by
  have hidx := idx_toNat t socket core thread
  rcases call with (- | val) | val
  · rfl
  · simp only [run, readMsrByCoord, readMsrByIdx_of_lt (hidx ▸ h), onCpu, hidx]
    rcases m.pread d (flatIndex t socket core thread) msr with ⟨- | v, m'⟩ <;> rfl
  · simp only [run, writeMsrByCoord, writeMsrByIdx_of_lt (hidx ▸ h), onCpu, hidx]
    rcases m.pwrite d (flatIndex t socket core thread) msr val with ⟨- | -, m'⟩ <;> rfl

/-- At or above it, the call fails and touches nothing. -/
theorem run_of_ge (h : t.nthreads ≤ flatIndex t socket core thread) (call : CoordCall) :
    (call.run t d socket core thread msr m).1 ≠ 0 ∧
      (call.run t d socket core thread msr m).2.2 = m := by
  have hidx := idx_toNat t socket core thread
  rcases call with (- | val) | val
  · exact ⟨VariorumError.msrRead.code_ne_zero, rfl⟩
  · simp [run, readMsrByCoord, readMsrByIdx_of_ge (hidx ▸ h)]
  · simp [run, writeMsrByCoord, writeMsrByIdx_of_ge (hidx ▸ h)]

/-- A call addressed to a CPU records one access, to that CPU. -/
theorem onCpu_log (d : Driver) (msr : Nat) (m : Machine) {call : CoordCall}
    (h : call ≠ read none) (cpu : Nat) :
    ∃ dir, (call.onCpu d cpu msr m).2.2.log = m.log ++ [⟨dir, cpu, msr⟩] := by
  rcases call with (- | val) | val
  · exact absurd rfl h
  · refine ⟨.read, ?_⟩
    have hl := m.pread_log d cpu msr
    simp only [onCpu]
    rcases e : m.pread d cpu msr with ⟨- | v, m'⟩ <;> simpa [e] using hl
  · refine ⟨.write, ?_⟩
    have hl := m.pwrite_log d cpu msr val
    simp only [onCpu]
    rcases e : m.pwrite d cpu msr val with ⟨- | -, m'⟩ <;> simpa [e] using hl

end CoordCall

/-- Coordinate safety of one call: at a valid coordinate it is the access to
the CPU of that coordinate, and at any other it fails and touches no register
of any CPU. -/
def CoordSafe (t : Topology) (d : Driver) (socket core thread : BitVec 32) (msr : Nat)
    (m : Machine) (call : CoordCall) : Prop :=
  (t.Valid socket.toNat core.toNat thread.toNat →
    call.run t d socket core thread msr m
      = call.onCpu d (t.cpu socket.toNat core.toNat thread.toNat) msr m) ∧
  (¬ t.Valid socket.toNat core.toNat thread.toNat →
    (call.run t d socket core thread msr m).1 ≠ 0 ∧
      (call.run t d socket core thread msr m).2.2 = m)

/-- The coordinates that are handled safely: the valid ones where
`socket * ncores` fits in 32 bits, and of the others those whose flattened
number is not a CPU of the node. -/
def CoordHandled (t : Topology) (socket core thread : BitVec 32) : Prop :=
  if t.Valid socket.toNat core.toNat thread.toNat then socket.toNat * t.ncores < 2 ^ 32
  else t.nthreads ≤ flatIndex t socket core thread

/-- **Coordinate safety, exactly.**  Apart from a read into NULL, which is
refused before anything else, a call is safe precisely at the handled
coordinates: any other coordinate flattens to the number of some other CPU,
and that CPU's register is read or written. -/
theorem coordSafe_iff (t : Topology) (d : Driver) (socket core thread : BitVec 32) (msr : Nat)
    (m : Machine) (call : CoordCall) :
    CoordSafe t d socket core thread msr m call ↔
      call = .read none ∨ CoordHandled t socket core thread := by
  -- a read without a place for the value is refused before the coordinate is looked at
  by_cases hnull : call = .read none
  · subst hnull
    have hret : (CoordCall.run t d socket core thread msr m (.read none)).1 ≠ 0 :=
      VariorumError.msrRead.code_ne_zero
    exact ⟨fun _ => .inl rfl, fun _ => ⟨fun _ => rfl, fun _ => ⟨hret, rfl⟩⟩⟩
  rw [or_iff_right hnull]
  unfold CoordSafe CoordHandled
  by_cases hv : t.Valid socket.toNat core.toNat thread.toNat
  · -- valid: the flattening must hit the CPU of the coordinate
    simp only [hv, not_true_eq_false, false_imp_iff, true_imp_iff, and_true, if_true]
    constructor
    · intro hrun
      by_contra hover
      have hlt := flatIndex_lt_of_overflow t socket core thread (Nat.not_lt.mp hover)
      rw [CoordCall.run_of_lt (hlt.trans hv.cpu_lt)] at hrun
      obtain ⟨_, h₁⟩ := CoordCall.onCpu_log d msr m hnull
        (flatIndex t socket core thread)
      obtain ⟨_, h₂⟩ := CoordCall.onCpu_log d msr m hnull
        (t.cpu socket.toNat core.toNat thread.toNat)
      rw [hrun, h₂] at h₁
      simp only [List.append_cancel_left_eq, List.cons.injEq, Access.mk.injEq] at h₁
      omega
    · intro hfit
      have hidx := flatIndex_of_valid t socket core thread hv hfit
      rw [CoordCall.run_of_lt (hidx ▸ hv.cpu_lt), hidx]
  · -- out of range: the flattening must miss every CPU
    simp only [hv, not_false_eq_true, true_imp_iff, false_imp_iff, true_and, if_false]
    constructor
    · rintro ⟨-, hm⟩
      by_contra hlt
      rw [CoordCall.run_of_lt (Nat.not_le.mp hlt)] at hm
      obtain ⟨_, hlog⟩ := CoordCall.onCpu_log d msr m hnull
        (flatIndex t socket core thread)
      rw [hm] at hlog
      simp at hlog
    · exact fun hge => CoordCall.run_of_ge hge call

/-- Two sockets of two cores, two threads a core. -/
def twoSockets : Topology where
  nsockets := 2
  ncores := 4
  nthreads := 8
  nsockets_pos := by decide
  ncores_pos := by decide
  nthreads_pos := by decide
  nsockets_dvd := by decide
  ncores_dvd := by decide
  nthreads_lt := by decide

/-- Core 2 does not exist on socket 0 of the two-socket node, yet writing to it
succeeds: the register of CPU 2, on socket 1, takes the value. -/
theorem writeMsrByCoord_other_socket :
    ¬ twoSockets.Valid 0 2 0 ∧
      writeMsrByCoord twoSockets ⟨fun _ _ => false⟩ 0 2 0 0x610 7 ⟨fun _ _ => 0, []⟩
        = (0, ⟨Machine.store ⟨fun _ _ => 0, []⟩ 2 0x610 7, [⟨.write, 2, 0x610⟩]⟩) ∧
      ¬ CoordSafe twoSockets ⟨fun _ _ => false⟩ 0 2 0 0x610 ⟨fun _ _ => 0, []⟩ (.write 7) := by
  refine ⟨by decide, rfl, fun h => ?_⟩
  exact (h.2 (by decide)).1 rfl

/-! ### By socket

Socket registers are accessed at core 0, thread 0 of the socket.  The CPU
reached is the first of the socket unless `socket * ncores` overflows. -/

/-- The CPU that `read_msr_by_coord(socket, 0, 0, ..)` comes to. -/
def socketIndex (t : Topology) (socket : Nat) : Nat :=
  flatIndex t (BitVec.ofNat 32 socket) 0#32 0#32

section BySocket

variable {t : Topology} {socket : Nat}

theorem socket_toNat (h : socket < t.nsockets) : (BitVec.ofNat 32 socket).toNat = socket := by
  have hs := t.nsockets_le
  have hc := t.ncores_le
  have ht := t.nthreads_lt
  rw [BitVec.toNat_ofNat]
  exact Nat.mod_eq_of_lt (by omega)

theorem socketIndex_of_fits (h : socket < t.nsockets) (hfit : socket * t.ncores < 2 ^ 32) :
    socketIndex t socket = t.cpu socket 0 0 := by
  have hsocket := socket_toNat h
  have hv : t.Valid (BitVec.ofNat 32 socket).toNat (0#32).toNat (0#32).toNat :=
    hsocket.symm ▸ Topology.valid_socket h
  rw [socketIndex, flatIndex_of_valid t _ _ _ hv (hsocket.symm ▸ hfit), hsocket]
  rfl

theorem socketIndex_lt (h : socket < t.nsockets) : socketIndex t socket < t.nthreads := by
  have hcpu : t.cpu socket 0 0 < t.nthreads := (Topology.valid_socket h).cpu_lt
  rcases Nat.lt_or_ge (socket * t.ncores) (2 ^ 32) with hfit | hover
  · rwa [socketIndex_of_fits h hfit]
  · have hlt := flatIndex_lt_of_overflow t (BitVec.ofNat 32 socket) 0#32 0#32
      (by rwa [socket_toNat h])
    rw [socket_toNat h] at hlt
    exact hlt.trans hcpu

/-- Where the last socket fits, every socket is reached at its own CPU. -/
theorem socketIndex_of_last_fits (hfit : (t.nsockets - 1) * t.ncores < 2 ^ 32)
    (h : socket < t.nsockets) : socketIndex t socket = t.cpu socket 0 0 :=
  socketIndex_of_fits h ((Nat.mul_le_mul_right _ (by omega)).trans_lt hfit)

/-- Where the last socket does not fit, no socket is reached at its CPU. -/
theorem socketIndex_ne_last (hover : 2 ^ 32 ≤ (t.nsockets - 1) * t.ncores)
    (h : socket < t.nsockets) : socketIndex t socket ≠ t.cpu (t.nsockets - 1) 0 0 := by
  apply Nat.ne_of_lt
  rcases Nat.lt_or_ge (socket * t.ncores) (2 ^ 32) with hfit | hover'
  · rw [socketIndex_of_fits h hfit, Topology.cpu_socket_lt_iff]
    exact Nat.lt_of_mul_lt_mul_right (hfit.trans_le hover)
  · have hlt := flatIndex_lt_of_overflow t (BitVec.ofNat 32 socket) 0#32 0#32
      (by rwa [socket_toNat h])
    rw [socket_toNat h] at hlt
    refine hlt.trans_le (Nat.not_lt.mp ?_)
    show ¬ t.cpu (t.nsockets - 1) 0 0 < t.cpu socket 0 0
    rw [Topology.cpu_socket_lt_iff]
    omega

variable {d : Driver} {msr : Nat} {m : Machine}

theorem readMsrByCoord_socket (h : socket < t.nsockets) (val : BitVec 64) :
    readMsrByCoord t d (BitVec.ofNat 32 socket) 0#32 0#32 msr (some val) m
      = match m.pread d (socketIndex t socket) msr with
        | (none, m') => (VariorumError.msrRead.code, some val, m')
        | (some v, m') => (0, some v, m') :=
  CoordCall.run_of_lt (socketIndex_lt h) (.read (some val))

theorem writeMsrByCoord_socket (h : socket < t.nsockets) (val : BitVec 64) :
    writeMsrByCoord t d (BitVec.ofNat 32 socket) 0#32 0#32 msr val m
      = match m.pwrite d (socketIndex t socket) msr val with
        | (false, m') => (VariorumError.msrWrite.code, m')
        | (true, m') => (0, m') := by
  have hidx := CoordCall.idx_toNat t (BitVec.ofNat 32 socket) 0#32 0#32
  have hlt : ((devidx t (BitVec.ofNat 32 socket) 0#32 0#32).setWidth 32).toNat < t.nthreads :=
    hidx ▸ socketIndex_lt h
  simp only [writeMsrByCoord, writeMsrByIdx_of_lt hlt, hidx]
  rfl

end BySocket

end Variorum
