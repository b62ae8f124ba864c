/-
Variorum/GpuCap.lean

The power limit of GPUs: `cap_each_gpu_power_limit` of the NVIDIA and of the
AMD platform.

Both loop over the sockets of the node and, for each, over a block of devices,
as if the devices were spread evenly over the sockets: a remainder of the
division is never reached.  Both compute the limit in the driver's unit in 32
bits, report a driver call that fails, and return nothing.

The AMD function talks to the driver anew on each socket and ends the process
when it cannot be initialised.  It goes on when the devices cannot be counted,
with whatever was in the variable.
-/
import Variorum.Platform
import Variorum.Topology
import Variorum.History

namespace Variorum

open History

/-- The limits of the devices in the driver's unit, and the driver calls that
were reported as failed. -/
structure GpuState (κ : Type) where
  limit : Nat → Nat
  reported : List κ

section SetLimit

variable {κ : Type}

/-- The call that sets the limit of one device, and its report. -/
def setLimit (refuses : Nat → Bool) (report : Nat → κ) (value : Nat) (st : GpuState κ)
    (dev : Nat) : GpuState κ :=
  if refuses dev then { st with reported := st.reported ++ [report dev] }
  else { st with limit := Function.update st.limit dev value }

variable {refuses : Nat → Bool} {report : Nat → κ} {value : Nat} {st : GpuState κ}

/-- **A loop over devices** sets those the driver lets it set, and reports the
others. -/
theorem foldl_setLimit (devs : List Nat) (st : GpuState κ) :
    devs.foldl (setLimit refuses report value) st
      = { limit := fun d => if d ∈ devs ∧ refuses d = false then value else st.limit d
          reported := st.reported ++ (devs.filter refuses).map report } := by
  induction devs generalizing st with
  | nil => simp
  | cons dev devs ih =>
      rw [List.foldl_cons, ih]
      unfold setLimit
      cases hdev : refuses dev with
      | true =>
          simp only [if_true, List.filter_cons_of_pos hdev, List.map_cons, List.append_assoc,
            List.singleton_append, GpuState.mk.injEq, and_true]
          funext d
          by_cases hd : d = dev <;> simp [hd, hdev]
      | false =>
          have hnot : ¬ refuses dev = true := by simp [hdev]
          simp only [Bool.false_eq_true, if_false, List.filter_cons_of_neg hnot,
            GpuState.mk.injEq, and_true]
          funext d
          by_cases hd : d = dev <;> simp [hd, hdev]

/-- Blocks of `g` devices, one for each of `n` sockets, are the first `n * g`
devices. -/
theorem flatMap_blocks (n g : Nat) :
    (List.range n).flatMap (fun s => List.range' (s * g) g) = List.range (n * g) := by
  induction n with
  | zero => simp
  | succ n ih =>
      rw [List.range_succ, List.flatMap_append, ih, List.flatMap_singleton, Nat.succ_mul,
        List.range_add, List.range'_eq_map_range]

end SetLimit

/-- A device is limited to `watts` when the driver's unit is a `scale`-th of a
watt. -/
def HoldsGpuLimit (scale : Nat) (watts : BitVec 32) (limit : Nat) : Prop :=
  (limit : Int) = watts.toInt * scale

/-- The conversion to the driver's unit, in 32 bits, is right for the limits that
are not negative and fit. -/
theorem holdsGpuLimit_mul_iff {scale : Nat} (hpos : 0 < scale) (hlt : scale < 2 ^ 32)
    (watts : BitVec 32) :
    HoldsGpuLimit scale watts (watts * BitVec.ofNat 32 scale).toNat ↔
      0 ≤ watts.toInt ∧ watts.toInt * scale < 2 ^ 32 := by
  have hscale : (BitVec.ofNat 32 scale).toNat = scale := by
    rw [BitVec.toNat_ofNat, Nat.mod_eq_of_lt hlt]
  rw [HoldsGpuLimit, BitVec.toNat_mul, hscale]
  by_cases hsign : 0 ≤ watts.toInt
  · have hint : watts.toInt = (watts.toNat : Int) := by
      rw [BitVec.toInt_eq_toNat_cond] at hsign ⊢
      split at hsign
      · next h => rw [if_pos h]
      · have hw := watts.isLt
        omega
    rw [hint, and_iff_right (Int.natCast_nonneg _)]
    norm_cast
    exact Nat.mod_eq_iff_lt (by decide)
  · refine iff_of_false (fun heq => hsign ?_) fun h => hsign h.1
    have hnonneg : 0 ≤ watts.toInt * scale := heq ▸ Int.natCast_nonneg _
    exact nonneg_of_mul_nonneg_left hnonneg (by exact_mod_cast hpos)

/-! ### NVIDIA -/

/-- The node as the NVIDIA platform finds it: its devices, how many of them
`initNVML` counted (`m_total_unit_devices`), and which calls of
`nvmlDeviceSetPowerManagementLimit` fail.  Block bounds are `int`s. -/
structure NvmlNode where
  topo : Topology
  devices : Nat
  totalUnitDevices : Fin (2 ^ 31)
  refuses : Nat → Bool

/-- `m_gpus_per_socket`. -/
def NvmlNode.gpusPerSocket (node : NvmlNode) : Nat :=
  node.totalUnitDevices / node.topo.nsockets

/-- `cap_each_gpu_power_limit` of the NVIDIA platform; a report is the device. -/
def nvidiaCapEachGpuPowerLimit (node : NvmlNode) (chipid : Nat) (powerlimit : BitVec 32)
    (st : GpuState Nat) : GpuState Nat :=
  let powerlimitMwatts := powerlimit * 1000
  (List.range' (chipid * node.gpusPerSocket) node.gpusPerSocket).foldl
    (setLimit node.refuses id powerlimitMwatts.toNat) st

/-- `volta_cap_each_gpu_power_limit`: the sockets in order, each with the devices of its
block. -/
def voltaCapEachGpuPowerLimit (node : NvmlNode) (powerlimit : BitVec 32) : Call (GpuState Nat) :=
  fun st =>
    some (0, (List.range node.topo.nsockets).foldl
      (fun st iter => nvidiaCapEachGpuPowerLimit node iter powerlimit st) st)

/-- What it takes for a call to leave every device limited and have nothing
reported: no call fails on a device the blocks reach, a limit that reaches a
device is not negative and fits in 32 bits as milliwatts, and a device out of
reach has the limit before. -/
def NvidiaApplies (node : NvmlNode) (watts : BitVec 32) (st : GpuState Nat) : Prop :=
  (∀ d < node.topo.nsockets * node.gpusPerSocket, node.refuses d = false) ∧
    ∀ d < node.devices,
      if d < node.topo.nsockets * node.gpusPerSocket then
        0 ≤ watts.toInt ∧ watts.toInt * 1000 < 2 ^ 32
      else HoldsGpuLimit 1000 watts (st.limit d)

/-- **The loop over the sockets** is one over the devices the blocks reach. -/
theorem voltaCapEachGpuPowerLimit_eq (node : NvmlNode) (watts : BitVec 32) (st : GpuState Nat) :
    voltaCapEachGpuPowerLimit node watts st
      = some (0, (List.range (node.topo.nsockets * node.gpusPerSocket)).foldl
          (setLimit node.refuses id (watts * 1000).toNat) st) := by
  rw [← flatMap_blocks, List.foldl_flatMap]
  rfl

/-- **NVIDIA, exactly.**  When the call returns 0, every device has its limit and
nothing was reported, just under the condition. -/
theorem volta_applies_iff (node : NvmlNode) (watts : BitVec 32) (st : GpuState Nat) :
    (∀ st', voltaCapEachGpuPowerLimit node watts st = some (0, st') →
        st'.reported = st.reported ∧
          ∀ d < node.devices, HoldsGpuLimit 1000 watts (st'.limit d)) ↔
      NvidiaApplies node watts st := by
  rw [voltaCapEachGpuPowerLimit_eq, foldl_setLimit]
  simp only [Option.some.injEq, Prod.mk.injEq, true_and, forall_eq', List.append_right_eq_self,
    List.map_eq_nil_iff, List.filter_eq_nil_iff, List.mem_range, Bool.not_eq_true]
  refine and_congr_right fun hacc => forall_congr' fun d => imp_congr_right fun _ => ?_
  by_cases hd : d < node.topo.nsockets * node.gpusPerSocket
  · simp only [hd, hacc d hd, and_self, if_true]
    exact holdsGpuLimit_mul_iff (by decide) (by decide) watts
  · simp only [hd, false_and, if_false]

/-! ### AMD -/

/-- The calls of the ROCm driver in `cap_each_gpu_power_limit`. -/
inductive RsmiCall
  | init
  | numMonitorDevices
  | devPowerCapSet (dev : Nat)
  | shutDown
  deriving DecidableEq, Repr

/-- The node as the AMD platform finds it: its devices, which driver calls fail
on which socket, and what is in `num_devices`, never assigned, when the devices
cannot be counted. -/
structure RsmiNode where
  topo : Topology
  devices : Fin (2 ^ 31)
  refuses : Nat → RsmiCall → Bool
  unassigned : Nat → BitVec 32

/-- `gpus_per_socket` on a socket: an `unsigned` quotient in an `int`.  Block
bounds from a negative one are empty. -/
def RsmiNode.gpusPerSocket (node : RsmiNode) (chipid : Nat) : Nat :=
  let numDevices :=
    if node.refuses chipid .numMonitorDevices then node.unassigned chipid
    else BitVec.ofNat 32 node.devices
  (numDevices / BitVec.ofNat 32 node.topo.nsockets).toInt.toNat

/-- Report a call if it failed. -/
def RsmiNode.check (node : RsmiNode) (chipid : Nat) (call : RsmiCall)
    (st : GpuState (Nat × RsmiCall)) : GpuState (Nat × RsmiCall) :=
  if node.refuses chipid call then { st with reported := st.reported ++ [(chipid, call)] } else st

/-- `cap_each_gpu_power_limit` of the AMD platform; `none` is its `exit(-1)`. -/
def amdCapEachGpuPowerLimit (node : RsmiNode) (chipid : Nat) (powerlimit : BitVec 32)
    (st : GpuState (Nat × RsmiCall)) : Option (GpuState (Nat × RsmiCall)) :=
  let powerlimitUwatts := powerlimit * 1000000
  if node.refuses chipid .init then none
  else
    let st := node.check chipid .numMonitorDevices st
    let gpusPerSocket := node.gpusPerSocket chipid
    let st := (List.range' (chipid * gpusPerSocket) gpusPerSocket).foldl
      (setLimit (fun i => node.refuses chipid (.devPowerCapSet i))
        (fun i => (chipid, .devPowerCapSet i)) powerlimitUwatts.toNat) st
    some (node.check chipid .shutDown st)

/-- The loop of `amd_gpu_instinct_cap_each_gpu_power_limit` over the first `k`
sockets. -/
def amdSockets (node : RsmiNode) (powerlimit : BitVec 32) (k : Nat)
    (st : GpuState (Nat × RsmiCall)) : Option (GpuState (Nat × RsmiCall)) :=
  (List.range k).foldlM (fun st iter => amdCapEachGpuPowerLimit node iter powerlimit st) st

/-- `amd_gpu_instinct_cap_each_gpu_power_limit`: the sockets in order, each with the
devices of its block. -/
def amdGpuInstinctCapEachGpuPowerLimit (node : RsmiNode) (powerlimit : BitVec 32) :
    Call (GpuState (Nat × RsmiCall)) :=
  fun st => (amdSockets node powerlimit node.topo.nsockets st).map fun st => (0, st)

/-- The block size when the devices can be counted. -/
def RsmiNode.block (node : RsmiNode) : Nat := node.devices.val / node.topo.nsockets

/-- No driver call fails on a socket. -/
structure RsmiNode.Quiet (node : RsmiNode) (chipid : Nat) : Prop where
  count : node.refuses chipid .numMonitorDevices = false
  set : ∀ d ∈ List.range' (chipid * node.block) node.block,
    node.refuses chipid (.devPowerCapSet d) = false
  shutDown : node.refuses chipid .shutDown = false

/-- What it takes for a call that returns to leave every device limited and have
nothing reported: the process ends on some socket, so that it does not return;
or no call fails, a limit that reaches a device is not negative and fits in 32
bits as microwatts, and a device out of reach has the limit before. -/
def AmdApplies (node : RsmiNode) (watts : BitVec 32) (st : GpuState (Nat × RsmiCall)) : Prop :=
  (∃ s < node.topo.nsockets, node.refuses s .init = true) ∨
    (∀ s < node.topo.nsockets, node.Quiet s) ∧
      ∀ d < node.devices.val,
        if d < node.topo.nsockets * node.block then 0 ≤ watts.toInt ∧ watts.toInt * 1000000 < 2 ^ 32
        else HoldsGpuLimit 1000000 watts (st.limit d)

section Amd

variable {node : RsmiNode} {chipid : Nat} {st st' : GpuState (Nat × RsmiCall)}

theorem RsmiNode.gpusPerSocket_of_counted (h : node.refuses chipid .numMonitorDevices = false) :
    node.gpusPerSocket chipid = node.block := by
  have hs := node.topo.nsockets_le
  have hc := node.topo.ncores_le
  have ht := node.topo.nthreads_lt
  have hd := node.devices.isLt
  have hle : node.block ≤ node.devices := Nat.div_le_self _ _
  have hdiv : (BitVec.ofNat 32 node.devices / BitVec.ofNat 32 node.topo.nsockets).toNat
      = node.block := by
    rw [BitVec.toNat_udiv, BitVec.toNat_ofNat, BitVec.toNat_ofNat, Nat.mod_eq_of_lt (by omega),
      Nat.mod_eq_of_lt (by omega)]
    rfl
  simp only [gpusPerSocket, h, Bool.false_eq_true, if_false]
  rw [BitVec.toInt_eq_toNat_of_lt (by omega), hdiv, Int.toNat_natCast]

theorem RsmiNode.check_spec (node : RsmiNode) (chipid : Nat) (call : RsmiCall)
    (st : GpuState (Nat × RsmiCall)) :
    (node.check chipid call st).limit = st.limit ∧
      st.reported <+: (node.check chipid call st).reported ∧
      ((node.check chipid call st).reported = st.reported ↔ node.refuses chipid call = false) := by
  unfold check
  cases h : node.refuses chipid call with
  | true => exact ⟨rfl, List.prefix_append _ _, by simp⟩
  | false => exact ⟨rfl, List.prefix_refl _, by simp⟩

/-- **One socket.**  Nothing is reported exactly when no call fails, and then the
devices of the block are set. -/
theorem amdCapEachGpuPowerLimit_spec (watts : BitVec 32)
    (h : amdCapEachGpuPowerLimit node chipid watts st = some st') :
    st.reported <+: st'.reported ∧
      (st'.reported = st.reported ↔ node.Quiet chipid) ∧
      (node.Quiet chipid → ∀ d, st'.limit d
        = if d ∈ List.range' (chipid * node.block) node.block then (watts * 1000000).toNat
          else st.limit d) := by
  unfold amdCapEachGpuPowerLimit at h
  cases hinit : node.refuses chipid .init with
  | true =>
      rw [if_pos hinit] at h
      cases h
  | false =>
      rw [hinit, if_neg Bool.false_ne_true] at h
      simp only [foldl_setLimit, Option.some.injEq] at h
      -- the calls before and behind the loop over the devices; the loop itself is a fold
      obtain ⟨hlimit₁, hgrow₁, hcount⟩ := node.check_spec chipid .numMonitorDevices st
      obtain ⟨hlimit₂, hgrow₂, hshut⟩ := node.check_spec chipid .shutDown
        { limit := fun d =>
            if d ∈ List.range' (chipid * node.gpusPerSocket chipid) (node.gpusPerSocket chipid) ∧
                node.refuses chipid (.devPowerCapSet d) = false then (watts * 1000000).toNat
            else (node.check chipid .numMonitorDevices st).limit d
          reported := (node.check chipid .numMonitorDevices st).reported ++
            ((List.range' (chipid * node.gpusPerSocket chipid) (node.gpusPerSocket chipid)).filter
              fun i => node.refuses chipid (.devPowerCapSet i)).map
              fun i => (chipid, .devPowerCapSet i) }
      rw [h] at hlimit₂ hgrow₂ hshut
      have hloop := (List.prefix_append _ _).trans hgrow₂
      refine ⟨hgrow₁.trans hloop, ?_, fun hquiet d => ?_⟩
      -- nothing is added to the reports over the whole call just where no part of it adds anything
      · rw [eq_trans_iff hgrow₁ hloop, hcount, eq_trans_iff (List.prefix_append _ _) hgrow₂, hshut]
        constructor
        · rintro ⟨hnum, hset, hdown⟩
          rw [node.gpusPerSocket_of_counted hnum] at hset
          refine ⟨hnum, ?_, hdown⟩
          simpa using hset
        · intro hquiet
          rw [node.gpusPerSocket_of_counted hquiet.count]
          refine ⟨hquiet.count, ?_, hquiet.shutDown⟩
          simpa using hquiet.set
      · rw [hlimit₂, hlimit₁, node.gpusPerSocket_of_counted hquiet.count]
        by_cases hd : d ∈ List.range' (chipid * node.block) node.block
        · simp only [hd, hquiet.set d hd, and_self, if_true]
        · simp only [hd, false_and, if_false]

theorem amdCapEachGpuPowerLimit_eq_none_iff (watts : BitVec 32)
    (st : GpuState (Nat × RsmiCall)) :
    amdCapEachGpuPowerLimit node chipid watts st = none ↔ node.refuses chipid .init = true := by
  cases hinit : node.refuses chipid .init with
  | true => exact iff_of_true (if_pos hinit) rfl
  | false =>
      refine iff_of_false (fun hnone => ?_) Bool.false_ne_true
      rw [amdCapEachGpuPowerLimit, hinit, if_neg Bool.false_ne_true] at hnone
      exact Option.some_ne_none _ hnone

theorem amdSockets_succ (watts : BitVec 32) (k : Nat) (st : GpuState (Nat × RsmiCall)) :
    amdSockets node watts (k + 1) st
      = (amdSockets node watts k st).bind fun st => amdCapEachGpuPowerLimit node k watts st := by
  rw [amdSockets, List.range_succ, List.foldlM_append]
  simp only [List.foldlM_cons, List.foldlM_nil, bind_pure]
  rfl

theorem amdSockets_eq_none_iff (watts : BitVec 32) (k : Nat) (st : GpuState (Nat × RsmiCall)) :
    amdSockets node watts k st = none ↔ ∃ s < k, node.refuses s .init = true := by
  induction k with
  | zero => simp [amdSockets]
  | succ k ih =>
      rw [amdSockets_succ, Nat.exists_lt_succ_right, ← ih]
      cases hk : amdSockets node watts k st with
      | none => simp
      | some st' => simp [amdCapEachGpuPowerLimit_eq_none_iff]

/-- **The loop.**  Nothing is reported exactly when no call fails on any socket,
and then the devices of all blocks are set. -/
theorem amdSockets_spec (watts : BitVec 32) {k : Nat}
    (h : amdSockets node watts k st = some st') :
    st.reported <+: st'.reported ∧
      (st'.reported = st.reported ↔ ∀ s < k, node.Quiet s) ∧
      ((∀ s < k, node.Quiet s) → ∀ d, st'.limit d
        = if d < k * node.block then (watts * 1000000).toNat else st.limit d) := by
  induction k generalizing st' with
  | zero =>
      obtain rfl := Option.some.inj h
      simp
  | succ k ih =>
      rw [amdSockets_succ] at h
      obtain ⟨st₁, hrun, hstep⟩ := Option.bind_eq_some_iff.mp h
      obtain ⟨hgrow, hquiet, hlimit⟩ := ih hrun
      obtain ⟨hgrow', hquiet', hlimit'⟩ := amdCapEachGpuPowerLimit_spec watts hstep
      refine ⟨hgrow.trans hgrow', ?_, fun hall d => ?_⟩
      · rw [eq_trans_iff hgrow hgrow', hquiet, hquiet', Nat.forall_lt_succ_right]
      · rw [Nat.forall_lt_succ_right] at hall
        rw [hlimit' hall.2, hlimit hall.1, Nat.succ_mul]
        by_cases hd : d < k * node.block
        · have hlt : d < k * node.block + node.block := by omega
          simp only [hd, hlt, if_true, ite_self]
        · simp only [hd, if_false, List.mem_range'_1]
          congr 1
          exact propext (and_iff_right (Nat.not_lt.mp hd))

/-- **AMD, exactly.**  When the call returns 0, every device has its limit and nothing
was reported, just under the condition. -/
theorem amd_applies_iff (node : RsmiNode) (watts : BitVec 32) (st : GpuState (Nat × RsmiCall)) :
    (∀ st', amdGpuInstinctCapEachGpuPowerLimit node watts st = some (0, st') →
        st'.reported = st.reported ∧
          ∀ d < node.devices.val, HoldsGpuLimit 1000000 watts (st'.limit d)) ↔
      AmdApplies node watts st := by
  unfold AmdApplies amdGpuInstinctCapEachGpuPowerLimit
  rw [← amdSockets_eq_none_iff watts _ st]
  cases hrun : amdSockets node watts node.topo.nsockets st with
  | none => simp
  | some st₁ =>
      obtain ⟨-, hquiet, hlimit⟩ := amdSockets_spec watts hrun
      simp only [Option.map_some, Option.some.injEq, Prod.mk.injEq, true_and, forall_eq', hquiet,
        reduceCtorEq, false_or]
      refine and_congr_right fun hall => forall_congr' fun d => imp_congr_right fun _ => ?_
      rw [hlimit hall d]
      by_cases hd : d < node.topo.nsockets * node.block
      · simp only [hd, if_true]
        exact holdsGpuLimit_mul_iff (by decide) (by decide) watts
      · simp only [hd, if_false]

end Amd

end Variorum
