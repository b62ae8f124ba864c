/-
Variorum/GpuBlocks.lean

Which devices the GPU functions come to.

The functions that cap or report GPUs are called for one socket after the other
and loop over a block of devices each time.  The size of a block is the number
of devices over the number of sockets, an `unsigned` quotient that is then used
as an `int`, and the bounds of the loop are products of `int`s; a product that
overflows has no model.

The devices are the blocks of all sockets, and `blocks_eachOnce_iff` says that
these are all devices, each once, exactly when the sockets divide the devices and
the devices can be numbered by an `int`.
-/
import Mathlib.Data.List.Perm.Basic
import Variorum.GpuCap

namespace Variorum

/-- A node with GPUs: the devices the driver counts (`m_total_unit_devices`,
`num_devices`) and the sockets of the topology. -/
structure GpuNode where
  devices : BitVec 32
  sockets : Nat
  sockets_pos : 0 < sockets
  sockets_lt : sockets < 2 ^ 31

/-- Boards with one socket, and with two. -/
theorem GpuNode.one_lt : 1 < 2 ^ 31 := by decide

theorem GpuNode.two_lt : 2 < 2 ^ 31 := by decide

/-- A signed result; `none` where it overflows. -/
def cInt (x : Int) : Option Int := if -2 ^ 31 ≤ x ∧ x < 2 ^ 31 then some x else none

namespace GpuNode

variable (node : GpuNode)

/-- `m_gpus_per_socket`, and `gpus_per_socket` before it is stored in an `int`. -/
def gpusPerSocket : BitVec 32 := node.devices / BitVec.ofNat 32 node.sockets

/-- The devices of the loop
`for (d = chipid * g; d < (chipid + 1) * g; ++d)` with `g = (int)gpus_per_socket`. -/
def block (chipid : Nat) : Option (List Int) := do
  let first ← cInt (chipid * node.gpusPerSocket.toInt)
  let stop ← cInt ((chipid + 1) * node.gpusPerSocket.toInt)
  some ((List.range (stop - first).toNat).map fun i : Nat => first + (i : Int))

/-- One call for each device of the block of a socket. -/
def forBlock {α : Type} (call : Int → α) (chipid : Nat) : Option (List α) :=
  (node.block chipid).map (·.map call)

/-- The calls for the first `k` sockets, one after the other. -/
def overSockets {α : Type} (calls : Nat → Option (List α)) : Nat → Option (List α)
  | 0 => some []
  | k + 1 => do
      let before ← overSockets calls k
      let here ← calls k
      some (before ++ here)

end GpuNode

/-- A driver call that sets the limit of a device. -/
structure LimitCall where
  dev : Int
  limit : BitVec 32

/-- `cap_each_gpu_power_limit` of NVIDIA: `nvmlDeviceSetPowerManagementLimit`, in
milliwatts. -/
def Nvidia.capEachGpuPowerLimit (node : GpuNode) (powerlimit : BitVec 32) (chipid : Nat) :
    Option (List LimitCall) :=
  node.forBlock (⟨·, powerlimit * 1000⟩) chipid

/-- `cap_each_gpu_power_limit` of AMD: `rsmi_dev_power_cap_set`, in microwatts. -/
def AmdGpu.capEachGpuPowerLimit (node : GpuNode) (powerlimit : BitVec 32) (chipid : Nat) :
    Option (List LimitCall) :=
  node.forBlock (⟨·, powerlimit * 1000000⟩) chipid

/-! ### Coverage -/

namespace GpuNode

/-- There is an entry for each device of the node, one for each and no other. -/
def EachOnce {α : Type} (node : GpuNode) (entry : Nat → α) (found : Option (List α)) : Prop :=
  ∃ l, found = some l ∧ l.Perm ((List.range node.devices.toNat).map entry)

/-- The blocks of all sockets. -/
def blocks (node : GpuNode) : Option (List Int) := overSockets node.block node.sockets

section Blocks

variable {node : GpuNode}

theorem gpusPerSocket_toNat (node : GpuNode) :
    node.gpusPerSocket.toNat = node.devices.toNat / node.sockets := by
  have hlt := node.sockets_lt
  rw [gpusPerSocket, BitVec.toNat_udiv, BitVec.toNat_ofNat, Nat.mod_eq_of_lt (by omega)]

theorem cInt_some {x y : Int} (h : cInt x = some y) : y = x ∧ x < 2 ^ 31 := by
  unfold cInt at h
  split at h
  · next hx => exact ⟨(Option.some.inj h).symm, hx.2⟩
  · cases h

theorem cInt_natCast {x : Nat} (h : x < 2 ^ 31) : cInt x = some (x : Int) :=
  if_pos (by omega)

/-- No loop comes to a device that has no successor among the `int`s. -/
theorem block_lt {chipid : Nat} {l : List Int} (h : node.block chipid = some l) :
    ∀ d ∈ l, d < 2 ^ 31 - 1 := by
  obtain ⟨first, hfirst, h⟩ := Option.bind_eq_some_iff.mp h
  obtain ⟨stop, hstop, h⟩ := Option.bind_eq_some_iff.mp h
  obtain rfl := Option.some.inj h
  obtain ⟨rfl, hlt⟩ := cInt_some hstop
  intro d hd
  obtain ⟨i, hi, rfl⟩ := List.mem_map.mp hd
  have hrange := List.mem_range.mp hi
  omega

/-- The devices of a block are `int`s, and differ. -/
theorem block_ints {chipid : Nat} {l : List Int} (h : node.block chipid = some l) :
    (∀ d ∈ l, -2 ^ 31 ≤ d ∧ d < 2 ^ 31) ∧ l.Nodup := by
  have hupper := block_lt h
  obtain ⟨first, hfirst, h⟩ := Option.bind_eq_some_iff.mp h
  obtain ⟨stop, -, h⟩ := Option.bind_eq_some_iff.mp h
  obtain rfl := Option.some.inj h
  constructor
  · intro d hd
    have hlt := hupper d hd
    obtain ⟨i, -, rfl⟩ := List.mem_map.mp hd
    have hlow : -2 ^ 31 ≤ first := by
      unfold cInt at hfirst
      split at hfirst
      · next hx => exact Option.some.inj hfirst ▸ hx.1
      · cases hfirst
    omega
  · refine List.nodup_range.map fun i j hij => ?_
    exact Int.ofNat.inj (add_left_cancel hij)

theorem overSockets_forall {α : Type} {P : α → Prop} {calls : Nat → Option (List α)}
    (hcalls : ∀ c l, calls c = some l → ∀ x ∈ l, P x) {k : Nat} {l : List α}
    (h : overSockets calls k = some l) : ∀ x ∈ l, P x := by
  induction k generalizing l with
  | zero =>
      obtain rfl := Option.some.inj h
      nofun
  | succ k ih =>
      obtain ⟨before, hbefore, h⟩ := Option.bind_eq_some_iff.mp h
      obtain ⟨here, hhere, h⟩ := Option.bind_eq_some_iff.mp h
      obtain rfl := Option.some.inj h
      intro x hx
      rcases List.mem_append.mp hx with hx | hx
      · exact ih hbefore x hx
      · exact hcalls k here hhere x hx

/-- Where each socket has its calls, so have all together. -/
theorem overSockets_isSome {α : Type} {calls : Nat → Option (List α)} {k : Nat}
    (h : ∀ c < k, (calls c).isSome) : (overSockets calls k).isSome := by
  induction k with
  | zero => rfl
  | succ k ih =>
      obtain ⟨before, hbefore⟩ := Option.isSome_iff_exists.mp
        (ih fun c hc => h c (Nat.lt_succ_of_lt hc))
      obtain ⟨here, hhere⟩ := Option.isSome_iff_exists.mp (h k (Nat.lt_succ_self k))
      rw [overSockets, hbefore, hhere]
      rfl

/-- And what they have is one result behind the other. -/
theorem overSockets_eq {α : Type} {calls : Nat → Option (List α)} {result : Nat → List α}
    {k : Nat} (h : ∀ c < k, calls c = some (result c)) :
    overSockets calls k = some ((List.range k).flatMap result) := by
  induction k with
  | zero => rfl
  | succ k ih =>
      rw [overSockets, ih fun c hc => h c (Nat.lt_succ_of_lt hc), h k (Nat.lt_succ_self k),
        List.range_succ, List.flatMap_append, List.flatMap_singleton]
      rfl

theorem overSockets_eq_some {α : Type} {calls : Nat → Option (List α)} {k : Nat} {l : List α}
    (h : overSockets calls k = some l) : ∀ c < k, (calls c).isSome := by
  induction k generalizing l with
  | zero => exact fun c hc => absurd hc (Nat.not_lt_zero c)
  | succ k ih =>
      obtain ⟨before, hbefore, h⟩ := Option.bind_eq_some_iff.mp h
      obtain ⟨last, hlast, -⟩ := Option.bind_eq_some_iff.mp h
      intro c hc
      rcases Nat.lt_succ_iff_lt_or_eq.mp hc with hc | rfl
      · exact ih hbefore c hc
      · exact Option.isSome_iff_exists.mpr ⟨last, hlast⟩

/-- All results, where there are all. -/
theorem overSockets_eq_getD {α : Type} {calls : Nat → Option (List α)} {k : Nat} {l : List α}
    (h : overSockets calls k = some l) : l = (List.range k).flatMap fun c => (calls c).getD [] := by
  have hall : ∀ c < k, calls c = some ((calls c).getD []) := by
    intro c hc
    obtain ⟨here, hhere⟩ := Option.isSome_iff_exists.mp (overSockets_eq_some h c hc)
    rw [hhere]
    rfl
  exact Option.some.inj (h.symm.trans (overSockets_eq hall))

/-- The devices of a block, and the bound of its loop. -/
theorem block_devices {c : Nat} {l : List Int} (h : node.block c = some l) :
    l = ((List.range node.gpusPerSocket.toInt.toNat).map fun j : Nat =>
        c * node.gpusPerSocket.toInt + (j : Int)) ∧
      (c + 1) * node.gpusPerSocket.toInt < 2 ^ 31 := by
  obtain ⟨first, hfirst, h⟩ := Option.bind_eq_some_iff.mp h
  obtain ⟨stop, hstop, h⟩ := Option.bind_eq_some_iff.mp h
  obtain rfl := Option.some.inj h
  obtain ⟨rfl, -⟩ := cInt_some hfirst
  obtain ⟨rfl, hlt⟩ := cInt_some hstop
  rw [← sub_mul, add_sub_cancel_left, one_mul]
  exact ⟨rfl, hlt⟩

/-- What is done with each device does not matter for which devices it is done. -/
theorem overSockets_map {α β : Type} (f : α → β) (calls : Nat → Option (List α)) (k : Nat) :
    overSockets (fun c => (calls c).map (·.map f)) k = (overSockets calls k).map (·.map f) := by
  induction k with
  | zero => rfl
  | succ k ih =>
      unfold overSockets
      rw [ih]
      cases overSockets calls k with
      | none => rfl
      | some before =>
          cases calls k with
          | none => rfl
          | some here => simp

/-- A call for each device of all blocks. -/
theorem overSockets_forBlock {α : Type} (call : Int → α) :
    overSockets (node.forBlock call) node.sockets = node.blocks.map (·.map call) :=
  overSockets_map call node.block node.sockets

/-- **A call is made for each device** where the blocks cover them. -/
theorem EachOnce.map {α : Type} {found : Option (List Int)} (call : Int → α)
    (h : node.EachOnce Int.ofNat found) :
    node.EachOnce (fun d : Nat => call d) (found.map (·.map call)) := by
  obtain ⟨l, rfl, hperm⟩ := h
  refine ⟨l.map call, rfl, (hperm.map call).trans ?_⟩
  rw [List.map_map]
  exact List.Perm.refl _

/-- Where the devices can be numbered, the bounds of a block do not overflow. -/
theorem block_eq (h : node.devices.toNat < 2 ^ 31) {chipid : Nat} (hc : chipid < node.sockets) :
    node.block chipid
      = some ((List.range' (chipid * (node.devices.toNat / node.sockets))
          (node.devices.toNat / node.sockets)).map Int.ofNat) := by
  have hg : node.gpusPerSocket.toInt = (node.devices.toNat / node.sockets : Nat) := by
    have hle := Nat.div_le_self node.devices.toNat node.sockets
    rw [BitVec.toInt_eq_toNat_of_lt (by rw [gpusPerSocket_toNat]; omega), gpusPerSocket_toNat]
  have hstop : (chipid + 1) * (node.devices.toNat / node.sockets) < 2 ^ 31 := by
    calc (chipid + 1) * (node.devices.toNat / node.sockets)
        ≤ node.sockets * (node.devices.toNat / node.sockets) := Nat.mul_le_mul_right _ hc
      _ ≤ node.devices.toNat := Nat.mul_div_le _ _
      _ < 2 ^ 31 := h
  generalize node.devices.toNat / node.sockets = g at hg hstop ⊢
  have hfirst : chipid * g ≤ (chipid + 1) * g := Nat.mul_le_mul_right g (Nat.le_succ chipid)
  have hcFirst : cInt (chipid * (g : Int)) = some ((chipid * g : Nat) : Int) := by
    exact_mod_cast cInt_natCast (hfirst.trans_lt hstop)
  have hcStop : cInt ((chipid + 1) * (g : Int)) = some (((chipid + 1) * g : Nat) : Int) := by
    exact_mod_cast cInt_natCast hstop
  rw [block, hg, hcFirst, hcStop, List.range'_eq_map_range, List.map_map]
  show some _ = some _
  have hlen : ((((chipid + 1) * g : Nat) : Int) - ((chipid * g : Nat) : Int)).toNat = g := by
    rw [Nat.succ_mul]
    push_cast
    omega
  rw [hlen]
  rfl

/-- **The blocks together** are the first `s * (n / s)` devices. -/
theorem blocks_eq (h : node.devices.toNat < 2 ^ 31) :
    node.blocks = some ((List.range (node.sockets * (node.devices.toNat / node.sockets))).map
      Int.ofNat) := by
  have hk : ∀ k ≤ node.sockets, overSockets node.block k
      = some (((List.range k).flatMap fun s => List.range'
          (s * (node.devices.toNat / node.sockets)) (node.devices.toNat / node.sockets)).map
            Int.ofNat) := by
    intro k hk
    induction k with
    | zero => rfl
    | succ k ih =>
        rw [overSockets, ih (Nat.le_of_succ_le hk), block_eq h hk, List.range_succ,
          List.flatMap_append, List.map_append, List.flatMap_singleton]
        rfl
  rw [blocks, hk _ le_rfl, flatMap_blocks]

/-- **The blocks cover the devices exactly when nothing remains** of the division and
the devices can be numbered. -/
theorem blocks_eachOnce_iff (node : GpuNode) :
    node.EachOnce Int.ofNat node.blocks ↔
      node.sockets ∣ node.devices.toNat ∧ node.devices.toNat < 2 ^ 31 := by
  constructor
  · rintro ⟨l, hl, hperm⟩
    have hlt : node.devices.toNat < 2 ^ 31 := by
      by_contra hge
      -- the last device would be beyond every block
      have hlast : Int.ofNat (node.devices.toNat - 1) ∈ l := by
        apply hperm.mem_iff.mpr
        exact List.mem_map_of_mem (List.mem_range.mpr (by omega))
      have hbound := overSockets_forall (P := (· < 2 ^ 31 - 1)) (fun c l h => block_lt h) hl _ hlast
      rw [Int.ofNat_eq_natCast] at hbound
      omega
    refine ⟨?_, hlt⟩
    rw [blocks_eq hlt] at hl
    obtain rfl := Option.some.inj hl
    have hlen := hperm.length_eq
    rw [List.length_map, List.length_map, List.length_range, List.length_range] at hlen
    exact ⟨_, hlen.symm⟩
  · rintro ⟨hdvd, hlt⟩
    refine ⟨_, blocks_eq hlt, ?_⟩
    rw [Nat.mul_div_cancel' hdvd]

end Blocks

/-- The loop of `volta_cap_each_gpu_power_limit` is one over the blocks. -/
theorem voltaCap_blocks (node : NvmlNode) (watts : BitVec 32) (st : GpuState Nat) :
    ∃ l, (GpuNode.mk (BitVec.ofNat 32 node.totalUnitDevices) node.topo.nsockets
        node.topo.nsockets_pos node.topo.nsockets_lt).blocks = some l ∧
      voltaCapEachGpuPowerLimit node watts st
        = some (0, l.foldl (fun st d =>
            setLimit node.refuses id (watts * 1000).toNat st d.toNat) st) := by
  have hdev : (BitVec.ofNat 32 node.totalUnitDevices.val).toNat = node.totalUnitDevices := by
    rw [BitVec.toNat_ofNat]
    exact Nat.mod_eq_of_lt (by omega)
  refine ⟨_, blocks_eq (hdev.symm ▸ node.totalUnitDevices.isLt), ?_⟩
  rw [voltaCapEachGpuPowerLimit_eq, List.foldl_map]
  simp only [hdev]
  rfl

end GpuNode

end Variorum
