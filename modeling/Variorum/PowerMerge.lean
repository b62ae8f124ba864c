/-
Variorum/PowerMerge.lean

The power JSON of a CPU and a GPU platform together.

`variorum_get_power_json` hands one node object to the platforms in the order
of their enumeration.  A GPU platform adds its readings to the sockets and to
the node power it finds.  A CPU platform makes its sockets anew and stores its
own node power, so whatever the GPUs had stored before is lost: that is the
order in which an ARM platform comes.

`merge_iff` says for which platforms, orders and numbers of sockets the object
has both.
-/
import Variorum.PowerJsonSpec

namespace Variorum

open PowerJson
open Json (Object)

/-! ### The platforms -/

/-- A CPU platform with a node power, other than IBM, and what it reads. -/
inductive CpuPlatform
  | intel (pkgWatts dramWatts : Nat → Rat)
  | amdEpyc (esmi : Nat → Int × BitVec 32)
  | junoR2 (hwmon : JunoHwmon)

/-- A GPU platform and what it reads. -/
inductive GpuPlatform
  | nvidia (gpuPower : Int → BitVec 32)
  | amdGpu (pwrVal : Int → BitVec 64)

namespace CpuPlatform

/-- Its `variorum_get_power_json`. -/
def getPowerJson (s : Nat) : CpuPlatform → Object → Option Object
  | intel pkgWatts dramWatts => Intel.jsonGetPowerData pkgWatts dramWatts s
  | amdEpyc esmi => Amd.epycGetPowerJson esmi s
  | junoR2 hwmon => Arm.junoR2JsonGetPowerData hwmon s

/-- The values of a socket that are no GPU's. -/
def cpuValues (i : Nat) : CpuPlatform → List (List Char × Rat)
  | intel pkgWatts dramWatts => [(powerCpuWatts, pkgWatts i), (powerMemWatts, dramWatts i)]
  | amdEpyc esmi => [(powerCpuWatts, ((esmi i).2.toNat : Rat) / 1000), (powerMemWatts, -1)]
  | junoR2 hwmon =>
      if i = 0 then [(powerCpuWatts, microwatts hwmon.big)]
      else if i = 1 then [(powerCpuWatts, microwatts hwmon.little)]
      else []

/-- Its contribution to the node power. -/
def nodeWatts (s : Nat) : CpuPlatform → Rat
  | intel pkgWatts dramWatts => ((List.range s).map fun i => pkgWatts i + dramWatts i).sum
  | amdEpyc esmi => ((List.range s).map fun i => ((esmi i).2.toNat : Rat) / 1000).sum
  | junoR2 hwmon => microwatts hwmon.sys

/-- When it returns 0: no call of the E-SMI library fails, and a Juno has its two
sockets. -/
def Ready (s : Nat) : CpuPlatform → Prop
  | intel _ _ => True
  | amdEpyc esmi => ∀ i < s, (esmi i).1 = 0
  | junoR2 _ => 2 ≤ s

def isJuno : CpuPlatform → Bool
  | junoR2 _ => true
  | _ => false

end CpuPlatform

namespace GpuPlatform

/-- Its `variorum_get_power_json`. -/
def getPowerJson (node : GpuNode) : GpuPlatform → Object → Option Object
  | nvidia gpuPower => PowerJson.Nvidia.voltaGetPowerJson node gpuPower
  | amdGpu pwrVal => PowerJson.AmdGpu.getJsonPowerData node pwrVal

/-- The reading of a device. -/
def watts : GpuPlatform → Int → Rat
  | nvidia gpuPower => PowerJson.Nvidia.watts gpuPower
  | amdGpu pwrVal => PowerJson.AmdGpu.watts pwrVal

def isAmd : GpuPlatform → Bool
  | amdGpu _ => true
  | _ => false

end GpuPlatform

/-- The two orders of the enumeration. -/
inductive PlatformOrder
  | cpuFirst
  | gpuFirst
  deriving DecidableEq, Repr

/-- The node object behind both platforms. -/
def mergedJson (cpu : CpuPlatform) (gpu : GpuPlatform) (node : GpuNode) (order : PlatformOrder)
    (timestamp : Int) : Option Object :=
  match order with
  | .cpuFirst =>
      (cpu.getPowerJson node.sockets (start timestamp)).bind (gpu.getPowerJson node)
  | .gpuFirst =>
      (gpu.getPowerJson node (start timestamp)).bind (cpu.getPowerJson node.sockets)

/-- The object has the values of both platforms in every socket, and in its node power
each of them once. -/
structure Merged (cpu : CpuPlatform) (gpu : GpuPlatform) (node : GpuNode) (out : Object) :
    Prop where
  cpuValues : ∀ i < node.sockets, ∀ kv ∈ cpu.cpuValues i, ∃ j,
    Fields.get (socketKey i) out = some j ∧ j.get kv.1 = some (.real kv.2)
  gpuObject : ∀ i < node.sockets, ∃ j l devs, Fields.get (socketKey i) out = some j ∧
    j.get powerGpuWatts = some (.object l) ∧ node.block i = some devs ∧
    ∀ d ∈ devs, Fields.get (gpuKey d) l = some (.real (gpu.watts d))
  nodeWatts : ∃ devs, node.blocks = some devs ∧ Fields.get powerNodeWatts out
    = some (.real (cpu.nodeWatts node.sockets + (devs.map gpu.watts).sum))

/-- The CPU platform comes first and returns 0, no bound of a loop over the devices
overflows, and the keys fit the buffers: those of a Juno's first two sockets always
do, and so do those of an AMD GPU. -/
def MergeCondition (cpu : CpuPlatform) (gpu : GpuPlatform) (node : GpuNode)
    (order : PlatformOrder) : Prop :=
  order = .cpuFirst ∧ cpu.Ready node.sockets ∧ (∀ c < node.sockets, (node.block c).isSome) ∧
    (node.sockets ≤ 10000 ∨ cpu.isJuno = true ∧ gpu.isAmd = true)

/-! ### What the platforms leave -/

section Platforms

variable {cpu : CpuPlatform} {gpu : GpuPlatform} {node : GpuNode} {s : Nat} {obj out : Object}

/-- The fields of a socket of a CPU platform. -/
def CpuPlatform.fields (i : Nat) : CpuPlatform → Object
  | .junoR2 hwmon => fieldsOf (junoFields hwmon i)
  | cpu => fieldsOf (cpu.cpuValues i)

theorem CpuPlatform.output (h : cpu.getPowerJson s obj = some out) :
    ∃ gpus, CpuOutput s (fun i => cpu.fields i) (cpu.nodeWatts s) gpus obj out := by
  cases cpu with
  | intel pkgWatts dramWatts => exact ⟨_, Intel.output h⟩
  | amdEpyc esmi => exact ⟨_, Amd.output h⟩
  | junoR2 hwmon => exact ⟨_, Juno.output h⟩

theorem CpuPlatform.isSome_iff : (cpu.getPowerJson s obj).isSome ↔ cpu.Ready s := by
  cases cpu with
  | intel pkgWatts dramWatts => exact iff_of_true (Intel.isSome _ _ s obj) trivial
  | amdEpyc esmi => exact Amd.isSome_iff
  | junoR2 hwmon => exact Juno.isSome_iff

/-- Only the first two sockets of a Juno have a value. -/
theorem CpuPlatform.mem_cpuValues_junoR2 {hwmon : JunoHwmon} {i : Nat} {kv : List Char × Rat}
    (h : kv ∈ (CpuPlatform.junoR2 hwmon).cpuValues i) :
    i = 0 ∧ kv = (powerCpuWatts, microwatts hwmon.big) ∨
      i = 1 ∧ kv = (powerCpuWatts, microwatts hwmon.little) := by
  simp only [cpuValues] at h
  by_cases h0 : i = 0
  · rw [if_pos h0] at h
    exact .inl ⟨h0, List.mem_singleton.mp h⟩
  · by_cases h1 : i = 1
    · rw [if_neg h0, if_pos h1] at h
      exact .inr ⟨h1, List.mem_singleton.mp h⟩
    · rw [if_neg h0, if_neg h1] at h
      cases h

/-- The values of a socket are among its fields. -/
theorem CpuPlatform.get_fields {i : Nat} {kv : List Char × Rat} (h : kv ∈ cpu.cpuValues i) :
    Fields.get kv.1 (cpu.fields i) = some (.real kv.2) := by
  cases cpu with
  | intel pkgWatts dramWatts =>
      rcases List.mem_pair.mp h with rfl | rfl <;> rfl
  | amdEpyc esmi =>
      rcases List.mem_pair.mp h with rfl | rfl <;> rfl
  | junoR2 hwmon =>
      rcases CpuPlatform.mem_cpuValues_junoR2 h with ⟨rfl, rfl⟩ | ⟨rfl, rfl⟩ <;> rfl

/-- No CPU platform stores an object for GPUs. -/
theorem CpuPlatform.get_gpu_fields (i : Nat) (l : Object) :
    Fields.get powerGpuWatts (cpu.fields i) ≠ some (.object l) := by
  cases cpu with
  | intel pkgWatts dramWatts => exact nofun
  | amdEpyc esmi => exact nofun
  | junoR2 hwmon =>
      show Fields.get powerGpuWatts (fieldsOf (junoFields hwmon i)) ≠ _
      unfold junoFields
      by_cases h0 : i = 0
      · rw [if_pos h0]
        exact nofun
      · rw [if_neg h0]
        by_cases h1 : i = 1
        · rw [if_pos h1]
          exact nofun
        · rw [if_neg h1]
          exact nofun

/-- No value of a CPU platform has the key of the GPUs' object. -/
theorem CpuPlatform.ne_of_mem_cpuValues {i : Nat} {kv : List Char × Rat}
    (h : kv ∈ cpu.cpuValues i) : powerGpuWatts ≠ kv.1 := by
  have hkey : kv.1 = powerCpuWatts ∨ kv.1 = powerMemWatts := by
    cases cpu with
    | intel pkgWatts dramWatts =>
        rcases List.mem_pair.mp h with rfl | rfl
        · exact .inl rfl
        · exact .inr rfl
    | amdEpyc esmi =>
        rcases List.mem_pair.mp h with rfl | rfl
        · exact .inl rfl
        · exact .inr rfl
    | junoR2 hwmon =>
        rcases CpuPlatform.mem_cpuValues_junoR2 h with ⟨-, rfl⟩ | ⟨-, rfl⟩
        · exact .inl rfl
        · exact .inl rfl
  rcases hkey with hkey | hkey <;> rw [hkey] <;> decide

/-- The sockets of a GPU platform with a buffer for their keys. -/
def GpuPlatform.Keyed (node : GpuNode) (i : Nat) : GpuPlatform → Prop
  | .nvidia _ => PowerJson.Keyed node.sockets i
  | .amdGpu _ => True

theorem GpuPlatform.output (h : gpu.getPowerJson node obj = some out) :
    ∃ gpus, GpuOutput node gpu.watts (gpu.Keyed node) gpus obj out := by
  cases gpu with
  | nvidia gpuPower => exact ⟨_, PowerJson.Nvidia.output h⟩
  | amdGpu pwrVal => exact ⟨_, PowerJson.AmdGpu.output h⟩

theorem GpuPlatform.isSome_iff : (gpu.getPowerJson node obj).isSome ↔
    ∀ c < node.sockets, (node.block c).isSome := by
  cases gpu with
  | nvidia gpuPower => exact PowerJson.Nvidia.isSome_iff
  | amdGpu pwrVal => exact PowerJson.AmdGpu.isSome_iff

end Platforms

/-! ### Both together -/

section Merge

variable {cpu : CpuPlatform} {gpu : GpuPlatform} {node : GpuNode} {timestamp : Int}
  {mid out : Object}

/-- **A CPU platform that comes second has lost the objects of the GPUs.** -/
theorem not_merged_of_gpuFirst :
    ¬ ∃ out, mergedJson cpu gpu node .gpuFirst timestamp = some out ∧
      Merged cpu gpu node out := by
  rintro ⟨out, h, hmerged⟩
  simp only [mergedJson] at h
  obtain ⟨mid, -, hcpu⟩ := Option.bind_eq_some_iff.mp h
  obtain ⟨gpus, hout⟩ := CpuPlatform.output hcpu
  obtain ⟨j, l, devs, hj, hl, -⟩ := hmerged.gpuObject 0 node.sockets_pos
  rw [hout.socket 0 node.sockets_pos (keyed_of_lt (by decide))] at hj
  obtain rfl := Option.some.inj hj
  exact CpuPlatform.get_gpu_fields 0 l hl

/-- Behind a CPU platform, the GPUs are in a socket whose key they can hold, next to
what it had. -/
theorem merged_socket {i : Nat} {l : Object}
    (hcpu : (Fields.get (socketKey i) mid).getD (.object []) = .object l)
    (hgpu : gpu.getPowerJson node mid = some out) (hi : i < node.sockets)
    (hkey : gpu.Keyed node i) :
    ∃ j devs, Fields.get (socketKey i) out = some j ∧ node.block i = some devs ∧
      j.get powerGpuWatts = some (.object (gpuFields gpu.watts devs)) ∧
      ∀ k, powerGpuWatts ≠ k → j.get k = Fields.get k l := by
  obtain ⟨gpus, hout⟩ := GpuPlatform.output hgpu
  obtain ⟨devs, hdevs, hget⟩ := hout.socket i hi hkey
  rw [hcpu] at hget
  exact ⟨_, devs, hget, hdevs, Fields.get_set_self, fun k hk => Fields.get_set_of_ne hk⟩

/-- What a CPU platform leaves in a socket whose key it can hold; with a Juno, in any. -/
theorem cpu_socket {i : Nat} (h : cpu.getPowerJson node.sockets (start timestamp) = some mid)
    (hi : i < node.sockets) (hkey : Keyed node.sockets i ∨ cpu.isJuno = true) :
    ∃ l, (Fields.get (socketKey i) mid).getD (.object []) = .object l ∧
      ∀ kv ∈ cpu.cpuValues i, Fields.get kv.1 l = some (.real kv.2) := by
  obtain ⟨gpus, hout⟩ := CpuPlatform.output h
  by_cases hkeyed : Keyed node.sockets i
  · refine ⟨cpu.fields i, ?_, fun kv hkv => CpuPlatform.get_fields hkv⟩
    rw [hout.socket i hi hkeyed, Option.getD_some]
  · cases cpu with
    | junoR2 hwmon =>
        -- beyond the first two sockets a Juno has no value
        have hnone : ∀ kv, kv ∉ (CpuPlatform.junoR2 hwmon).cpuValues i := by
          intro kv hkv
          rcases CpuPlatform.mem_cpuValues_junoR2 hkv with ⟨rfl, -⟩ | ⟨rfl, -⟩
          · exact hkeyed (keyed_of_lt (by decide))
          · exact hkeyed (keyed_of_lt (by decide))
        have honly : OnlyObject (socketKey i) mid :=
          Juno.onlyObject h (get_start (by rw [head_socketKey]; decide) timestamp)
        cases hget : Fields.get (socketKey i) mid with
        | none => exact ⟨[], rfl, fun kv hkv => absurd hkv (hnone kv)⟩
        | some j =>
            obtain ⟨l, rfl⟩ := honly j hget
            exact ⟨l, rfl, fun kv hkv => absurd hkv (hnone kv)⟩
    | intel pkgWatts dramWatts => exact absurd (hkey.resolve_left hkeyed) Bool.false_ne_true
    | amdEpyc esmi => exact absurd (hkey.resolve_left hkeyed) Bool.false_ne_true

/-- **With the CPU platform first, and keys that fit, the object has both.** -/
theorem merged_of_cpuFirst (hcpu : cpu.getPowerJson node.sockets (start timestamp) = some mid)
    (hgpu : gpu.getPowerJson node mid = some out)
    (hbound : node.sockets ≤ 10000 ∨ cpu.isJuno = true ∧ gpu.isAmd = true) :
    Merged cpu gpu node out := by
  -- the key of a socket fits its buffer, or a Juno has no value for it beyond sockets 0 and 1
  have hcpuKey : ∀ i < node.sockets, Keyed node.sockets i ∨ cpu.isJuno = true := fun i hi =>
    hbound.imp (fun h => keyed_of_le h hi) And.left
  have hgpuKey : ∀ i < node.sockets, gpu.Keyed node i := by
    intro i hi
    rcases hbound with h | ⟨-, h⟩
    · cases gpu with
      | nvidia gpuPower => exact keyed_of_le h hi
      | amdGpu pwrVal => trivial
    · cases gpu with
      | nvidia gpuPower => cases h
      | amdGpu pwrVal => trivial
  constructor
  · intro i hi kv hkv
    obtain ⟨l, hl, hvalues⟩ := cpu_socket hcpu hi (hcpuKey i hi)
    obtain ⟨j, devs, hj, -, -, hkeep⟩ := merged_socket hl hgpu hi (hgpuKey i hi)
    refine ⟨j, hj, ?_⟩
    rw [hkeep _ (CpuPlatform.ne_of_mem_cpuValues hkv), hvalues kv hkv]
  · intro i hi
    obtain ⟨l, hl, -⟩ := cpu_socket hcpu hi (hcpuKey i hi)
    obtain ⟨j, devs, hj, hdevs, hobject, -⟩ := merged_socket hl hgpu hi (hgpuKey i hi)
    exact ⟨j, _, devs, hj, hobject, hdevs, fun d hd => get_gpuFields hd⟩
  · obtain ⟨gpus, hcpuOut⟩ := CpuPlatform.output hcpu
    obtain ⟨gpus', hgpuOut⟩ := GpuPlatform.output hgpu
    obtain ⟨devs, hdevs, hnode⟩ := hgpuOut.node
    exact ⟨devs, hdevs, hnode _ hcpuOut.node⟩

/-- With more sockets the ten thousandth has no values, but on a Juno with AMD GPUs. -/
theorem bound_of_merged (hcpu : cpu.getPowerJson node.sockets (start timestamp) = some mid)
    (hgpu : gpu.getPowerJson node mid = some out) (hmerged : Merged cpu gpu node out) :
    node.sockets ≤ 10000 ∨ cpu.isJuno = true ∧ gpu.isAmd = true := by
  by_contra hbound
  obtain ⟨hs, hpair⟩ := not_or.mp hbound
  have hi : 10000 < node.sockets := Nat.not_le.mp hs
  have hlong : 12 ≤ (socketKey 10000).length := length_socketKey_of_le le_rfl
  obtain ⟨gpus, hcpuOut⟩ := CpuPlatform.output hcpu
  have hmid : Fields.get (socketKey 10000) mid = none := by
    rw [hcpuOut.long _ hlong (head_socketKey _)]
    exact get_start (by rw [head_socketKey]; decide) timestamp
  cases gpu with
  | nvidia gpuPower =>
      obtain ⟨j, l, devs, hj, -⟩ := hmerged.gpuObject 10000 hi
      rw [PowerJson.Nvidia.long hgpu hlong (head_socketKey _), hmid] at hj
      cases hj
  | amdGpu pwrVal =>
      -- the AMD GPU has made the socket, with nothing of the CPU in it
      have hcpuValue : ∃ kv, kv ∈ cpu.cpuValues 10000 := by
        cases cpu with
        | intel pkgWatts dramWatts => exact ⟨_, List.mem_cons_self⟩
        | amdEpyc esmi => exact ⟨_, List.mem_cons_self⟩
        | junoR2 hwmon => exact absurd ⟨rfl, rfl⟩ hpair
      obtain ⟨kv, hkv⟩ := hcpuValue
      obtain ⟨j, hj, hvalue⟩ := hmerged.cpuValues 10000 hi kv hkv
      have hempty : (Fields.get (socketKey 10000) mid).getD (.object []) = .object [] := by
        rw [hmid]
        rfl
      obtain ⟨j', devs, hj', -, -, hkeep⟩ := merged_socket hempty hgpu hi trivial
      obtain rfl := Option.some.inj (hj.symm.trans hj')
      rw [hkeep _ (CpuPlatform.ne_of_mem_cpuValues hkv)] at hvalue
      cases hvalue

end Merge

/-- **The node object has what both platforms report exactly under the condition**, for
every pair of platforms, both orders, every number of sockets and all readings. -/
theorem merge_iff (cpu : CpuPlatform) (gpu : GpuPlatform) (node : GpuNode)
    (order : PlatformOrder) (timestamp : Int) :
    (∃ out, mergedJson cpu gpu node order timestamp = some out ∧ Merged cpu gpu node out) ↔
      MergeCondition cpu gpu node order := by
  cases order with
  | gpuFirst => exact iff_of_false not_merged_of_gpuFirst fun h => nomatch h.1
  | cpuFirst =>
      constructor
      · rintro ⟨out, hout, hmerged⟩
        obtain ⟨mid, hcpu, hgpu⟩ := Option.bind_eq_some_iff.mp hout
        exact ⟨rfl, CpuPlatform.isSome_iff.mp (Option.isSome_iff_exists.mpr ⟨mid, hcpu⟩),
          GpuPlatform.isSome_iff.mp (Option.isSome_iff_exists.mpr ⟨out, hgpu⟩),
          bound_of_merged hcpu hgpu hmerged⟩
      · rintro ⟨-, hready, hblocks, hbound⟩
        have hmid : (cpu.getPowerJson node.sockets (start timestamp)).isSome :=
          CpuPlatform.isSome_iff.mpr hready
        obtain ⟨mid, hcpu⟩ := Option.isSome_iff_exists.mp hmid
        have hout : (gpu.getPowerJson node mid).isSome := GpuPlatform.isSome_iff.mpr hblocks
        obtain ⟨out, hgpu⟩ := Option.isSome_iff_exists.mp hout
        refine ⟨out, ?_, merged_of_cpuFirst hcpu hgpu hbound⟩
        show (cpu.getPowerJson node.sockets (start timestamp)).bind _ = some out
        rw [hcpu]
        exact hgpu

/-- A Juno r2 that draws 10 W, with two devices of 10 W on its two sockets. -/
def junoNode : GpuNode := ⟨2, 2, Nat.two_pos, GpuNode.two_lt⟩

/-- In the order of the enumeration, ARM behind NVIDIA, the node power is that of the
board alone, and no socket has an object for its device. -/
theorem junoNode_loses_gpus :
    (∃ out, mergedJson (.junoR2 ⟨10000000, 3000000, 1000000, 2000000⟩) (.nvidia fun _ => 10000)
      junoNode .gpuFirst 0 = some out ∧
      Fields.get powerNodeWatts out = some (.real (microwatts 10000000))) ∧
    ¬ ∃ out, mergedJson (.junoR2 ⟨10000000, 3000000, 1000000, 2000000⟩)
      (.nvidia fun _ => 10000) junoNode .gpuFirst 0 = some out ∧
      Merged (.junoR2 ⟨10000000, 3000000, 1000000, 2000000⟩) (.nvidia fun _ => 10000)
        junoNode out := by
  constructor
  · exact ⟨_, rfl, rfl⟩
  · exact not_merged_of_gpuFirst

end Variorum
