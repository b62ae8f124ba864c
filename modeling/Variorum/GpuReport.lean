/-
Variorum/GpuReport.lean

Which GPUs the functions cap and report.

The driver calls of `cap_each_gpu_power_limit` are made for the devices of the
blocks, and these are all devices exactly when the sockets divide them.  A
report is what is left of the entries in the JSON object: entries with the same
keys are one.  In the power object a socket whose key is cut off to that of
another replaces it with all its devices; in the utilization object the entries
of both stay, as long as the keys of the devices differ there.

`coverage_iff` is the condition for all of this.  The keys of devices differ up
to a hundred million, and once more for seventeen sockets.
-/
import Mathlib.Data.Nat.Prime.Basic
import Mathlib.Tactic.NormNum.Prime
import Variorum.PowerMerge
import Variorum.UtilJsonSpec

namespace Variorum

open CString PowerJson
open Json (Object)

/-! ### Coverage -/

namespace GpuPlatform

/-- The limit its driver is given, for one in watts. -/
def limit (powerlimit : BitVec 32) : GpuPlatform → BitVec 32
  | nvidia _ => powerlimit * 1000
  | amdGpu _ => powerlimit * 1000000

/-- Its `cap_each_gpu_power_limit`, called for every socket. -/
def capEachGpuPowerLimit (node : GpuNode) (powerlimit : BitVec 32) :
    GpuPlatform → Option (List LimitCall)
  | nvidia _ => GpuNode.overSockets (Nvidia.capEachGpuPowerLimit node powerlimit) node.sockets
  | amdGpu _ => GpuNode.overSockets (AmdGpu.capEachGpuPowerLimit node powerlimit) node.sockets

/-- The platform whose utilization functions go with these GPUs. -/
def utilPlatform : GpuPlatform → UtilPlatform
  | nvidia _ => .nvidia
  | amdGpu _ => .amdGpu

end GpuPlatform

/-- The entries of every `power_gpu_watts` in the node object. -/
def powerEntries (out : Object) : Object :=
  out.flatMap fun kv => (kv.2.get powerGpuWatts).elim [] Json.fields

/-- The entries of every socket of every host, each with the key of its socket. -/
def utilEntries (out : Object) : List ((List Char × List Char) × Json) :=
  out.flatMap fun host => UtilJson.leaves ((host.2.get UtilJson.gpuKey).elim [] Json.fields)

/-- The keys of device `d` where a socket has `g`: that of the socket and its own, as far as
they fit. -/
def utilPlace (g d : Nat) : List Char × List Char :=
  (snprintf 12 (UtilJson.socketKey (d / g)), snprintf 12 (UtilJson.utilKey d))

/-- Every device of the node is in one block, is capped once, and has one entry in either
report, with its reading, and nothing else is or has. -/
structure Covered (gpu : GpuPlatform) (node : GpuNode) (powerlimit : BitVec 32)
    (timestamp : Int) (hostname : List Char) (ts : Nat → Int) (util : Int → BitVec 32) :
    Prop where
  blocks : node.EachOnce Int.ofNat node.blocks
  capped : node.EachOnce (fun d : Nat => ⟨d, gpu.limit powerlimit⟩)
    (gpu.capEachGpuPowerLimit node powerlimit)
  power : node.EachOnce (fun d : Nat => (gpuKey d, .real (gpu.watts d)))
    ((gpu.getPowerJson node (start timestamp)).map powerEntries)
  util : node.EachOnce
    (fun d : Nat => (utilPlace node.gpusPerSocket.toNat d,
      .integer (gpu.utilPlatform.value util d)))
    ((gpu.utilPlatform.getUtilizationJson node hostname ts util).map utilEntries)

/-- The sockets divide the devices; the keys of the devices differ where a buffer of twelve
cuts them off; and so do those of the sockets, if there is a device and NVIDIA reports it. -/
def CoverageCondition (gpu : GpuPlatform) (node : GpuNode) : Prop :=
  node.sockets ∣ node.devices.toNat ∧
    (node.devices.toNat ≤ 10 ^ 8 ∨ node.devices.toNat = 10 ^ 8 + 1 ∧ node.sockets = 17) ∧
    (gpu.isAmd = true ∨ node.sockets ≤ 10000 ∨ node.devices.toNat = 0)

/-! ### The power object -/

section Power

variable {node : GpuNode} {watts : Int → Rat} {size n : Nat} {timestamp gpus : Int}
  {key : List Char} {devs : List Int} {obj out : Object}

/-- The objects of the first sockets, as they are set. -/
def gpuSockets (size : Nat) (node : GpuNode) (watts : Int → Rat) (n : Nat) : Object :=
  (List.range n).map fun c => (snprintf size (socketKey c),
    .object [(powerGpuWatts, .object (gpuFields watts ((node.block c).getD [])))])

/-- The fields of the node object that are no sockets'. -/
def gpuBase (timestamp gpus : Int) : Object :=
  start timestamp ++ [(numGpusPerSocket, .integer gpus)]

/-- The node object behind the turns of the first sockets. -/
def gpuTurnsObject (size : Nat) (node : GpuNode) (watts : Int → Rat) (timestamp gpus : Int)
    (n : Nat) : Object :=
  gpuBase timestamp gpus ++ Fields.setAll [] (gpuSockets size node watts n)

theorem head_of_mem_gpuSockets {kv : List Char × Json}
    (h : kv ∈ Fields.setAll [] (gpuSockets (size + 2) node watts n)) :
    kv.1.head? = some 's' ∧ ∃ v, kv.2 = .object [(powerGpuWatts, v)] := by
  rcases Fields.mem_setAll h with h | h
  · cases h
  · obtain ⟨c, -, rfl⟩ := List.mem_map.mp h
    exact ⟨head_snprintf_socketKey size c, _, rfl⟩

theorem not_mem_gpuBase (hkey : key.head? = some 's') :
    key ∉ (gpuBase timestamp gpus).map Prod.fst := by
  intro hmem
  have hhead : ∀ k ∈ ["timestamp".toList, numGpusPerSocket], k.head? ≠ some 's' := by decide
  exact hhead key hmem hkey

/-- There is no node power to add to. -/
theorem get_powerNodeWatts_gpuTurnsObject :
    Fields.get powerNodeWatts
      (gpuTurnsObject (size + 2) node watts timestamp gpus n) = none := by
  rw [Fields.get_eq_none_iff, gpuTurnsObject, List.map_append, List.mem_append, not_or]
  constructor
  · show powerNodeWatts ∉ ["timestamp".toList, numGpusPerSocket]
    decide
  · intro hmem
    obtain ⟨kv, hkv, heq⟩ := List.mem_map.mp hmem
    have hhead := (head_of_mem_gpuSockets hkv).1
    rw [heq] at hhead
    exact absurd hhead (by decide)

theorem set_numGpus_start :
    Fields.set numGpusPerSocket (.integer gpus) (start timestamp)
      = gpuTurnsObject size node watts timestamp gpus 0 :=
  (Fields.set_of_get_none (get_start (by decide) timestamp)).trans (List.append_nil _).symm

theorem set_numGpus_gpuTurnsObject :
    Fields.set numGpusPerSocket (.integer gpus)
      (gpuTurnsObject size node watts timestamp gpus n)
      = gpuTurnsObject size node watts timestamp gpus n := by
  have hstart : numGpusPerSocket ∉ (start timestamp).map Prod.fst :=
    Fields.get_eq_none_iff.mp (get_start (by decide) timestamp)
  rw [gpuTurnsObject, gpuBase, List.append_assoc]
  exact Fields.set_split hstart

/-- Where there is nothing but GPUs under the key of a socket, it is set. -/
theorem setGpuObject_eq_set
    (hdevs : (∀ d ∈ devs, -2 ^ 31 ≤ d ∧ d < 2 ^ 31) ∧ devs.Nodup)
    (hobj : ∀ j, Fields.get key obj = some j → ∃ v, j = .object [(powerGpuWatts, v)]) :
    setGpuObject key devs watts obj
      = Fields.set key (.object [(powerGpuWatts, .object (gpuFields watts devs))]) obj := by
  unfold setGpuObject
  simp only [gpuFields_eq hdevs]
  cases hget : Fields.get key obj with
  | none =>
      rw [Option.isNone_none, if_pos rfl, Fields.modify_set_self]
      rfl
  | some j =>
      obtain ⟨v, rfl⟩ := hobj j hget
      rw [Option.isNone_some, if_neg Bool.false_ne_true, Fields.modify_of_get hget]
      simp [Json.set, Fields.set]

/-- **A turn** sets the object of its socket. -/
theorem setGpuObject_gpuTurnsObject (hdevs : node.block n = some devs) :
    setGpuObject (snprintf (size + 2) (socketKey n)) devs watts
      (gpuTurnsObject (size + 2) node watts timestamp gpus n)
      = gpuTurnsObject (size + 2) node watts timestamp gpus (n + 1) := by
  have hhead := head_snprintf_socketKey size n
  rw [setGpuObject_eq_set (GpuNode.block_ints hdevs)]
  · rw [gpuTurnsObject, Fields.set_append_left (not_mem_gpuBase hhead), gpuTurnsObject,
      gpuSockets, gpuSockets, List.range_succ, List.map_append, Fields.setAll_append,
      List.map_singleton, hdevs]
    rfl
  · intro j hj
    rcases List.mem_append.mp (Fields.mem_of_get hj) with hmem | hmem
    · exact absurd (List.mem_map_of_mem hmem) (not_mem_gpuBase hhead)
    · exact (head_of_mem_gpuSockets hmem).2

theorem nvidia_gpuTurnsObject {gpuPower : Int → BitVec 32}
    (h : PowerJson.Nvidia.voltaGetPowerJson node gpuPower (start timestamp) = some out) :
    out = gpuTurnsObject 12 node (PowerJson.Nvidia.watts gpuPower) timestamp
      node.gpusPerSocket.toNat node.sockets := by
  -- a turn sets the number of GPUs first, so the object is described behind that setting
  refine (forSockets_inv (fun k o =>
    Fields.set numGpusPerSocket (.integer node.gpusPerSocket.toNat) o
      = gpuTurnsObject 12 node (PowerJson.Nvidia.watts gpuPower) timestamp
        node.gpusPerSocket.toNat k ∧
    (0 < k → o = gpuTurnsObject 12 node (PowerJson.Nvidia.watts gpuPower) timestamp
      node.gpusPerSocket.toNat k)) ⟨set_numGpus_start, nofun⟩ ?_ h).2 node.sockets_pos
  rintro c o o' - ⟨ho, -⟩ hturn
  obtain ⟨devs, hdevs, rfl⟩ := PowerJson.Nvidia.turn_eq hturn
  rw [ho, setGpuObject_gpuTurnsObject hdevs,
    addToNodeWatts_of_none get_powerNodeWatts_gpuTurnsObject]
  exact ⟨set_numGpus_gpuTurnsObject, fun _ => rfl⟩

theorem amdGpu_gpuTurnsObject {pwrVal : Int → BitVec 64}
    (h : PowerJson.AmdGpu.getJsonPowerData node pwrVal (start timestamp) = some out) :
    out = gpuTurnsObject 24 node (PowerJson.AmdGpu.watts pwrVal) timestamp
      node.gpusPerSocket.toInt node.sockets := by
  obtain ⟨o, ho, h⟩ := Option.bind_eq_some_iff.mp h
  obtain ⟨devs, -, h⟩ := Option.bind_eq_some_iff.mp h
  have hloop : o = gpuTurnsObject 24 node (PowerJson.AmdGpu.watts pwrVal) timestamp
      node.gpusPerSocket.toInt node.sockets := by
    refine forSockets_inv (fun k o => o = gpuTurnsObject 24 node (PowerJson.AmdGpu.watts pwrVal)
      timestamp node.gpusPerSocket.toInt k) set_numGpus_start ?_ ho
    rintro c o o' - rfl hturn
    obtain ⟨devs, hdevs, hturn⟩ := Option.bind_eq_some_iff.mp hturn
    rw [← Option.some.inj hturn, setGpuObject_gpuTurnsObject hdevs]
  rw [← Option.some.inj h, hloop, addToNodeWatts_of_none get_powerNodeWatts_gpuTurnsObject]

theorem powerEntries_gpuTurnsObject :
    powerEntries (gpuTurnsObject size node watts timestamp gpus n)
      = powerEntries (Fields.setAll [] (gpuSockets size node watts n)) := by
  rw [gpuTurnsObject, powerEntries, List.flatMap_append]
  rfl

/-- **Where the keys of the sockets differ**, the entries are those of the blocks. -/
theorem powerEntries_of_nodup {l : List Int} (hblocks : node.blocks = some l)
    (hnodup : ((List.range node.sockets).map fun c => snprintf size (socketKey c)).Nodup) :
    powerEntries (gpuTurnsObject size node watts timestamp gpus node.sockets)
      = l.map fun d => (gpuKey d, .real (watts d)) := by
  have hkeys : ((gpuSockets size node watts node.sockets).map Prod.fst).Nodup := by
    rw [gpuSockets, List.map_map]
    exact hnodup
  rw [powerEntries_gpuTurnsObject, Fields.setAll_nil hkeys, GpuNode.overSockets_eq_getD hblocks,
    List.map_flatMap, powerEntries, gpuSockets, List.flatMap_map]
  refine List.flatMap_congr fun c _ => ?_
  simp [Json.get, Fields.get, Json.fields, gpuFields]

/-- Each socket that is left has an entry for each device of a block. -/
theorem length_powerEntries {g : Nat}
    (hlen : ∀ c < node.sockets, ((node.block c).getD []).length = g) :
    (powerEntries (gpuTurnsObject size node watts timestamp gpus node.sockets)).length
      = (Fields.setAll [] (gpuSockets size node watts node.sockets)).length * g := by
  rw [powerEntries_gpuTurnsObject, powerEntries, List.length_flatMap]
  have hentries : ∀ kv ∈ Fields.setAll [] (gpuSockets size node watts node.sockets),
      ((kv.2.get powerGpuWatts).elim [] Json.fields).length = g := by
    intro kv hkv
    rcases Fields.mem_setAll hkv with hkv | hkv
    · cases hkv
    · obtain ⟨c, hc, rfl⟩ := List.mem_map.mp hkv
      rw [← hlen c (List.mem_range.mp hc)]
      simp [Json.get, Fields.get, Json.fields, gpuFields]
  rw [List.map_congr_left hentries, List.map_const', List.sum_replicate_nat]

theorem eachOnce_some {α : Type} {entry : Nat → α} {l : List α} :
    node.EachOnce entry (some l) ↔ l.Perm ((List.range node.devices.toNat).map entry) :=
  ⟨fun ⟨_, heq, hperm⟩ => Option.some.inj heq ▸ hperm, fun h => ⟨l, rfl, h⟩⟩

/-- All devices are in the blocks, in order. -/
theorem blocks_of_dvd (hdvd : node.sockets ∣ node.devices.toNat)
    (hlt : node.devices.toNat < 2 ^ 31) :
    node.blocks = some ((List.range node.devices.toNat).map Int.ofNat) := by
  rw [GpuNode.blocks_eq hlt, Nat.mul_div_cancel' hdvd]

theorem perm_of_nodup (hdvd : node.sockets ∣ node.devices.toNat)
    (hlt : node.devices.toNat < 2 ^ 31)
    (hnodup : ((List.range node.sockets).map fun c => snprintf size (socketKey c)).Nodup) :
    (powerEntries (gpuTurnsObject size node watts timestamp gpus node.sockets)).Perm
      ((List.range node.devices.toNat).map fun d : Nat => (gpuKey d, .real (watts d))) := by
  rw [powerEntries_of_nodup (blocks_of_dvd hdvd hlt) hnodup, List.map_map]
  exact List.Perm.refl _

/-- **NVIDIA** reports every device while no key of a socket is cut off. -/
theorem nvidia_power_iff (gpuPower : Int → BitVec 32) (timestamp : Int)
    (hdvd : node.sockets ∣ node.devices.toNat) (hlt : node.devices.toNat < 2 ^ 31) :
    node.EachOnce (fun d : Nat => (gpuKey d, .real (PowerJson.Nvidia.watts gpuPower d)))
        ((PowerJson.Nvidia.voltaGetPowerJson node gpuPower (start timestamp)).map powerEntries) ↔
      node.sockets ≤ 10000 ∨ node.devices.toNat = 0 := by
  have hsome : (PowerJson.Nvidia.voltaGetPowerJson node gpuPower (start timestamp)).isSome :=
    Nvidia.isSome_iff.mpr (GpuNode.overSockets_eq_some (blocks_of_dvd hdvd hlt))
  obtain ⟨out, hout⟩ := Option.isSome_iff_exists.mp hsome
  obtain rfl := nvidia_gpuTurnsObject hout
  rw [hout, Option.map_some, eachOnce_some]
  have hlen : ∀ c < node.sockets,
      ((node.block c).getD []).length = node.devices.toNat / node.sockets := by
    intro c hc
    rw [GpuNode.block_eq hlt hc, Option.getD_some, List.length_map, List.length_range']
  constructor
  · intro hperm
    by_contra hcond
    rw [not_or] at hcond
    have hcount := hperm.length_eq
    rw [length_powerEntries hlen, List.length_map, List.length_range] at hcount
    have hpos : 0 < node.devices.toNat / node.sockets :=
      Nat.div_pos (Nat.le_of_dvd (Nat.pos_of_ne_zero hcond.2) hdvd) node.sockets_pos
    have hfields := Nat.eq_of_mul_eq_mul_right hpos
      (hcount.trans (Nat.mul_div_cancel' hdvd).symm)
    obtain ⟨hnodup, -⟩ := Fields.new_of_length_setAll (hfields.trans (by
      rw [gpuSockets, List.length_map, List.length_range, List.length_nil, Nat.zero_add]))
    rw [gpuSockets, List.map_map] at hnodup
    -- the last digit of socket 10000 is cut off, and socket 1000 has its key
    have hsame : (1000 : Nat) = 10000 := by
      refine List.inj_on_of_nodup_map hnodup (List.mem_range.mpr ?_) (List.mem_range.mpr ?_) ?_
      · omega
      · omega
      · show snprintf 12 (socketKey 1000) = snprintf 12 (socketKey 10000)
        decide
    exact absurd hsame (by decide)
  · rintro (hs | hzero)
    · refine perm_of_nodup hdvd hlt (List.Nodup.map_on (fun i hi j hj h => ?_) List.nodup_range)
      have hkeyed := keyed_of_le hs (List.mem_range.mp hj)
      exact hkeyed.unique i (List.mem_range.mp hi) (h.trans hkeyed.fits)
    · rw [hzero, List.range_zero, List.map_nil, List.perm_nil]
      apply List.eq_nil_of_length_eq_zero
      rw [length_powerEntries hlen, hzero, Nat.zero_div, Nat.mul_zero]

/-- **AMD** always reports the power of every GPU once, as its keys are long enough for
any number. -/
theorem amdGpu_power (pwrVal : Int → BitVec 64) (timestamp : Int)
    (hdvd : node.sockets ∣ node.devices.toNat) (hlt : node.devices.toNat < 2 ^ 31) :
    node.EachOnce (fun d : Nat => (gpuKey d, .real (PowerJson.AmdGpu.watts pwrVal d)))
      ((PowerJson.AmdGpu.getJsonPowerData node pwrVal (start timestamp)).map powerEntries) := by
  have hsome : (PowerJson.AmdGpu.getJsonPowerData node pwrVal (start timestamp)).isSome :=
    AmdGpu.isSome_iff.mpr (GpuNode.overSockets_eq_some (blocks_of_dvd hdvd hlt))
  obtain ⟨out, hout⟩ := Option.isSome_iff_exists.mp hsome
  obtain rfl := amdGpu_gpuTurnsObject hout
  rw [hout, Option.map_some, eachOnce_some]
  refine perm_of_nodup hdvd hlt (List.Nodup.map_on (fun i hi j hj h => ?_) List.nodup_range)
  have hfits : ∀ k < node.sockets, snprintf 24 (socketKey k) = socketKey k := fun k hk =>
    snprintf_socketKey (w := 16) (hk.trans (node.sockets_lt.trans (by decide))) (by decide)
  rw [hfits i (List.mem_range.mp hi), hfits j (List.mem_range.mp hj)] at h
  exact socketKey_injective h

end Power

/-! ### The utilization object -/

section Utilization

variable {node : GpuNode} {value : Int → Int} {hostname : List Char} {ts : Nat → Int}
  {out : Object}

/-- A device has its place in the turn of its socket. -/
theorem allEntries_eq (value : Int → Int) (hdvd : node.sockets ∣ node.devices.toNat)
    (hlt : node.devices.toNat < 2 ^ 31) :
    UtilJson.allEntries node value node.sockets
      = (List.range node.devices.toNat).map fun d : Nat =>
          (utilPlace node.gpusPerSocket.toNat d, .integer (value d)) := by
  obtain ⟨g, hg⟩ := hdvd
  have hquot : node.devices.toNat / node.sockets = g := by
    rw [hg, Nat.mul_div_cancel_left _ node.sockets_pos]
  rw [GpuNode.gpusPerSocket_toNat, hquot, UtilJson.allEntries, hg, ← flatMap_blocks,
    List.map_flatMap]
  refine List.flatMap_congr fun c hc => ?_
  rw [UtilJson.entries_eq value hlt (List.mem_range.mp hc), hquot, UtilJson.tagged, List.map_map]
  refine List.map_congr_left fun d hd => ?_
  obtain ⟨hlow, hhigh⟩ := List.mem_range'_1.mp hd
  have hsocket : d / g = c := Nat.div_eq_of_lt_le hlow (by rwa [Nat.succ_mul])
  rw [utilPlace, hsocket]
  rfl

/-- **Every device is reported** exactly when no two have the same place. -/
theorem util_places_iff (p : UtilPlatform) (hostname : List Char) (ts : Nat → Int)
    (util : Int → BitVec 32) (hdvd : node.sockets ∣ node.devices.toNat)
    (hlt : node.devices.toNat < 2 ^ 31) :
    node.EachOnce (fun d : Nat => (utilPlace node.gpusPerSocket.toNat d, .integer (p.value util d)))
        ((p.getUtilizationJson node hostname ts util).map utilEntries) ↔
      ((List.range node.devices.toNat).map (utilPlace node.gpusPerSocket.toNat)).Nodup := by
  have hsome : (forSockets (UtilJson.utilTurn node hostname ts (p.value util))
      node.sockets []).isSome :=
    UtilJson.utilLoop_isSome_iff.mpr (GpuNode.overSockets_eq_some (blocks_of_dvd hdvd hlt))
  obtain ⟨out, hout⟩ := Option.isSome_iff_exists.mp hsome
  rw [p.getUtilizationJson_eq, hout, Option.map_some, eachOnce_some]
  obtain rfl := UtilJson.utilLoop_eq node.sockets_pos.ne' hout
  have hentries : utilEntries [(hostname, .object
      (UtilJson.hostObject node (p.value util) (ts 0) node.sockets))]
      = UtilJson.leaves (UtilJson.gpuObject node (p.value util) node.sockets) :=
    List.append_nil _
  rw [hentries, ← allEntries_eq (p.value util) hdvd hlt, UtilJson.leaves_perm_iff,
    allEntries_eq (p.value util) hdvd hlt, List.map_map]
  rfl

end Utilization

/-! ### The places of the devices -/

section Places

variable {s g d e : Nat}

/-- Two devices of a socket with the same key have the same place. -/
theorem utilPlace_eq
    (hkey : snprintf 12 (UtilJson.utilKey d) = snprintf 12 (UtilJson.utilKey e))
    (hsocket : d / g = e / g) : utilPlace g d = utilPlace g e := by
  rw [utilPlace, utilPlace, hkey, hsocket]

/-- The last digit of these devices is cut off, and then they have the key of device
`10 ^ 7`. -/
theorem snprintf_utilKey_last (h : e ≤ 2) :
    snprintf 12 (UtilJson.utilKey (10 ^ 8 + e : Nat))
      = snprintf 12 (UtilJson.utilKey (10 ^ 7 : Nat)) := by
  obtain rfl | rfl | rfl : e = 0 ∨ e = 1 ∨ e = 2 := by omega
  · decide
  · decide
  · decide

/-- Of three devices in a row two are in one socket, unless each socket has one. -/
theorem exists_same_place (hn : 10 ^ 8 + 2 ≤ s * g) :
    ∃ d e, d < e ∧ e < s * g ∧ utilPlace g d = utilPlace g e := by
  by_cases hone : g = 1
  · subst hone
    exact ⟨10 ^ 8, 10 ^ 8 + 1, by omega, by omega, by decide⟩
  by_cases hfirst : g ∣ 10 ^ 8 + 1
  · have hsecond : ¬ g ∣ 10 ^ 8 + 2 := fun h =>
      hone (Nat.dvd_one.mp ((Nat.dvd_add_right hfirst).mp h))
    have hne : s * g ≠ 10 ^ 8 + 2 := fun e => hsecond (e ▸ Nat.dvd_mul_left g s)
    refine ⟨10 ^ 8 + 1, 10 ^ 8 + 2, by omega, by omega, utilPlace_eq ?_ ?_⟩
    · exact (snprintf_utilKey_last (by decide)).trans (snprintf_utilKey_last (by decide)).symm
    · exact (Nat.succ_div_of_not_dvd hsecond).symm
  · refine ⟨10 ^ 8, 10 ^ 8 + 1, by omega, by omega, utilPlace_eq ?_ ?_⟩
    · exact (snprintf_utilKey_last (e := 0) (by decide)).trans
        (snprintf_utilKey_last (by decide)).symm
    · exact (Nat.succ_div_of_not_dvd hfirst).symm

theorem eq_of_dvd_last (h : s ∣ 10 ^ 8 + 1) :
    s = 1 ∨ s = 17 ∨ s = 5882353 ∨ s = 10 ^ 8 + 1 := by
  have hsmall : Nat.Prime 17 := by norm_num
  have hlarge : Nat.Prime 5882353 := by norm_num
  obtain ⟨a, b, ha, hb, rfl⟩ := Nat.dvd_mul.mp (show s ∣ 17 * 5882353 from h)
  rcases (Nat.dvd_prime hsmall).mp ha with rfl | rfl
  · rcases (Nat.dvd_prime hlarge).mp hb with rfl | rfl
    · exact .inl rfl
    · exact .inr (.inr (.inl rfl))
  · rcases (Nat.dvd_prime hlarge).mp hb with rfl | rfl
    · exact .inr (.inl rfl)
    · exact .inr (.inr (.inr rfl))

/-- One device more than `10 ^ 8` shares its place, unless there are seventeen sockets. -/
theorem last_same_place (hn : s * g = 10 ^ 8 + 1) (hs : s ≠ 17) :
    utilPlace g (10 ^ 7) = utilPlace g (10 ^ 8) := by
  rcases eq_of_dvd_last ⟨g, hn.symm⟩ with rfl | rfl | rfl | rfl
  · rw [Nat.one_mul] at hn
    subst hn
    decide
  · exact absurd rfl hs
  · obtain rfl : g = 17 := by omega
    decide
  · obtain rfl : g = 1 := by omega
    decide

/-- **The places of all devices differ** up to `10 ^ 8`, and for one device more on
seventeen sockets. -/
theorem nodup_places_iff :
    ((List.range (s * g)).map (utilPlace g)).Nodup ↔
      s * g ≤ 10 ^ 8 ∨ s * g = 10 ^ 8 + 1 ∧ s = 17 := by
  constructor
  · intro h
    have hinj : ∀ {d e : Nat}, d < s * g → e < s * g → utilPlace g d = utilPlace g e → d = e :=
      fun hd he => List.inj_on_of_nodup_map h (List.mem_range.mpr hd) (List.mem_range.mpr he)
    by_contra hcond
    rw [not_or, not_and] at hcond
    rcases Nat.lt_or_ge (s * g) (10 ^ 8 + 2) with hlt | hge
    · have hn : s * g = 10 ^ 8 + 1 := by omega
      have hsame := hinj (by omega) (by omega) (last_same_place hn (hcond.2 hn))
      exact absurd hsame (by decide)
    · obtain ⟨d, e, hde, he, hplace⟩ := exists_same_place hge
      exact absurd (hinj (hde.trans he) he hplace) hde.ne
  · intro h
    refine List.Nodup.map_on (fun d hd e he hplace => ?_) List.nodup_range
    have hd := List.mem_range.mp hd
    have he := List.mem_range.mp he
    have hkey : snprintf 12 (UtilJson.utilKey d) = snprintf 12 (UtilJson.utilKey e) :=
      congrArg Prod.snd hplace
    rcases h with hle | ⟨hn, rfl⟩
    · exact UtilJson.snprintf_utilKey_injective (by omega) (by omega) hkey
    · obtain rfl : g = 5882353 := by omega
      -- device `10 ^ 8` is in socket 16, and `10 ^ 7` in socket 1
      have hlast : ∀ {d : Nat}, d < 10 ^ 8 → utilPlace 5882353 d ≠ utilPlace 5882353 (10 ^ 8) := by
        intro d hd hplace
        have hkey : snprintf 12 (UtilJson.utilKey d)
            = snprintf 12 (UtilJson.utilKey (10 ^ 8 : Nat)) := congrArg Prod.snd hplace
        obtain rfl := UtilJson.snprintf_utilKey_injective hd (by decide)
          (hkey.trans (snprintf_utilKey_last (e := 0) (by decide)))
        exact absurd hplace (by decide)
      rcases Nat.lt_or_eq_of_le (Nat.le_of_lt_succ (hn ▸ hd)) with hd' | rfl
      · rcases Nat.lt_or_eq_of_le (Nat.le_of_lt_succ (hn ▸ he)) with he' | rfl
        · exact UtilJson.snprintf_utilKey_injective hd' he' hkey
        · exact absurd hplace (hlast hd')
      · rcases Nat.lt_or_eq_of_le (Nat.le_of_lt_succ (hn ▸ he)) with he' | rfl
        · exact absurd hplace.symm (hlast he')
        · rfl

end Places

/-! ### Both directions -/

/-- The calls that set limits are made for the devices of the blocks. -/
theorem GpuPlatform.capEachGpuPowerLimit_eq (gpu : GpuPlatform) (node : GpuNode)
    (powerlimit : BitVec 32) : gpu.capEachGpuPowerLimit node powerlimit
      = node.blocks.map (·.map fun d => ⟨d, gpu.limit powerlimit⟩) := by
  cases gpu with
  | nvidia _ => exact GpuNode.overSockets_forBlock _
  | amdGpu _ => exact GpuNode.overSockets_forBlock _

/-- **Every GPU is covered exactly once**, by the blocks, by the limits and by both reports,
exactly when the sockets divide the devices and no key that tells them apart is cut off. -/
theorem coverage_iff (gpu : GpuPlatform) (node : GpuNode) (powerlimit : BitVec 32)
    (timestamp : Int) (hostname : List Char) (ts : Nat → Int) (util : Int → BitVec 32) :
    Covered gpu node powerlimit timestamp hostname ts util ↔ CoverageCondition gpu node := by
  -- the two backends of the power report differ in the width of their keys
  have hpower : node.sockets ∣ node.devices.toNat → node.devices.toNat < 2 ^ 31 →
      (node.EachOnce (fun d : Nat => (gpuKey d, .real (gpu.watts d)))
        ((gpu.getPowerJson node (start timestamp)).map powerEntries) ↔
      (gpu.isAmd = true ∨ node.sockets ≤ 10000 ∨ node.devices.toNat = 0)) := by
    intro hdvd hlt
    cases gpu with
    | nvidia gpuPower =>
        refine (nvidia_power_iff gpuPower timestamp hdvd hlt).trans ?_
        exact (or_iff_right Bool.false_ne_true).symm
    | amdGpu pwrVal => exact iff_of_true (amdGpu_power pwrVal timestamp hdvd hlt) (.inl rfl)
  -- the utilisation report names a device by a cut text, so two devices can end at one place
  have hplaces : node.sockets ∣ node.devices.toNat →
      (((List.range node.devices.toNat).map (utilPlace node.gpusPerSocket.toNat)).Nodup ↔
        (node.devices.toNat ≤ 10 ^ 8 ∨
          node.devices.toNat = 10 ^ 8 + 1 ∧ node.sockets = 17)) := by
    intro hdvd
    have hprod := Nat.mul_div_cancel' hdvd
    rw [← GpuNode.gpusPerSocket_toNat] at hprod
    have hiff := @nodup_places_iff node.sockets node.gpusPerSocket.toNat
    rwa [hprod] at hiff
  constructor
  · intro h
    obtain ⟨hdvd, hlt⟩ := (GpuNode.blocks_eachOnce_iff node).mp h.blocks
    refine ⟨hdvd, (hplaces hdvd).mp ?_, (hpower hdvd hlt).mp h.power⟩
    exact (util_places_iff gpu.utilPlatform hostname ts util hdvd hlt).mp h.util
  · rintro ⟨hdvd, hsizes, hkeys⟩
    have hlt : node.devices.toNat < 2 ^ 31 := by
      rcases hsizes with hle | ⟨heq, -⟩ <;> omega
    have hblocks := (GpuNode.blocks_eachOnce_iff node).mpr ⟨hdvd, hlt⟩
    refine ⟨hblocks, ?_, (hpower hdvd hlt).mpr hkeys, ?_⟩
    · rw [gpu.capEachGpuPowerLimit_eq]
      exact hblocks.map _
    · refine (util_places_iff gpu.utilPlatform hostname ts util hdvd hlt).mpr ?_
      exact (hplaces hdvd).mpr hsizes

/-- Three devices on two sockets. -/
def threeDevices : GpuNode := ⟨3, 2, Nat.two_pos, GpuNode.two_lt⟩

/-- The blocks have one device each, and the third is in none: its limit is not set. -/
theorem threeDevices_blocks :
    threeDevices.blocks = some [0, 1] ∧
      ¬ threeDevices.EachOnce Int.ofNat threeDevices.blocks ∧
      GpuPlatform.capEachGpuPowerLimit threeDevices 200 (.nvidia fun _ => 0)
        = some [⟨0, 200000⟩, ⟨1, 200000⟩] := by
  have hblocks : threeDevices.blocks = some [0, 1] := by decide
  refine ⟨hblocks, ?_, rfl⟩
  rintro ⟨l, hl, hperm⟩
  rw [hblocks] at hl
  obtain rfl := Option.some.inj hl
  exact absurd hperm.length_eq (by decide)

end Variorum
