/-
Variorum/FrequencyReport.lean

The frequencies of a node: `variorum_get_frequency_json`.

The platforms add to one node object, as those of the thermal JSON do, but here a
platform that fails does not end the call: the Intel wrapper drops what
`get_clocks_data_json` returns, and the API function prints a line for the others
and goes on.  So a text is stored behind every `variorum_enter` that returns 0, and
its return value does not tell whether a platform is missing from it
(`frequencyJson_merges`): an IBM platform that cannot read a block has added the
sockets before it, and an Intel platform without a ratio nothing.

The EPYC function stores a boost limit for each core.  Where one cannot be had, the
variable keeps the limit of the core before (`boostLimits_iff`).
-/
import Variorum.FrequencyJson
import Variorum.NodeReport
import Variorum.OccPower

namespace Variorum

open CString NodeReport
open Json (Object)
open PowerJson (socketKey)
open UtilJson (cpuKey gpuKey inObject)

namespace FrequencyReport

/-! ### AMD EPYC -/

/-- The sockets and cores of an EPYC node. -/
structure BoostNode where
  numSockets : Nat
  totalCores : Nat
  numSockets_pos : 0 < numSockets
  totalCores_lt : totalCores < 2 ^ 31

/-- `cores_per_socket`. -/
def BoostNode.coresPerSocket (node : BoostNode) : Nat := node.totalCores / node.numSockets

/-- `boostlimit`, which has no value before the first read, `current_core` and the object. -/
structure BoostLoop where
  boostlimit : BitVec 32
  currentCore : Nat
  obj : Object

/-- The body of the loop over the cores; `esmi_core_boostlimit_get` leaves the variable where
it fails. -/
def boostTurn (get : Nat → Option (BitVec 32)) (s : BoostLoop) (_core : Nat) : BoostLoop :=
  let boostlimit := (get s.currentCore).getD s.boostlimit
  { boostlimit := boostlimit
    currentCore := s.currentCore + 1
    obj := Fields.set (snprintf 24 (FrequencyJson.coreAvgKey s.currentCore))
      (.real boostlimit.toNat) s.obj }

/-- The body of the loop over the sockets. -/
def boostSocket (node : BoostNode) (get : Nat → Option (BitVec 32)) (s : BoostLoop) (socket : Nat) :
    BoostLoop :=
  let cores := (List.range node.coresPerSocket).foldl (boostTurn get) { s with obj := [] }
  { cores with
    obj := inObject (snprintf 16 (socketKey socket))
      (Fields.set cpuKey (.object [(FrequencyJson.coreKey, .object cores.obj)])) s.obj }

/-- `amd_cpu_epyc_get_json_boostlimit`. -/
def amdCpuEpycGetJsonBoostlimit (node : BoostNode) (get : Nat → Option (BitVec 32))
    (uninit : BitVec 32) (obj : Object) : Int × Object :=
  (0, ((List.range node.numSockets).foldl (boostSocket node get) ⟨uninit, 0, obj⟩).obj)

/-! ### IBM -/

def FREQA : List (BitVec 8) := Bytes.ascii "FREQA"

/-- The body of the loop of `json_get_frequency_sensors`. -/
def freqTurn (b : Bytes.Block) (cpuObj : Object) (md : Nat) : Option Object := do
  let offset ← b.be 4 (md + Occ.Name.readingOffset)
  let structureType ← b.get (md + Occ.Name.structureType)
  let sample ←
    if structureType = Occ.OCC_SENSOR_READING_FULL then Occ.readSensor b offset .sample else some 0
  if ← b.strEq FREQA md then
    return Fields.set FrequencyJson.cpuAvgKey (.integer sample) cpuObj
  else return cpuObj

/-- `cpu_obj` as it is behind the loop over the sensors. -/
def freqObj (byte : Nat → BitVec 8) : Option Object :=
  Occ.sensorLoop (Occ.block byte) (freqTurn (Occ.block byte)) []

/-- `json_get_frequency_sensors`: the clocks of a chip, under its socket. -/
def jsonGetFrequencySensors (chipid : Nat) (nodeObj : Object) (byte : Nat → BitVec 8) :
    Option Object := do
  return inObject (snprintf 12 (socketKey chipid))
    (Fields.set cpuKey (.object (← freqObj byte))) nodeObj

/-- The loop of `ibm_cpu_p9_get_node_frequency_json` over the sockets that are left, for what
the reads put in the buffers; a read that comes to its end too early ends it. -/
def p9Loop (reads : Nat → Option (Nat → BitVec 8)) : List Nat → Object → Option (Int × Object)
  | [], obj => some (0, obj)
  | iter :: rest, obj =>
      match reads iter with
      | none => some (-1, obj)
      | some byte => (jsonGetFrequencySensors iter obj byte).bind (p9Loop reads rest)

/-- `ibm_cpu_p9_get_node_frequency_json`: the blocks of the chips one after the other,
as far as they can be read. -/
def ibmCpuP9GetNodeFrequencyJson (opens : Bool) (nsockets : Nat)
    (reads : Nat → Option (Nat → BitVec 8)) (obj : Object) : Option (Int × Object) :=
  if opens then p9Loop reads (List.range nsockets) obj else some (-1, obj)

/-! ### GPUs -/

/-- `gpu_%d_freq_mhz`. -/
def smKey (d : Int) : List Char := "gpu_".toList ++ decimalInt d ++ "_freq_mhz".toList

/-- `gpu_%d_mem_freq_mhz`. -/
def memKey (d : Int) : List Char := "gpu_".toList ++ decimalInt d ++ "_mem_freq_mhz".toList

/-- The clocks of a device as they are stored. -/
structure Clocks where
  sm : Int
  mem : Int

/-- `gpu_obj` of a socket: two clocks for each of its devices. -/
def gpuObj (node : GpuNode) (clocks : Int → Clocks) (chipid : Nat) : Option Object := do
  let devs ← node.block chipid
  return Fields.setAll [] (devs.flatMap fun d =>
    [(snprintf 32 (smKey d), .integer (clocks d).sm),
      (snprintf 32 (memKey d), .integer (clocks d).mem)])

/-- The JSON function of a GPU platform for a socket. -/
def gpuTurn (node : GpuNode) (clocks : Int → Clocks) (obj : Object) (chipid : Nat) :
    Option Object := do
  return inObject (snprintf 16 (socketKey chipid))
    (Fields.set gpuKey (.object (← gpuObj node clocks chipid))) obj

/-- `volta_get_clocks_json` with `nvidia_gpu_get_clocks_json`, for the clocks that
`nvmlDeviceGetClock` stores. -/
def voltaGetClocksJson (node : GpuNode) (gpuClock memClock : Int → BitVec 32) (obj : Object) :
    Option (Int × Object) := do
  let clocks := fun d => ⟨(gpuClock d).toNat, (memClock d).toNat⟩
  return (0, ← (List.range node.sockets).foldlM (gpuTurn node clocks) obj)

/-- A frequency in Hz as the `uint32_t` of its MHz. -/
def megahertz (f : BitVec 64) : Int := ((f.toNat / (1000 * 1000)) % 2 ^ 32 : Nat)

/-- `amd_gpu_instinct_get_clocks_json` with `get_clocks_json`, for the current frequencies
`rsmi_dev_gpu_clk_freq_get` stores. -/
def amdGpuInstinctGetClocksJson (node : GpuNode) (sys mem : Int → BitVec 64) (obj : Object) :
    Option (Int × Object) := do
  let clocks := fun d => ⟨megahertz (sys d), megahertz (mem d)⟩
  return (0, ← (List.range node.sockets).foldlM (gpuTurn node clocks) obj)

/-! ### The API function -/

/-- A platform with `variorum_get_frequency_json`, and what it reads in a call. -/
inductive FrequencyPlatform
  | intel (e : MsrEnv) (msrs : FeatureMsrs) (st : FeatureState)
  | amdEpyc (node : BoostNode) (get : Nat → Option (BitVec 32)) (uninit : BitVec 32)
  | ibm (opens : Bool) (nsockets : Nat) (reads : Nat → Option (Nat → BitVec 8))
  | nvidia (node : GpuNode) (gpuClock memClock : Int → BitVec 32)
  | amdGpu (node : GpuNode) (sys mem : Int → BitVec 64)

/-- `intel_cpu_fm_06_4f_get_clocks_json` and its siblings: the return value is dropped. -/
def intelGetClocksJson (e : MsrEnv) (msrs : FeatureMsrs) (st : FeatureState) (obj : Object) :
    Option (Int × Object) :=
  (FrequencyJson.getClocksDataJson e msrs .core obj st).map fun (_, obj, _) => (0, obj)

/-- The function that a platform has in the table. -/
def FrequencyPlatform.getFrequencyJson : FrequencyPlatform → Call Object
  | intel e msrs st => intelGetClocksJson e msrs st
  | amdEpyc node get uninit => fun obj => some (amdCpuEpycGetJsonBoostlimit node get uninit obj)
  | ibm opens nsockets reads => ibmCpuP9GetNodeFrequencyJson opens nsockets reads
  | nvidia node gpuClock memClock => voltaGetClocksJson node gpuClock memClock
  | amdGpu node sys mem => amdGpuInstinctGetClocksJson node sys mem

/-- `variorum_get_frequency_json`: what it returns, and the node object of the text that it
stores. -/
def variorumGetFrequencyJson (enterRet exitRet timestamp : Int)
    (table : List (Option FrequencyPlatform)) : Option (Int × Option Object) :=
  if enterRet ≠ 0 then some (-1, none)
  else
    (platformLoop .reports (table.map (·.map FrequencyPlatform.getFrequencyJson))
      (PowerJson.start timestamp)).map fun (_, node) =>
        (if exitRet ≠ 0 then -1 else exitRet, some node)

/-! ### What a platform adds -/

namespace BoostNode

variable (get : Nat → Option (BitVec 32)) (uninit : BitVec 32)

/-- The limit that is stored for a core: the last one that could be had, up to it. -/
def lastLimit : Nat → BitVec 32
  | 0 => (get 0).getD uninit
  | n + 1 => (get (n + 1)).getD (lastLimit n)

/-- What the variable holds before a core. -/
def before : Nat → BitVec 32
  | 0 => uninit
  | n + 1 => lastLimit get uninit n

theorem lastLimit_eq (n : Nat) :
    lastLimit get uninit n = (get n).getD (before get uninit n) := by
  cases n <;> rfl

/-- The limits of the cores of a socket. -/
def limits (node : BoostNode) (socket : Nat) : List (List Char × Json) :=
  (List.range node.coresPerSocket).map fun core =>
    let n := socket * node.coresPerSocket + core
    (snprintf 24 (FrequencyJson.coreAvgKey n), .real (lastLimit get uninit n).toNat)

end BoostNode

/-- The frequencies that an Intel platform finds, where it has a ratio. -/
def foundClocks (e : MsrEnv) (msrs : FeatureMsrs) (st : FeatureState) :
    Option (Nat → Nat → Nat → Option ℚ) := do
  let (err, ratio, st) ← getMaxNonTurboRatio e msrs st
  if err ≠ 0 then none
  else
    let st ← FrequencyJson.readClocks e msrs st
    return fun i j k => (FrequencyJson.threadFrequency st ratio (clocksIdx e.topo i j k)).getD none

namespace FrequencyPlatform

/-- An Intel platform finds its batches as calls leave them, and has room for them. -/
def Ready : FrequencyPlatform → Prop
  | intel e msrs st => FrequencyJson.ClocksKept e.topo msrs st ∧ 3 * e.topo.nthreads < 2 ^ 32
  | _ => True

/-- Nothing is read beyond a block, and no bound of a loop overflows. -/
def Defined : FrequencyPlatform → Prop
  | ibm _ nsockets reads => ∀ i < nsockets, ∀ byte, reads i = some byte → (freqObj byte).isSome
  | nvidia node _ _ => ∀ i < node.sockets, (node.block i).isSome
  | amdGpu node _ _ => ∀ i < node.sockets, (node.block i).isSome
  | _ => True

/-- The blocks that an IBM platform reads before the first failure. -/
def blocksRead (opens : Bool) (nsockets : Nat) (reads : Nat → Option (Nat → BitVec 8)) : Nat :=
  if opens then ((List.range nsockets).takeWhile fun i => (reads i).isSome).length else 0

/-- The sockets it comes to, and the object it stores in each. -/
def contribution : FrequencyPlatform → Contribution
  | intel e msrs st =>
      ⟨16, twelve_le_sixteen, cpuKey, (foundClocks e msrs st).elim 0 fun _ => e.topo.nsockets,
        fun i => (foundClocks e msrs st).elim [] fun F => FrequencyJson.cpuFields e.topo F i⟩
  | amdEpyc node get uninit =>
      ⟨16, twelve_le_sixteen, cpuKey, node.numSockets, fun i =>
        [(FrequencyJson.coreKey, .object (Fields.setAll [] (node.limits get uninit i)))]⟩
  | ibm opens nsockets reads =>
      ⟨12, twelve_le_twelve, cpuKey, blocksRead opens nsockets reads, fun i =>
        ((reads i).bind freqObj).getD []⟩
  | nvidia node gpuClock memClock =>
      ⟨16, twelve_le_sixteen, gpuKey, node.sockets, fun i =>
        (gpuObj node (fun d => ⟨(gpuClock d).toNat, (memClock d).toNat⟩) i).getD []⟩
  | amdGpu node sys mem =>
      ⟨16, twelve_le_sixteen, gpuKey, node.sockets, fun i =>
        (gpuObj node (fun d => ⟨megahertz (sys d), megahertz (mem d)⟩) i).getD []⟩

end FrequencyPlatform

/-! #### AMD EPYC -/

section Boost

variable {node : BoostNode} {get : Nat → Option (BitVec 32)} {uninit : BitVec 32}

/-- The loop over the cores of a socket, from the first of them on. -/
theorem boostTurn_foldl (obj : Object) (n k : Nat) :
    (List.range k).foldl (boostTurn get) ⟨BoostNode.before get uninit n, n, obj⟩
      = ⟨BoostNode.before get uninit (n + k), n + k,
          Fields.setAll obj ((List.range k).map fun core =>
            (snprintf 24 (FrequencyJson.coreAvgKey (n + core)),
              .real (BoostNode.lastLimit get uninit (n + core)).toNat))⟩ := by
  induction k with
  | zero => rfl
  | succ k ih =>
      rw [List.range_succ, List.foldl_append, ih, List.map_append, Fields.setAll_append,
        List.foldl_cons, List.foldl_nil]
      have hlimit : (get (n + k)).getD (BoostNode.before get uninit (n + k))
          = BoostNode.before get uninit (n + k + 1) :=
        (BoostNode.lastLimit_eq get uninit (n + k)).symm
      show BoostLoop.mk ((get (n + k)).getD _) (n + k + 1) _ = _
      rw [hlimit]
      rfl

/-- **The loop over the sockets** adds the contribution of the platform. -/
theorem boostSockets_foldl (obj : Object) (n : Nat) :
    (List.range n).foldl (boostSocket node get) ⟨uninit, 0, obj⟩
      = ⟨BoostNode.before get uninit (n * node.coresPerSocket), n * node.coresPerSocket,
          (List.range n).foldl (fun obj i =>
            ((FrequencyPlatform.amdEpyc node get uninit).contribution).turn i obj) obj⟩ := by
  induction n with
  | zero =>
      rw [Nat.zero_mul]
      rfl
  | succ n ih =>
      rw [List.range_succ, List.foldl_append, ih, List.foldl_append, List.foldl_cons,
        List.foldl_nil, List.foldl_cons, List.foldl_nil, boostSocket, boostTurn_foldl,
        Nat.succ_mul]
      rfl

theorem amdCpuEpycGetJsonBoostlimit_eq (obj : Object) :
    amdCpuEpycGetJsonBoostlimit node get uninit obj
      = (0, (FrequencyPlatform.amdEpyc node get uninit).contribution.add obj) := by
  rw [amdCpuEpycGetJsonBoostlimit, boostSockets_foldl]
  rfl

end Boost

/-! #### Intel -/

section Intel

variable {e : MsrEnv} {msrs : FeatureMsrs} {st : FeatureState}

/-- `outputOf` is the loop of the contribution. -/
theorem outputOf_eq_add {F : Nat → Nat → Nat → Option ℚ} (hF : foundClocks e msrs st = some F)
    (obj : Object) :
    FrequencyJson.outputOf e.topo F obj e.topo.nsockets
      = (FrequencyPlatform.intel e msrs st).contribution.add obj := by
  simp only [FrequencyJson.outputOf, Contribution.add, Contribution.turn,
    FrequencyPlatform.contribution, hF, Option.elim]

/-- **The Intel wrapper** returns 0 with or without the clocks. -/
theorem intelGetClocksJson_eq (hst : FrequencyJson.ClocksKept e.topo msrs st)
    (hroom : 3 * e.topo.nthreads < 2 ^ 32) (obj : Object) :
    intelGetClocksJson e msrs st obj
      = some (0, (FrequencyPlatform.intel e msrs st).contribution.add obj) := by
  obtain ⟨err, ratio, st₁, hratio, -, hreads₁, -⟩ := RatioCall.maxNonTurbo.run_spec hst.platform
  have hrun₁ : getMaxNonTurboRatio e msrs st = some (err, ratio, st₁) := hratio
  -- without the ratio the call ends before the first reading
  by_cases herr : err = 0
  -- reading the ratio leaves the batches of the clocks as they were
  · have hclocks := hst.clocks.of_sameAt (hreads₁.sameBut.sameAt (by decide))
    have hperf := hst.perf.of_sameAt (hreads₁.sameBut.sameAt (by decide))
    obtain ⟨st₂, hrun₂, -, hcounters⟩ := FrequencyJson.readClocks_spec hclocks hperf hroom
    let F := fun i j k =>
      (FrequencyJson.threadFrequency st₂ ratio (clocksIdx e.topo i j k)).getD none
    have hF : FrequencyJson.Frequencies e.topo st₂ ratio F := by
      intro i j k hv
      obtain ⟨aperf, mperf, haperf, hmperf, -⟩ := hcounters _ hv.cpu_lt
      simp only [F, clocksIdx_eq hv, FrequencyJson.threadFrequency_eq haperf hmperf,
        Option.getD_some]
    have hfound : foundClocks e msrs st = some F := by
      rw [foundClocks, hrun₁]
      simp only [Option.bind_eq_bind, Option.bind_some, herr, hrun₂]
      rfl
    obtain ⟨freqs, hloop⟩ := FrequencyJson.socketLoop_eq hF obj
    have hrun : FrequencyJson.getClocksDataJson e msrs .core obj st
        = some (0, FrequencyJson.outputOf e.topo F obj e.topo.nsockets, st₂) := by
      rw [FrequencyJson.getClocksDataJson, hrun₁]
      simp only [Option.bind_eq_bind, Option.bind_some, herr, hrun₂, hloop]
      rfl
    rw [intelGetClocksJson, hrun, outputOf_eq_add hfound]
    rfl
  · have hfound : foundClocks e msrs st = none := by
      rw [foundClocks, hrun₁]
      simp only [Option.bind_eq_bind, Option.bind_some]
      exact if_pos herr
    have hnothing : (FrequencyPlatform.intel e msrs st).contribution.add obj = obj := by
      simp only [Contribution.add, FrequencyPlatform.contribution, hfound, Option.elim]
      rfl
    have hrun : FrequencyJson.getClocksDataJson e msrs .core obj st = some (-1, obj, st₁) := by
      rw [FrequencyJson.getClocksDataJson, hrun₁]
      simp only [Option.bind_eq_bind, Option.bind_some]
      exact if_pos herr
    rw [intelGetClocksJson, hrun, hnothing]
    rfl

end Intel

/-! #### IBM -/

section Ibm

variable {reads : Nat → Option (Nat → BitVec 8)} {nsockets : Nat}

/-- The loop, from a socket on: it adds what it reads before the first failure, which its
return value tells. -/
theorem p9Loop_eq {turn : Object → Nat → Object} {l : List Nat}
    (hturn : ∀ i ∈ l, ∀ byte, reads i = some byte → ∀ obj,
      jsonGetFrequencySensors i obj byte = some (turn obj i)) :
    ∃ ret, ∀ obj, p9Loop reads l obj
      = some (ret, (l.takeWhile fun i => (reads i).isSome).foldl turn obj) := by
  induction l with
  | nil => exact ⟨0, fun _ => rfl⟩
  | cons i l ih =>
      cases hread : reads i with
      | none =>
          refine ⟨-1, fun obj => ?_⟩
          rw [p9Loop, hread, List.takeWhile_cons_of_neg (by rw [hread]; exact Bool.false_ne_true)]
          rfl
      | some byte =>
          obtain ⟨ret, hrest⟩ := ih fun j hj => hturn j (List.mem_cons_of_mem i hj)
          refine ⟨ret, fun obj => ?_⟩
          rw [p9Loop, hread, List.takeWhile_cons_of_pos (by rw [hread]; rfl), List.foldl_cons]
          simp only [hturn i List.mem_cons_self byte hread, Option.bind_some]
          exact hrest _

/-- The first numbers with a property that has no gap before its end. -/
theorem takeWhile_range (p : Nat → Bool) (n : Nat) :
    (List.range n).takeWhile p = List.range ((List.range n).takeWhile p).length := by
  have hcut : (List.range n).takeWhile p <+: List.range n := List.takeWhile_prefix p
  rw [List.prefix_iff_eq_take] at hcut
  conv_lhs => rw [hcut]
  rw [List.take_range]
  congr 1
  exact min_eq_left ((List.takeWhile_prefix p).length_le.trans_eq List.length_range)

/-- **The IBM function** adds its contribution and returns 0 or -1. -/
theorem ibmCpuP9GetNodeFrequencyJson_adds (opens : Bool)
    (h : (FrequencyPlatform.ibm opens nsockets reads).Defined) :
    ∃ ret, Adds ret (ibmCpuP9GetNodeFrequencyJson opens nsockets reads)
      (FrequencyPlatform.ibm opens nsockets reads).contribution := by
  cases opens with
  | false => exact ⟨-1, fun _ _ => rfl⟩
  | true =>
      let turn : Object → Nat → Object := fun obj i =>
        (FrequencyPlatform.ibm true nsockets reads).contribution.turn i obj
      have hturn : ∀ i ∈ List.range nsockets, ∀ byte, reads i = some byte → ∀ obj,
          jsonGetFrequencySensors i obj byte = some (turn obj i) := by
        intro i hi byte hread obj
        obtain ⟨l, hl⟩ := Option.isSome_iff_exists.mp (h i (List.mem_range.mp hi) byte hread)
        show (freqObj byte).bind _ = some (inObject _ (Fields.set _ (.object
          (((reads i).bind freqObj).getD []))) obj)
        rw [hread, Option.bind_some, hl]
        rfl
      obtain ⟨ret, hloop⟩ := p9Loop_eq hturn
      refine ⟨ret, fun obj _ => ?_⟩
      have hobj := hloop obj
      rw [takeWhile_range] at hobj
      exact hobj

end Ibm

/-! #### GPUs -/

section Gpus

variable {node : GpuNode} {clocks : Int → Clocks}

/-- Where every socket has its block of devices, the loop adds an object for each. -/
theorem gpuLoop_eq {c : Contribution}
    (hc : c = ⟨16, twelve_le_sixteen, gpuKey, node.sockets, fun i =>
      (gpuObj node clocks i).getD []⟩) (hblocks : ∀ i < node.sockets, (node.block i).isSome)
    {obj : Object} (hobj : Sectioned obj) :
    (List.range node.sockets).foldlM (gpuTurn node clocks) obj = some (c.add obj) := by
  have hsockets : c.sockets = node.sockets := by rw [hc]
  rw [← hsockets]
  refine Contribution.foldlM_eq_add hobj fun i hi obj _ => ?_
  subst hc
  obtain ⟨devs, hdevs⟩ := Option.isSome_iff_exists.mp (hblocks i hi)
  show gpuTurn node clocks obj i = some (inObject (snprintf 16 (socketKey i))
    (Fields.set gpuKey (.object ((gpuObj node clocks i).getD []))) obj)
  rw [gpuTurn, gpuObj, hdevs]
  rfl

end Gpus

/-! ### The API function -/

/-- **Every platform** adds its contribution, whatever it returns. -/
theorem FrequencyPlatform.adds {p : FrequencyPlatform} (hready : p.Ready) (h : p.Defined) :
    ∃ ret, Adds ret p.getFrequencyJson p.contribution := by
  cases p with
  | intel e msrs st => exact ⟨0, fun node _ => intelGetClocksJson_eq hready.1 hready.2 node⟩
  | amdEpyc boost get uninit =>
      exact ⟨0, fun node _ => congrArg some (amdCpuEpycGetJsonBoostlimit_eq node)⟩
  | ibm opens nsockets reads => exact ibmCpuP9GetNodeFrequencyJson_adds opens h
  | nvidia gpus gpuClock memClock =>
      refine ⟨0, fun node hnode => ?_⟩
      have hloop := gpuLoop_eq (c := (nvidia gpus gpuClock memClock).contribution) rfl h hnode
      show voltaGetClocksJson gpus gpuClock memClock node = _
      rw [voltaGetClocksJson, hloop]
      rfl
  | amdGpu gpus sys mem =>
      refine ⟨0, fun node hnode => ?_⟩
      have hloop := gpuLoop_eq (c := (amdGpu gpus sys mem).contribution) rfl h hnode
      show amdGpuInstinctGetClocksJson gpus sys mem node = _
      rw [amdGpuInstinctGetClocksJson, hloop]
      rfl

section Api

variable {table table' : List (Option FrequencyPlatform)}

/-- The contributions of the platforms of a table. -/
abbrev clocksOf (table : List (Option FrequencyPlatform)) : List Contribution :=
  contributions FrequencyPlatform.contribution table

/-- The platforms of the table are as calls leave them, their reads stay within the blocks,
and they come to ten thousand sockets at most. -/
structure OnNode (table : List (Option FrequencyPlatform)) : Prop where
  ready : ∀ p, some p ∈ table → p.Ready
  defined : ∀ p, some p ∈ table → p.Defined
  fit : Fit (clocksOf table)

theorem OnNode.perm (hnode : OnNode table) (hperm : table.Perm table') : OnNode table' :=
  ⟨fun p hp => hnode.ready p (hperm.mem_iff.mpr hp),
    fun p hp => hnode.defined p (hperm.mem_iff.mpr hp),
    fun c hc => hnode.fit c ((contributions_perm hperm).mem_iff.mpr hc)⟩

/-- The text has the contributions of all platforms. -/
theorem variorumGetFrequencyJson_eq (hnode : OnNode table) (exitRet timestamp : Int) :
    variorumGetFrequencyJson 0 exitRet timestamp table
      = some (if exitRet ≠ 0 then -1 else exitRet,
          some (report (clocksOf table) (PowerJson.start timestamp))) := by
  have hloop := @platformLoop_adds FrequencyPlatform FrequencyPlatform.getFrequencyJson
    FrequencyPlatform.contribution table .reports (PowerJson.start timestamp)
    (fun p hp => by
      obtain ⟨ret, hadds⟩ := p.adds (hnode.ready p hp) (hnode.defined p hp)
      exact ⟨ret, hadds, .inr rfl⟩)
    (sectioned_start timestamp) (.inr rfl)
  rw [variorumGetFrequencyJson, if_neg (not_not.mpr rfl), hloop]
  rfl

/-- **A failure of a platform is not seen.**  Behind a `variorum_enter` that returns 0 a text
is always stored, and what the call returns is up to `variorum_exit` alone.  The text
has what each platform came to exactly if those that share a label agree, and then the
order of the platforms does not matter. -/
theorem frequencyJson_merges (table : List (Option FrequencyPlatform)) (hnode : OnNode table)
    (exitRet timestamp : Int) :
    ∃ node, variorumGetFrequencyJson 0 exitRet timestamp table
        = some (if exitRet ≠ 0 then -1 else 0, some node) ∧
      (KeepsAll (clocksOf table) node ↔ Agree (clocksOf table)) ∧
      Fields.get "timestamp".toList node = some (.integer timestamp) ∧
      (Agree (clocksOf table) → ∀ table', table.Perm table' → ∃ node',
        variorumGetFrequencyJson 0 exitRet timestamp table'
            = some (if exitRet ≠ 0 then -1 else 0, some node') ∧
          ∀ k l, part node' k l = part node k l) := by
  have hret : (if exitRet ≠ 0 then (-1 : Int) else exitRet) = if exitRet ≠ 0 then -1 else 0 := by
    by_cases h : exitRet = 0 <;> simp [h]
  have hstart := sectioned_start timestamp
  refine ⟨_, (variorumGetFrequencyJson_eq hnode exitRet timestamp).trans (by rw [hret]),
    report_keepsAll_iff hnode.fit hstart, ?_, fun hagree table' hperm => ?_⟩
  · rw [get_report (by decide)]
    rfl
  · exact ⟨_,
      (variorumGetFrequencyJson_eq (hnode.perm hperm) exitRet timestamp).trans (by rw [hret]),
      report_perm hnode.fit hstart hagree (contributions_perm hperm)⟩

/-- A node of two sockets whose second block of OCC sensors cannot be read, and four GPUs. -/
def halfReadTable : List (Option FrequencyPlatform) :=
  [some (.ibm true 2 fun i => if i = 0 then some fun _ => 0 else none),
    some (.nvidia ⟨4, 2, Nat.two_pos, GpuNode.two_lt⟩ (fun _ => 1380) fun _ => 877)]

/-- The call returns 0, and the text has one CPU. -/
theorem halfReadTable_merges :
    OnNode halfReadTable ∧ ∃ node,
      variorumGetFrequencyJson 0 0 7 halfReadTable = some (0, some node) ∧
        KeepsAll (clocksOf halfReadTable) node ∧
        (clocksOf halfReadTable).map Contribution.sockets = [1, 2] := by
  have hnode : OnNode halfReadTable := by
    refine ⟨fun p hp => ?_, fun p hp => ?_, fun c hc => ?_⟩
    · simp only [halfReadTable, List.mem_cons, List.not_mem_nil, or_false, Option.some.injEq] at hp
      rcases hp with rfl | rfl <;> exact trivial
    · simp only [halfReadTable, List.mem_cons, List.not_mem_nil, or_false, Option.some.injEq] at hp
      rcases hp with rfl | rfl
      · intro i hi byte hread
        have hfirst : i = 0 := by
          by_contra h
          simp [h] at hread
        subst hfirst
        obtain rfl := Option.some.inj hread
        rfl
      · show ∀ i < 2, (GpuNode.block ⟨4, 2, Nat.two_pos, GpuNode.two_lt⟩ i).isSome
        decide
    · obtain ⟨p, hp, rfl⟩ := mem_contributions.mp hc
      simp only [halfReadTable, List.mem_cons, List.not_mem_nil, or_false, Option.some.injEq] at hp
      rcases hp with rfl | rfl
      · show 1 ≤ 10000
        decide
      · show 2 ≤ 10000
        decide
  obtain ⟨node, hret, hkeeps, -⟩ := frequencyJson_merges halfReadTable hnode 0 7
  exact ⟨hnode, node, hret, hkeeps.mpr (Agree.of_nodup (by decide)), rfl⟩

end Api

/-! ### The boost limits -/

section Limits

variable {node : BoostNode} {limit : Nat → BitVec 32} {fails : Nat → Bool} {uninit : BitVec 32}

/-- The limits of the cores, where they can be had. -/
def hadLimits (limit : Nat → BitVec 32) (fails : Nat → Bool) (n : Nat) : Option (BitVec 32) :=
  if fails n then none else some (limit n)

/-- The value in the JSON for a core of a socket. -/
theorem coreValue_boost (hsockets : node.numSockets ≤ 10000) (hcores : node.totalCores ≤ 10 ^ 5)
    (get : Nat → Option (BitVec 32)) {obj : Object} (hobj : Sectioned obj) {i j : Nat}
    (hi : i < node.numSockets) (hj : j < node.coresPerSocket) :
    FrequencyJson.coreValue (amdCpuEpycGetJsonBoostlimit node get uninit obj).2 i
        (i * node.coresPerSocket + j)
      = some (.real (BoostNode.lastLimit get uninit (i * node.coresPerSocket + j)).toNat) := by
  -- the cores are numbered over all sockets, and five digits are what the key has room for
  have hbound : ∀ core < node.coresPerSocket,
      i * node.coresPerSocket + core < 10 ^ 5 := by
    intro core hcore
    calc i * node.coresPerSocket + core
        < i * node.coresPerSocket + node.coresPerSocket := Nat.add_lt_add_left hcore _
      _ = (i + 1) * node.coresPerSocket := (Nat.succ_mul i _).symm
      _ ≤ node.numSockets * node.coresPerSocket := Nat.mul_le_mul_right _ hi
      _ ≤ node.totalCores := Nat.mul_div_le _ _
      _ ≤ 10 ^ 5 := hcores
  have hpart := part_add hobj (c := (FrequencyPlatform.amdEpyc node get uninit).contribution)
    hsockets hi
  have hcpu : FrequencyJson.cpuObject
        (amdCpuEpycGetJsonBoostlimit node get uninit obj).2 i
      = some (.object [(FrequencyJson.coreKey,
          .object (Fields.setAll [] (node.limits get uninit i)))]) := by
    rw [amdCpuEpycGetJsonBoostlimit_eq]
    exact hpart
  rw [FrequencyJson.coreValue, hcpu]
  show Fields.get _ (Fields.setAll [] (node.limits get uninit i)) = _
  apply Fields.get_setAll
  · rw [BoostNode.limits, List.map_map]
    refine List.mem_map.mpr ⟨j, List.mem_range.mpr hj, ?_⟩
    exact FrequencyJson.snprintf_coreAvgKey (hbound j hj)
  -- another core with this key would have this number
  · intro kv hkv hkey
    obtain ⟨core, hcore, rfl⟩ := List.mem_map.mp hkv
    have hkey : snprintf 24 (FrequencyJson.coreAvgKey (i * node.coresPerSocket + core))
        = FrequencyJson.coreAvgKey (i * node.coresPerSocket + j) := hkey
    rw [FrequencyJson.snprintf_coreAvgKey (hbound core (List.mem_range.mp hcore))] at hkey
    rw [FrequencyJson.coreAvgKey_injective hkey]

/-- **The boost limits in the JSON** of an EPYC node are those of the cores exactly where each
core whose limit cannot be had has the limit that was had last before it. -/
theorem boostLimits_iff (hsockets : node.numSockets ≤ 10000) (hcores : node.totalCores ≤ 10 ^ 5)
    {obj : Object} (hobj : Sectioned obj) :
    (∀ i < node.numSockets, ∀ j < node.coresPerSocket,
      FrequencyJson.coreValue
          (amdCpuEpycGetJsonBoostlimit node (hadLimits limit fails) uninit obj).2 i
          (i * node.coresPerSocket + j)
        = some (.real (limit (i * node.coresPerSocket + j)).toNat)) ↔
      ∀ n < node.numSockets * node.coresPerSocket, fails n = true →
        BoostNode.before (hadLimits limit fails) uninit n = limit n := by
  have hlast : ∀ n, BoostNode.lastLimit (hadLimits limit fails) uninit n = limit n ↔
      (fails n = true → BoostNode.before (hadLimits limit fails) uninit n = limit n) := by
    intro n
    rw [BoostNode.lastLimit_eq, hadLimits]
    cases fails n <;> simp
  have hvalue : ∀ i < node.numSockets, ∀ j < node.coresPerSocket,
      (FrequencyJson.coreValue
          (amdCpuEpycGetJsonBoostlimit node (hadLimits limit fails) uninit obj).2 i
          (i * node.coresPerSocket + j)
        = some (.real (limit (i * node.coresPerSocket + j)).toNat) ↔
      BoostNode.lastLimit (hadLimits limit fails) uninit (i * node.coresPerSocket + j)
        = limit (i * node.coresPerSocket + j)) := by
    intro i hi j hj
    rw [coreValue_boost hsockets hcores _ hobj hi hj, Option.some.injEq, Json.real.injEq,
      Nat.cast_inj, BitVec.toNat_inj]
  constructor
  · intro h n hn
    -- core `n` is core `n % c` of socket `n / c`
    have hpos : 0 < node.coresPerSocket := by
      rcases Nat.eq_zero_or_pos node.coresPerSocket with hzero | hpos
      · rw [hzero, Nat.mul_zero] at hn
        exact absurd hn (Nat.not_lt_zero n)
      · exact hpos
    have hi : n / node.coresPerSocket < node.numSockets :=
      (Nat.div_lt_iff_lt_mul hpos).mpr hn
    have hj := Nat.mod_lt n hpos
    have hsplit : n / node.coresPerSocket * node.coresPerSocket + n % node.coresPerSocket = n :=
      Nat.div_add_mod' n _
    have hcore := (hvalue _ hi _ hj).mp (h _ hi _ hj)
    rw [hsplit] at hcore
    exact (hlast n).mp hcore
  · intro h i hi j hj
    rw [hvalue i hi j hj, hlast]
    apply h
    calc i * node.coresPerSocket + j
        < i * node.coresPerSocket + node.coresPerSocket := Nat.add_lt_add_left hj _
      _ = (i + 1) * node.coresPerSocket := (Nat.succ_mul i _).symm
      _ ≤ node.numSockets * node.coresPerSocket := Nat.mul_le_mul_right _ hi

/-- Two sockets with a core each. -/
def twoCores : BoostNode := ⟨2, 2, Nat.two_pos, GpuNode.two_lt⟩

/-- Where the second core cannot be read and has a limit of its own, the JSON is wrong. -/
theorem twoCores_stale :
    let limit (n : Nat) : BitVec 32 := if n = 0 then 3000 else 3400
    let fails (n : Nat) : Bool := n == 1
    (twoCores.numSockets ≤ 10000 ∧ twoCores.totalCores ≤ 10 ^ 5) ∧
      ¬ ∀ i < twoCores.numSockets, ∀ j < twoCores.coresPerSocket,
        FrequencyJson.coreValue (amdCpuEpycGetJsonBoostlimit twoCores (hadLimits limit fails) 0
            (PowerJson.start 7)).2 i (i * twoCores.coresPerSocket + j)
          = some (.real (limit (i * twoCores.coresPerSocket + j)).toNat) :=
  ⟨by decide, fun h =>
    absurd ((boostLimits_iff (by decide) (by decide) (sectioned_start 7)).mp h 1 (by decide) rfl)
      (by decide)⟩

end Limits

end FrequencyReport

end Variorum
