/-
Variorum/ThermalJson.lean

The temperatures of a node: `variorum_get_thermals_json`.

An Intel platform stores the temperature of each package and of each core in
degrees Celsius, the distance of the readings from the activation temperature
taken off it; an IBM platform stores what its OCC sensors say, and the GPU
platforms one value for each device.  Each of them is a contribution to the node
object (`ThermalPlatform.call_eq`), so what the API function hands out has
everything that the platforms stored, in whatever order they come
(`thermalsJson_merges`): only two vendors of GPUs would be in each other's way.

`coreTemperatures_agree` compares the temperatures of an Intel platform with the
lines of `print_therm_temp_reading`.  A `float` is a rational number here.
-/
import Variorum.FrequencyJson
import Variorum.NodeReport
import Variorum.OccThermal

namespace Variorum

open CString NodeReport
open Json (Object)
open PowerJson (socketKey)
open UtilJson (cpuKey gpuKey inObject)

namespace ThermalJson

/-! ### Intel -/

/-- `temp_celsius_core_%d`. -/
def coreTempKey (j : Nat) : List Char := "temp_celsius_core_".toList ++ decimal j

def pkgActual : List Char := "PKG_Actual".toList
def coreLabel : List Char := "Core".toList

/-- The raw values of the three storage functions. -/
structure Readings where
  pkgStat : List (BitVec 64)
  tTarget : List (BitVec 64)
  tStat : List (BitVec 64)

/-- `get_pkg_therm_stat`, `get_temp_target` and `get_therm_stat`, in this order. -/
def readThermals (e : MsrEnv) (msrs : FeatureMsrs) (st : FeatureState) :
    Option (Readings × FeatureState) := do
  let (pkgStat, st) ← getPkgThermStat e msrs st
  let (tTarget, st) ← getTempTarget e msrs st
  let (tStat, st) ← getThermStat e msrs st
  return (⟨pkgStat, tTarget, tStat⟩, st)

/-- `(int)t_target[i].temp_target - readout`. -/
def actual (tTarget stat : BitVec 64) : Int :=
  (maskVal tTarget 23 16).toNat - (maskVal stat 22 16).toNat

/-- `core_temp`, behind the loop over the threads. -/
def coreTemp (t : Topology) (r : Readings) (i j : Nat) : Option ℚ := do
  let temp ← (List.range (t.nthreads / t.ncores)).foldlM (fun (temp : ℚ) k => do
    let tTarget ← r.tTarget[i]?
    let tStat ← r.tStat[thermalIdx t i j k]?
    return temp + (actual tTarget tStat : Int)) 0
  return temp / (t.nthreads / t.ncores : Nat)

/-- `cpu_obj` of a socket: the temperature of the package, and those of its cores. -/
def cpuObj (t : Topology) (r : Readings) (i : Nat) : Option Object := do
  let pkgTemp := actual (← r.tTarget[i]?) (← r.pkgStat[i]?)
  let cores ← (List.range (t.ncores / t.nsockets)).mapM fun j => do
    return (snprintf 32 (coreTempKey j), Json.real (← coreTemp t r i j))
  return Fields.set coreLabel (.object (Fields.setAll [] cores))
    (Fields.set pkgActual (.integer pkgTemp) [])

/-- `get_therm_temp_reading_json`: the readings, and an object for every socket. -/
def getThermTempReadingJson (e : MsrEnv) (msrs : FeatureMsrs) (obj : Object)
    (st : FeatureState) : Option (Int × Object × FeatureState) := do
  let (r, st) ← readThermals e msrs st
  let obj ← (List.range e.topo.nsockets).foldlM (fun obj i => do
    return inObject (snprintf 12 (socketKey i))
      (Fields.set cpuKey (.object (← cpuObj e.topo r i))) obj) obj
  return (0, obj, st)

/-! ### The other platforms -/

/-- `temp_celsius_gpu_%d`. -/
def gpuTempKey (d : Int) : List Char := "temp_celsius_gpu_".toList ++ decimalInt d

/-- `gpu_obj` of a socket, with a value for each device. -/
def gpuObj (node : GpuNode) (value : Int → Json) (chipid : Nat) : Option Object := do
  let devs ← node.block chipid
  return Fields.setAll [] (devs.map fun d => (snprintf 32 (gpuTempKey d), value d))

/-- The JSON function of a GPU platform for a socket. -/
def gpuTurn (node : GpuNode) (value : Int → Json) (obj : Object) (chipid : Nat) :
    Option Object := do
  return inObject (snprintf 12 (socketKey chipid))
    (Fields.set gpuKey (.object (← gpuObj node value chipid))) obj

/-- `volta_get_thermals_json` with `nvidia_gpu_get_thermal_json`, for the temperatures
`nvmlDeviceGetTemperature` stores. -/
def voltaGetThermalsJson (node : GpuNode) (gpuTemp : Int → BitVec 32) (obj : Object) :
    Option (Int × Object) := do
  let value := fun d => Json.integer (gpuTemp d).toNat
  return (0, ← (List.range node.sockets).foldlM (gpuTurn node value) obj)

/-- `amd_gpu_instinct_get_thermals_json` with `get_thermals_json`, for the values
`rsmi_dev_temp_metric_get` stores: the quotient is one of integers. -/
def amdGpuInstinctGetThermalsJson (node : GpuNode) (tempVal : Int → BitVec 64) (obj : Object) :
    Option (Int × Object) := do
  let value := fun d => Json.real (((tempVal d).toInt.tdiv 1000 : Int) : ℚ)
  return (0, ← (List.range node.sockets).foldlM (gpuTurn node value) obj)

/-- The loop of `ibm_cpu_p9_get_node_thermal_json` over the sockets, for what the reads
put in the buffers; a read that comes to its end too early ends the loop. -/
def p9Loop (reads : Nat → Option (Nat → BitVec 8)) : List Nat → Object → Option (Int × Object)
  | [], obj => some (0, obj)
  | iter :: rest, obj =>
      match reads iter with
      | none => some (-1, obj)
      | some byte => (Occ.jsonGetThermalSensors iter obj (Occ.block byte)).bind (p9Loop reads rest)

/-- `ibm_cpu_p9_get_node_thermal_json`: the blocks of the chips one after the other. -/
def ibmCpuP9GetNodeThermalJson (opens : Bool) (nsockets : Nat)
    (reads : Nat → Option (Nat → BitVec 8)) (obj : Object) : Option (Int × Object) :=
  if opens then p9Loop reads (List.range nsockets) obj else some (-1, obj)

/-! ### The API function -/

/-- A platform with `variorum_get_thermals_json`, and what it reads in a call. -/
inductive ThermalPlatform
  | intel (e : MsrEnv) (msrs : FeatureMsrs) (st : FeatureState)
  | ibm (opens : Bool) (nsockets : Nat) (reads : Nat → Option (Nat → BitVec 8))
  | nvidia (node : GpuNode) (gpuTemp : Int → BitVec 32)
  | amdGpu (node : GpuNode) (tempVal : Int → BitVec 64)

namespace ThermalPlatform

/-- The function that a platform has in the table. -/
def getThermalsJson : ThermalPlatform → Call Object
  | intel e msrs st => fun obj =>
      (getThermTempReadingJson e msrs obj st).map fun (ret, obj, _) => (ret, obj)
  | ibm opens nsockets reads => ibmCpuP9GetNodeThermalJson opens nsockets reads
  | nvidia node gpuTemp => voltaGetThermalsJson node gpuTemp
  | amdGpu node tempVal => amdGpuInstinctGetThermalsJson node tempVal

end ThermalPlatform

/-- `variorum_get_thermals_json`: what it returns, and the node object of the text that
it stores. -/
def variorumGetThermalsJson (enterRet exitRet timestamp : Int)
    (table : List (Option ThermalPlatform)) : Option (Int × Option Object) :=
  if enterRet ≠ 0 then some (-1, none)
  else
    match platformLoop .skips (table.map (·.map ThermalPlatform.getThermalsJson))
        (PowerJson.start timestamp) with
    | none => none
    | some (.returned ret, _) => some (ret, none)
    | some (.finished, node) => some (if exitRet ≠ 0 then -1 else exitRet, some node)

/-! ### What a platform adds -/

namespace ThermalPlatform

/-- The batches of an Intel platform are as calls leave them. -/
def Ready : ThermalPlatform → Prop
  | intel e msrs st => st.Ready e.topo msrs
  | _ => True

/-- The two temperature objects of a block of OCC sensors, where they can be read. -/
def occTemps (byte : Nat → BitVec 8) : Option Occ.Temps :=
  Occ.sensorLoop (Occ.block byte) (Occ.thermalTurn (Occ.block byte)) fun _ => []

/-- The platform has its readings: an IBM platform can read its sensor file, and the bounds
of the loops over GPUs do not overflow. -/
def Delivers : ThermalPlatform → Prop
  | intel _ _ _ => True
  | ibm opens nsockets reads => opens = true ∧ ∀ i < nsockets, ((reads i).bind occTemps).isSome
  | nvidia node _ => ∀ i < node.sockets, (node.block i).isSome
  | amdGpu node _ => ∀ i < node.sockets, (node.block i).isSome

/-- The object it stores in each socket. -/
def contribution : ThermalPlatform → Contribution
  | intel e msrs st =>
      ⟨12, twelve_le_twelve, cpuKey, e.topo.nsockets, fun i =>
        ((readThermals e msrs st).bind fun found => cpuObj e.topo found.1 i).getD []⟩
  | ibm _ nsockets reads =>
      ⟨12, twelve_le_twelve, cpuKey, nsockets, fun i =>
        (((reads i).bind occTemps).map fun temps =>
          [(Occ.Kind.core.label, .object (temps .core)),
            (Occ.Kind.dimm.label, .object (temps .dimm))]).getD []⟩
  | nvidia node gpuTemp =>
      ⟨12, twelve_le_twelve, gpuKey, node.sockets, fun i =>
        (gpuObj node (fun d => .integer (gpuTemp d).toNat) i).getD []⟩
  | amdGpu node tempVal =>
      ⟨12, twelve_le_twelve, gpuKey, node.sockets, fun i =>
        (gpuObj node (fun d => .real (((tempVal d).toInt.tdiv 1000 : Int) : ℚ)) i).getD []⟩

end ThermalPlatform

/-! #### GPUs -/

section Gpus

variable {node : GpuNode} {value : Int → Json} {obj : Object}

theorem gpuObj_isSome {i : Nat} : (gpuObj node value i).isSome ↔ (node.block i).isSome := by
  unfold gpuObj
  cases node.block i with
  | none => exact Iff.rfl
  | some devs => exact Iff.rfl

/-- The loop comes to its end exactly when every socket has its block of devices. -/
theorem gpuLoop_isSome_iff :
    ((List.range node.sockets).foldlM (gpuTurn node value) obj).isSome
      ↔ ∀ i < node.sockets, (node.block i).isSome := by
  have hturn : ∀ obj, ∀ i ∈ List.range node.sockets,
      (gpuTurn node value obj i).isSome ↔ (node.block i).isSome := by
    intro obj i _
    rw [← @gpuObj_isSome node value]
    unfold gpuTurn
    cases gpuObj node value i with
    | none => exact Iff.rfl
    | some devs => exact Iff.rfl
  rw [Loop.foldlM_isSome_iff hturn]
  simp only [List.mem_range]

/-- It adds an object for each socket. -/
theorem gpuLoop_eq {c : Contribution}
    (hc : c = ⟨12, twelve_le_twelve, gpuKey, node.sockets, fun i =>
      (gpuObj node value i).getD []⟩) (hdelivers : ∀ i < node.sockets, (node.block i).isSome)
    (hobj : Sectioned obj) :
    (List.range node.sockets).foldlM (gpuTurn node value) obj = some (c.add obj) := by
  have hsockets : c.sockets = node.sockets := by rw [hc]
  rw [← hsockets]
  refine Contribution.foldlM_eq_add hobj fun i hi obj _ => ?_
  subst hc
  obtain ⟨l, hl⟩ := Option.isSome_iff_exists.mp
    ((@gpuObj_isSome node value i).mpr (hdelivers i hi))
  show gpuTurn node value obj i = some (inObject (snprintf 12 (socketKey i))
    (Fields.set gpuKey (.object ((gpuObj node value i).getD []))) obj)
  rw [gpuTurn, hl]
  rfl

end Gpus

/-! #### IBM -/

section Ibm

open ThermalPlatform (occTemps)

variable {reads : Nat → Option (Nat → BitVec 8)} {obj obj' : Object}

/-- `json_get_thermal_sensors` on a node object with sections. -/
theorem jsonGetThermalSensors_eq (byte : Nat → BitVec 8) (i : Nat) (hobj : Sectioned obj) :
    Occ.jsonGetThermalSensors i obj (Occ.block byte)
      = (occTemps byte).map fun temps => inObject (snprintf 12 (socketKey i))
          (Fields.set cpuKey (.object [(Occ.Kind.core.label, .object (temps .core)),
            (Occ.Kind.dimm.label, .object (temps .dimm))])) obj := by
  have hsocket : Occ.socketObj (snprintf 12 (socketKey i)) obj
      = some ((Fields.get (snprintf 12 (socketKey i)) obj).elim [] Json.fields) := by
    unfold Occ.socketObj
    cases hget : Fields.get (snprintf 12 (socketKey i)) obj with
    | none => rfl
    | some j =>
        obtain ⟨fields, rfl⟩ := hobj _ j (PowerJson.head_snprintf_socketKey 10 i) hget
        rfl
  simp only [Occ.jsonGetThermalSensors, occTemps, hsocket, Option.bind_eq_bind, Option.bind_some]
  cases htemps : Occ.sensorLoop (Occ.block byte) (Occ.thermalTurn (Occ.block byte)) fun _ => [] with
  | none => rfl
  | some temps =>
      simp only [Option.bind_some, Option.map_some]
      rw [UtilJson.inObject_eq_set]
      cases hget : Fields.get (snprintf 12 (socketKey i)) obj with
      | none => rfl
      | some j =>
          obtain ⟨fields, rfl⟩ := hobj _ j (PowerJson.head_snprintf_socketKey 10 i) hget
          rfl

/-- A loop that returns 0 has read every block. -/
theorem p9Loop_reads {l : List Nat} (h : p9Loop reads l obj = some (0, obj')) :
    ∀ i ∈ l, ((reads i).bind occTemps).isSome := by
  induction l generalizing obj with
  | nil => exact fun i hi => absurd hi List.not_mem_nil
  | cons iter rest ih =>
      rw [p9Loop] at h
      cases hread : reads iter with
      | none =>
          rw [hread] at h
          cases h
      | some byte =>
          simp only [hread] at h
          obtain ⟨obj₁, hobj₁, hrest⟩ := Option.bind_eq_some_iff.mp h
          have htemps : (occTemps byte).isSome := by
            unfold Occ.jsonGetThermalSensors at hobj₁
            obtain ⟨socketObj, -, hobj₁⟩ := Option.bind_eq_some_iff.mp hobj₁
            obtain ⟨temps, htemps, -⟩ := Option.bind_eq_some_iff.mp hobj₁
            exact Option.isSome_iff_exists.mpr ⟨temps, htemps⟩
          intro i hi
          rcases List.mem_cons.mp hi with rfl | hi
          · rw [hread, Option.bind_some]
            exact htemps
          · exact ih hrest i hi

/-- Where every block can be read, the loop is one whose turns do not fail. -/
theorem p9Loop_eq {l : List Nat} {turn : Object → Nat → Option Object} (hobj : Sectioned obj)
    (hturn : ∀ i ∈ l, ∀ obj, Sectioned obj → (∃ byte, reads i = some byte ∧
      Occ.jsonGetThermalSensors i obj (Occ.block byte) = turn obj i) ∧
        ∀ obj', turn obj i = some obj' → Sectioned obj') :
    p9Loop reads l obj = (l.foldlM turn obj).map fun obj => (0, obj) := by
  induction l generalizing obj with
  | nil => rfl
  | cons iter rest ih =>
      obtain ⟨⟨byte, hread, hjson⟩, hsect⟩ := hturn iter List.mem_cons_self obj hobj
      rw [p9Loop, hread, List.foldlM_cons]
      simp only [hjson]
      cases hobj₁ : turn obj iter with
      | none => rfl
      | some obj₁ => exact ih (hsect obj₁ hobj₁) fun i hi => hturn i (List.mem_cons_of_mem iter hi)

end Ibm

/-! #### Intel -/

section Intel

variable {e : MsrEnv} {t : Topology} {msrs : FeatureMsrs} {st : FeatureState} {r : Readings}
variable {i j k : Nat} {obj : Object}

/-- The arrays of the readings have an entry for each socket or thread. -/
structure Readings.Complete (t : Topology) (r : Readings) : Prop where
  pkgStat : r.pkgStat.length = t.nsockets
  tTarget : r.tTarget.length = t.nsockets
  tStat : r.tStat.length = t.nthreads

/-- The entries are the registers of the CPUs. -/
structure Readings.Of (t : Topology) (msrs : FeatureMsrs) (contents : Nat → Nat → BitVec 64)
    (r : Readings) : Prop where
  pkgStat : ∀ i < t.nsockets,
    r.pkgStat.getD i 0 = contents (t.cpu i 0 0) msrs.pkgThermStat.toNat
  tTarget : ∀ i < t.nsockets,
    r.tTarget.getD i 0 = contents (t.cpu i 0 0) msrs.tempTarget.toNat
  tStat : ∀ c < t.nthreads, r.tStat.getD c 0 = contents c msrs.thermStat.toNat

/-- The three storage functions, from any state between calls. -/
theorem readThermals_spec (hst : st.Ready e.topo msrs) :
    ∃ r st', readThermals e msrs st = some (r, st') ∧ Advances e.topo msrs st st' ∧
      r.Complete e.topo ∧ (st.msr.machine.Clean e.driver st'.msr.machine →
        r.Of e.topo msrs (narrowed st.msr.machine.msr)) := by
  obtain ⟨pkg, st₁, hpkg, hadv₁, hpkglen, hpkgval⟩ :=
    getRaw_spec PKG_THERM_STAT (.socket msrs.pkgThermStat) hst (by decide) rfl
  obtain ⟨target, st₂, htarget, hadv₂, htargetlen, htargetval⟩ :=
    getRaw_spec TEMP_TARGET (.socket msrs.tempTarget) hadv₁.ready (by decide) rfl
  obtain ⟨stat, st₃, hstat, hadv₃, hstatlen, hstatval⟩ :=
    getRaw_spec THERM_STAT (.thread msrs.thermStat) hadv₂.ready (by decide) rfl
  have hpkg : getPkgThermStat e msrs st = some (pkg, st₁) := hpkg
  have htarget : getTempTarget e msrs st₁ = some (target, st₂) := htarget
  have hstat : getThermStat e msrs st₂ = some (stat, st₃) := hstat
  refine ⟨⟨pkg, target, stat⟩, st₃, ?_, (hadv₁.trans hadv₂).trans hadv₃,
    ⟨hpkglen, htargetlen, hstatlen⟩, fun hclean => ?_⟩
  · simp [readThermals, hpkg, htarget, hstat]
  -- none of the three reads was refused, so each holds what the registers held
  · obtain ⟨hclean₁₂, hclean₃⟩ := (hadv₁.trans hadv₂).clean hadv₃ hclean
    obtain ⟨hclean₁, hclean₂⟩ := hadv₁.clean hadv₂ hclean₁₂
    refine ⟨fun i hi => ?_, fun i hi => ?_, fun c hc => ?_⟩
    · rw [List.getD_eq_getElem?_getD, hpkgval hclean₁ i hi, Topology.cpu_socket]
      rfl
    · have hval := htargetval hclean₂ i hi
      rw [hadv₁.contents] at hval
      rw [List.getD_eq_getElem?_getD, hval, Topology.cpu_socket]
      rfl
    · have hval := hstatval hclean₃ c hc
      rw [(hadv₁.trans hadv₂).contents] at hval
      rw [List.getD_eq_getElem?_getD, hval]
      rfl

/-- The temperature of a thread, as the loop adds it. -/
def threadTemp (t : Topology) (r : Readings) (i j k : Nat) : ℚ :=
  (actual (r.tTarget.getD i 0) (r.tStat.getD (t.cpu i j k) 0) : Int)

/-- An entry within an array. -/
theorem getElem?_getD {l : List (BitVec 64)} {n : Nat} (h : n < l.length) :
    l[n]? = some (l.getD n 0) := by
  rw [List.getElem?_eq_getElem h, List.getD_eq_getElem _ _ h]

/-- The temperature of a core is the mean of those of its threads. -/
theorem coreTemp_eq (hr : r.Complete t) (hi : i < t.nsockets) (hj : j < t.coresPerSocket) :
    coreTemp t r i j
      = some (FrequencyJson.mean ((List.range t.threadsPerCore).map (threadTemp t r i j))) := by
  have htarget := getElem?_getD (hr.tTarget ▸ hi : i < r.tTarget.length)
  obtain ⟨temp, hloop, rfl⟩ := Loop.foldlM_range (n := t.threadsPerCore) (s := (0 : ℚ))
    (f := fun temp k => do
      let tTarget ← r.tTarget[i]?
      let tStat ← r.tStat[thermalIdx t i j k]?
      return temp + (actual tTarget tStat : Int))
    (fun k temp => temp = ((List.range k).map (threadTemp t r i j)).sum) (by simp) (by
      rintro k hk temp rfl
      have hv : t.Valid i j k := ⟨hi, hj, hk⟩
      have hstat := getElem?_getD (hr.tStat ▸ hv.cpu_lt : t.cpu i j k < r.tStat.length)
      refine ⟨_, by rw [htarget, thermalIdx_eq hv, hstat]; rfl, ?_⟩
      rw [List.range_succ, List.map_append, List.sum_append, List.map_singleton,
        List.sum_singleton]
      rfl)
  have hloop : (List.range (t.nthreads / t.ncores)).foldlM (fun (temp : ℚ) k => do
      let tTarget ← r.tTarget[i]?
      let tStat ← r.tStat[thermalIdx t i j k]?
      return temp + (actual tTarget tStat : Int)) 0
    = some ((List.range t.threadsPerCore).map (threadTemp t r i j)).sum := hloop
  rw [coreTemp, hloop, FrequencyJson.mean, List.length_map, List.length_range]
  rfl

theorem coreTempKey_injective : Function.Injective coreTempKey := fun _ _ h =>
  decimal_injective (List.append_cancel_left h)

theorem length_coreTempKey (j : Nat) : (coreTempKey j).length = 18 + (decimal j).length :=
  List.length_append

/-- The key of a core fits its buffer. -/
theorem snprintf_coreTempKey (hj : j < t.coresPerSocket) :
    snprintf 32 (coreTempKey j) = coreTempKey j := by
  have hlt : j < 2 ^ 31 :=
    calc j < t.coresPerSocket := hj
      _ ≤ t.ncores := Nat.div_le_self t.ncores t.nsockets
      _ ≤ t.nthreads := t.ncores_le
      _ < 2 ^ 31 := t.nthreads_lt
  have hlen := length_decimal_le hlt
  apply snprintf_of_lt
  rw [length_coreTempKey]
  omega

/-- The entries of the cores of a socket. -/
def coreEntries (t : Topology) (r : Readings) (i : Nat) : List (List Char × Json) :=
  (List.range t.coresPerSocket).map fun j =>
    (coreTempKey j,
      .real (FrequencyJson.mean ((List.range t.threadsPerCore).map (threadTemp t r i j))))

/-- **The object of a socket.** -/
theorem cpuObj_eq (hr : r.Complete t) (hi : i < t.nsockets) : cpuObj t r i
    = some [(pkgActual, .integer (actual (r.tTarget.getD i 0) (r.pkgStat.getD i 0))),
        (coreLabel, .object (coreEntries t r i))] := by
  have htarget := getElem?_getD (hr.tTarget ▸ hi : i < r.tTarget.length)
  have hpkg := getElem?_getD (hr.pkgStat ▸ hi : i < r.pkgStat.length)
  have hcores : (List.range (t.ncores / t.nsockets)).mapM (fun j => do
      return (snprintf 32 (coreTempKey j), Json.real (← coreTemp t r i j)))
      = some (coreEntries t r i) := by
    apply mapM_eq_map
    intro j hj
    have hj : j < t.coresPerSocket := List.mem_range.mp hj
    rw [coreTemp_eq hr hi hj, snprintf_coreTempKey hj]
    rfl
  have hset : Fields.setAll [] (coreEntries t r i) = coreEntries t r i := by
    apply Fields.setAll_nil
    rw [coreEntries, List.map_map]
    exact List.nodup_range.map coreTempKey_injective
  rw [cpuObj, htarget, hpkg, hcores]
  simp only [Option.bind_eq_bind, Option.bind_some, hset]
  rfl

/-- **`get_therm_temp_reading_json`** from any state between calls. -/
theorem getThermTempReadingJson_spec (hst : st.Ready e.topo msrs) (hobj : Sectioned obj) :
    ∃ r st', getThermTempReadingJson e msrs obj st
        = some (0, (ThermalPlatform.intel e msrs st).contribution.add obj, st') ∧
      readThermals e msrs st = some (r, st') ∧ Advances e.topo msrs st st' ∧
      r.Complete e.topo ∧ (st.msr.machine.Clean e.driver st'.msr.machine →
        r.Of e.topo msrs (narrowed st.msr.machine.msr)) := by
  obtain ⟨r, st', hread, hadv, hr, hof⟩ := readThermals_spec hst
  have hloop := @Contribution.foldlM_eq_add obj (ThermalPlatform.intel e msrs st).contribution
    (fun obj i => do
      return inObject (snprintf 12 (socketKey i))
        (Fields.set cpuKey (.object (← cpuObj e.topo r i))) obj) hobj (by
      intro i hi obj _
      show _ = some (inObject (snprintf 12 (socketKey i)) (Fields.set cpuKey (.object
        (((readThermals e msrs st).bind fun x => cpuObj e.topo x.1 i).getD []))) obj)
      rw [hread, Option.bind_some, cpuObj_eq hr hi]
      rfl)
  refine ⟨r, st', ?_, hread, hadv, hr, hof⟩
  rw [getThermTempReadingJson, hread]
  exact congrArg (Option.bind · fun obj => some (0, obj, st')) hloop

end Intel

/-! ### The API function -/

namespace ThermalPlatform

variable {p : ThermalPlatform}

/-- A platform that delivers adds its contribution. -/
theorem adds (hready : p.Ready) (h : p.Delivers) :
    Adds 0 p.getThermalsJson p.contribution := by
  intro node hnode
  -- each backend has a loop of its own; what they have in common is that a turn adds its
  -- readings
  cases p with
  | intel e msrs st =>
      obtain ⟨r, st', hrun, -⟩ := getThermTempReadingJson_spec hready hnode
      show (getThermTempReadingJson e msrs node st).map _ = _
      rw [hrun]
      rfl
  | ibm opens nsockets reads =>
      obtain ⟨rfl, hreads⟩ := h
      let turn : Object → Nat → Option Object := fun node i =>
        some ((ibm true nsockets reads).contribution.turn i node)
      have hturn : ∀ i ∈ List.range nsockets, ∀ node, Sectioned node →
          (∃ byte, reads i = some byte ∧
            Occ.jsonGetThermalSensors i node (Occ.block byte) = turn node i) ∧
          ∀ node', turn node i = some node' → Sectioned node' := by
        intro i hi node hnode
        obtain ⟨temps, htemps⟩ := Option.isSome_iff_exists.mp (hreads i (List.mem_range.mp hi))
        obtain ⟨byte, hbyte, hocc⟩ := Option.bind_eq_some_iff.mp htemps
        constructor
        · refine ⟨byte, hbyte, ?_⟩
          rw [jsonGetThermalSensors_eq byte i hnode, hocc]
          show _ = some (inObject _ (Fields.set _ (.object (Option.getD
            (((reads i).bind occTemps).map _) []))) node)
          rw [htemps]
          rfl
        · intro node' hnode'
          obtain rfl := Option.some.inj hnode'
          exact hnode.turn
      have hloop : (List.range nsockets).foldlM turn node = _ :=
        Contribution.foldlM_eq_add (c := (ibm true nsockets reads).contribution) hnode
          fun i _ node _ => rfl
      show (if true then p9Loop reads (List.range nsockets) node else some (-1, node)) = _
      rw [if_pos rfl, p9Loop_eq hnode hturn, hloop]
      rfl
  | nvidia gpus gpuTemp =>
      have hloop := gpuLoop_eq (c := (nvidia gpus gpuTemp).contribution) rfl h hnode
      show voltaGetThermalsJson gpus gpuTemp node = _
      rw [voltaGetThermalsJson, hloop]
      rfl
  | amdGpu gpus tempVal =>
      have hloop := gpuLoop_eq (c := (amdGpu gpus tempVal).contribution) rfl h hnode
      show amdGpuInstinctGetThermalsJson gpus tempVal node = _
      rw [amdGpuInstinctGetThermalsJson, hloop]
      rfl

/-- A platform that returns 0 has delivered. -/
theorem delivers_of_returned {node node' : Object}
    (h : p.getThermalsJson node = some (0, node')) : p.Delivers := by
  cases p with
  | intel e msrs st => exact trivial
  | ibm opens nsockets reads =>
      cases opens with
      | false =>
          have h : (some (-1, node) : Option (Int × Object)) = some (0, node') := h
          cases h
      | true => exact ⟨rfl, fun i hi => p9Loop_reads h i (List.mem_range.mpr hi)⟩
  | nvidia gpus gpuTemp =>
      obtain ⟨out, hout, -⟩ := Option.bind_eq_some_iff.mp h
      exact gpuLoop_isSome_iff.mp (Option.isSome_iff_exists.mpr ⟨out, hout⟩)
  | amdGpu gpus tempVal =>
      obtain ⟨out, hout, -⟩ := Option.bind_eq_some_iff.mp h
      exact gpuLoop_isSome_iff.mp (Option.isSome_iff_exists.mpr ⟨out, hout⟩)

end ThermalPlatform

section Api

variable {table : List (Option ThermalPlatform)}

/-- The contributions of the platforms of a table. -/
abbrev temperatures (table : List (Option ThermalPlatform)) : List Contribution :=
  contributions ThermalPlatform.contribution table

/-- Every platform of the table finds its batches as calls leave them, and ten thousand
sockets at most. -/
def OnNode (table : List (Option ThermalPlatform)) : Prop :=
  (∀ p, some p ∈ table → p.Ready) ∧ Fit (temperatures table)

/-- Where every platform delivers, the text has the contributions of all of them. -/
theorem variorumGetThermalsJson_eq (hnode : OnNode table) (exitRet timestamp : Int)
    (hdelivers : ∀ p, some p ∈ table → p.Delivers) :
    variorumGetThermalsJson 0 exitRet timestamp table
      = some (if exitRet ≠ 0 then -1 else exitRet,
          some (report (temperatures table) (PowerJson.start timestamp))) := by
  have hloop := @platformLoop_adds ThermalPlatform ThermalPlatform.getThermalsJson
    ThermalPlatform.contribution table .skips (PowerJson.start timestamp)
    (fun p hp => ⟨0, p.adds (hnode.1 p hp) (hdelivers p hp), .inl ⟨rfl, rfl⟩⟩)
    (sectioned_start timestamp) (.inl rfl)
  rw [variorumGetThermalsJson, if_neg (not_not.mpr rfl), hloop]

/-- A text is stored exactly when `variorum_enter` returns 0 and every platform
delivers. -/
theorem variorumGetThermalsJson_stores (hnode : OnNode table)
    (enterRet exitRet timestamp : Int) :
    (∃ ret node, variorumGetThermalsJson enterRet exitRet timestamp table = some (ret, some node))
      ↔ enterRet = 0 ∧ ∀ p, some p ∈ table → p.Delivers := by
  constructor
  · rintro ⟨ret, node, h⟩
    unfold variorumGetThermalsJson at h
    by_cases henter : enterRet ≠ 0
    · rw [if_pos henter] at h
      cases h
    · rw [if_neg henter] at h
      refine ⟨not_not.mp henter, fun p hp => ?_⟩
      cases hloop : platformLoop .skips (table.map (·.map ThermalPlatform.getThermalsJson))
          (PowerJson.start timestamp) with
      | none =>
          rw [hloop] at h
          cases h
      | some reply =>
          obtain ⟨ended, out⟩ := reply
          cases ended with
          | returned ret =>
              rw [hloop] at h
              cases h
          | finished =>
              obtain ⟨before, behind, hret⟩ := returned_zero_of_finished hloop p hp
              exact p.delivers_of_returned hret
  · rintro ⟨rfl, hdelivers⟩
    exact ⟨_, _, variorumGetThermalsJson_eq hnode exitRet timestamp hdelivers⟩

theorem OnNode.perm {table' : List (Option ThermalPlatform)} (hnode : OnNode table)
    (hperm : table.Perm table') : OnNode table' :=
  ⟨fun p hp => hnode.1 p (hperm.mem_iff.mpr hp),
    fun c hc => hnode.2 c ((contributions_perm hperm).mem_iff.mpr hc)⟩

/-- **The temperatures of all platforms are in one object.**  A text is stored exactly when
every platform of the table delivers.  Then it has what each of them has stored for each
socket if and only if those that share a label agree, as those with labels of their
own do, and in that case the order of the platforms does not matter. -/
theorem thermalsJson_merges (table : List (Option ThermalPlatform)) (hnode : OnNode table)
    (enterRet exitRet timestamp : Int) :
    ((∃ ret node,
        variorumGetThermalsJson enterRet exitRet timestamp table = some (ret, some node)) ↔
      enterRet = 0 ∧ ∀ p, some p ∈ table → p.Delivers) ∧
    ∀ ret node,
      variorumGetThermalsJson enterRet exitRet timestamp table = some (ret, some node) →
        (KeepsAll (temperatures table) node ↔ Agree (temperatures table)) ∧
        Fields.get "timestamp".toList node = some (.integer timestamp) ∧
        (Agree (temperatures table) → ∀ table', table.Perm table' → ∃ node',
          variorumGetThermalsJson enterRet exitRet timestamp table' = some (ret, some node') ∧
            ∀ k l, part node' k l = part node k l) := by
  refine ⟨variorumGetThermalsJson_stores hnode enterRet exitRet timestamp, fun ret node h => ?_⟩
  obtain ⟨rfl, hdelivers⟩ :=
    (variorumGetThermalsJson_stores hnode enterRet exitRet timestamp).mp ⟨ret, node, h⟩
  rw [variorumGetThermalsJson_eq hnode exitRet timestamp hdelivers] at h
  obtain ⟨rfl, hreport⟩ := Prod.mk.inj (Option.some.inj h)
  obtain rfl := Option.some.inj hreport
  have hstart := sectioned_start timestamp
  refine ⟨report_keepsAll_iff hnode.2 hstart, ?_, fun hagree table' hperm => ?_⟩
  · rw [get_report (by decide)]
    rfl
  · have hdelivers' : ∀ p, some p ∈ table' → p.Delivers :=
      fun p hp => hdelivers p (hperm.mem_iff.mpr hp)
    exact ⟨_, variorumGetThermalsJson_eq (hnode.perm hperm) exitRet timestamp hdelivers',
      report_perm hnode.2 hstart hagree (contributions_perm hperm)⟩

/-- A node of two sockets with an Intel CPU, a platform without the function, and four
GPUs. -/
def twoSocketTable : List (Option ThermalPlatform) :=
  [some (.intel twoSocketEnv fm064fFeatureMsrs .start), none,
    some (.nvidia ⟨4, 2, Nat.two_pos, GpuNode.two_lt⟩ fun d => BitVec.ofInt 32 (40 + d))]

/-- The text has the readings of both. -/
theorem twoSocketTable_merges :
    OnNode twoSocketTable ∧
    ∃ ret node, variorumGetThermalsJson 0 0 7 twoSocketTable = some (ret, some node) ∧
      KeepsAll (temperatures twoSocketTable) node := by
  have hmem : ∀ {P : ThermalPlatform → Prop}, P (.intel twoSocketEnv fm064fFeatureMsrs .start) →
      P (.nvidia ⟨4, 2, Nat.two_pos, GpuNode.two_lt⟩ fun d => BitVec.ofInt 32 (40 + d)) →
      ∀ p, some p ∈ twoSocketTable → P p := by
    intro P hintel hnvidia p hp
    simp only [twoSocketTable, List.mem_cons, List.not_mem_nil, or_false, Option.some.injEq,
      reduceCtorEq, false_or] at hp
    rcases hp with rfl | rfl
    · exact hintel
    · exact hnvidia
  have hnode : OnNode twoSocketTable := by
    refine ⟨hmem (FeatureState.ready_start _ _) trivial, fun c hc => ?_⟩
    obtain ⟨p, hp, rfl⟩ := mem_contributions.mp hc
    have htwo : p.contribution.sockets = 2 := @hmem (·.contribution.sockets = 2) rfl rfl p hp
    omega
  have hdelivers : ∀ p, some p ∈ twoSocketTable → p.Delivers := by
    refine hmem trivial ?_
    show ∀ i < 2, (GpuNode.block ⟨4, 2, Nat.two_pos, GpuNode.two_lt⟩ i).isSome
    decide
  obtain ⟨hstores, hall⟩ := thermalsJson_merges twoSocketTable hnode 0 0 7
  obtain ⟨ret, node, h⟩ := hstores.mpr ⟨rfl, hdelivers⟩
  exact ⟨hnode, ret, node, h, (hall ret node h).1.mpr (Agree.of_nodup (by decide))⟩

end Api

/-! ### The JSON and the printed lines -/

/-- The functions that show the temperatures of an Intel platform; the second finds a node
object to which others may have added already. -/
inductive ThermalCall
  | print
  | json (obj : {node : Object // Sectioned node})

/-- What a call gives: the lines it prints, or the object it returns. -/
inductive ThermalOutput
  | lines (rows : List ThermalRow)
  | object (ret : Int) (obj : Object)

namespace ThermalCall

def run (e : MsrEnv) (msrs : FeatureMsrs) (st : FeatureState) :
    ThermalCall → Option (ThermalOutput × FeatureState)
  | print => (printThermTempReading e msrs st).map fun (rows, st) => (.lines rows, st)
  | json obj =>
      (getThermTempReadingJson e msrs obj.1 st).map fun (ret, obj, st) => (.object ret obj, st)

/-- A call in a run: the registers it finds, and the call. -/
def step (e : MsrEnv) (msrs : FeatureMsrs) (st : FeatureState)
    (a : (Nat → Nat → BitVec 64) × ThermalCall) : Option FeatureState :=
  (a.2.run e msrs (st.found a.1)).map Prod.snd

end ThermalCall

/-- The value for a core in a node object. -/
def coreValue (node : Object) (i j : Nat) : Option Json :=
  ((part node (socketKey i) cpuKey).bind (Json.get coreLabel)).bind (Json.get (coreTempKey j))

/-- The value for a package. -/
def pkgValue (node : Object) (i : Nat) : Option Json :=
  (part node (socketKey i) cpuKey).bind (Json.get pkgActual)

/-- The lines for the threads of a core. -/
def linesOf (rows : List ThermalRow) (i j : Nat) : List ThermalRow :=
  rows.filter fun row => row.socket = i ∧ row.core = j

/-- The node object has for each core the mean of the temperatures in its lines, and for each
package the one that stands in all of them. -/
structure AgreesWith (t : Topology) (rows : List ThermalRow) (node : Object) : Prop where
  lines : ∀ i < t.nsockets, ∀ j < t.coresPerSocket,
    (linesOf rows i j).length = t.threadsPerCore
  core : ∀ i < t.nsockets, ∀ j < t.coresPerSocket, coreValue node i j
    = some (.real (FrequencyJson.mean ((linesOf rows i j).map fun row => (row.threadActual : ℚ))))
  pkg : ∀ row ∈ rows, pkgValue node row.socket = some (.integer row.pkgActual)

/-- A call of a run gives what belongs to the registers it finds: the lines of
`thermalRows`, or a node object that agrees with them. -/
def ShowsTemperatures (e : MsrEnv) (msrs : FeatureMsrs) (st : FeatureState)
    (a : (Nat → Nat → BitVec 64) × ThermalCall) : Prop :=
  ∃ out st', a.2.run e msrs (st.found a.1) = some (out, st') ∧
    ((st.found a.1).msr.machine.Clean e.driver st'.msr.machine →
      match a.2, out with
      | .print, .lines rows => rows = thermalRows e.topo msrs a.1
      | .json _, .object ret node => ret = 0 ∧ AgreesWith e.topo (thermalRows e.topo msrs a.1) node
      | _, _ => False)

section Runs

variable {e : MsrEnv} {t : Topology} {msrs : FeatureMsrs} {st : FeatureState} {r : Readings}
variable {contents : Nat → Nat → BitVec 64} {i j : Nat}

/-- Of a loop over a range, the turn for one of its numbers. -/
theorem flatMap_range_single {α : Type} {n i : Nat} (hi : i < n) (f : Nat → List α) :
    ((List.range n).flatMap fun a => if a = i then f a else []) = f i := by
  induction n with
  | zero => exact absurd hi (Nat.not_lt_zero i)
  | succ n ih =>
      rw [List.range_succ, List.flatMap_append, List.flatMap_singleton]
      by_cases hn : n = i
      · subst hn
        have hnil : ((List.range n).flatMap fun a => if a = n then f a else []) = [] := by
          rw [List.flatMap_eq_nil_iff]
          exact fun a ha => if_neg (Nat.ne_of_lt (List.mem_range.mp ha))
        rw [hnil, if_pos rfl, List.nil_append]
      · rw [if_neg hn, List.append_nil, ih (by omega)]

/-- The coordinates of the threads of a core. -/
theorem filter_coords (hi : i < t.nsockets) (hj : j < t.coresPerSocket) :
    (coords t).filter (fun c => decide (c.1 = i ∧ c.2.1 = j))
      = (List.range t.threadsPerCore).map fun k => (i, j, k) := by
  -- the threads of one core are all kept or all dropped
  have hcore : ∀ a b, ((List.range (t.nthreads / t.ncores)).map fun k => (a, b, k)).filter
      (fun c => decide (c.1 = i ∧ c.2.1 = j))
      = if a = i then (if b = j then (List.range t.threadsPerCore).map fun k => (a, b, k) else [])
        else [] := by
    intro a b
    by_cases ha : a = i
    · by_cases hb : b = j
      · rw [if_pos ha, if_pos hb]
        apply List.filter_eq_self.mpr
        intro c hc
        obtain ⟨k, -, rfl⟩ := List.mem_map.mp hc
        exact decide_eq_true ⟨ha, hb⟩
      · rw [if_pos ha, if_neg hb, List.filter_eq_nil_iff]
        intro c hc
        obtain ⟨k, -, rfl⟩ := List.mem_map.mp hc
        simp [hb]
    · rw [if_neg ha, List.filter_eq_nil_iff]
      intro c hc
      obtain ⟨k, -, rfl⟩ := List.mem_map.mp hc
      simp [ha]
  -- so of a socket one core is left, or none
  have hsocket : ∀ a, ((List.range (t.ncores / t.nsockets)).flatMap fun b =>
      if a = i then (if b = j then (List.range t.threadsPerCore).map fun k => (a, b, k) else [])
        else [])
      = if a = i then (List.range t.threadsPerCore).map fun k => (a, j, k) else [] := by
    intro a
    by_cases ha : a = i
    · simp only [if_pos ha]
      exact flatMap_range_single hj _
    · simp [ha]
  simp only [coords, List.filter_flatMap, hcore, hsocket]
  exact flatMap_range_single hi _

/-- The lines of a core, from the registers of its threads. -/
theorem linesOf_thermalRows (hi : i < t.nsockets) (hj : j < t.coresPerSocket) :
    linesOf (thermalRows t msrs contents) i j
      = (List.range t.threadsPerCore).map fun k =>
          thermalRow i j (t.cpu i j k) (contents (t.cpu i 0 0) msrs.tempTarget.toNat)
            (contents (t.cpu i 0 0) msrs.pkgThermStat.toNat)
            (contents (t.cpu i j k) msrs.thermStat.toNat) := by
  rw [linesOf, thermalRows, List.filter_map]
  have hfilter : (coords t).filter
      ((fun row : ThermalRow => decide (row.socket = i ∧ row.core = j)) ∘
        fun c : Nat × Nat × Nat => thermalRow c.1 c.2.1 (t.cpu c.1 c.2.1 c.2.2)
        (contents (t.cpu c.1 0 0) msrs.tempTarget.toNat)
        (contents (t.cpu c.1 0 0) msrs.pkgThermStat.toNat)
        (contents (t.cpu c.1 c.2.1 c.2.2) msrs.thermStat.toNat))
      = (List.range t.threadsPerCore).map fun k => (i, j, k) := filter_coords hi hj
  rw [hfilter, List.map_map]
  rfl

/-- A node object in which the readings of the registers were stored. -/
theorem agreesWith_of_readings (hr : r.Complete t) (hof : r.Of t msrs contents) {node : Object}
    (hnode : ∀ i < t.nsockets, part node (socketKey i) cpuKey = (cpuObj t r i).map .object) :
    AgreesWith t (thermalRows t msrs contents) node where
  lines := by
    intro i hi j hj
    rw [linesOf_thermalRows hi hj, List.length_map, List.length_range]
  core := by
    intro i hi j hj
    -- the mean is over the temperatures that the printed lines of the core show
    have htemps : (List.range t.threadsPerCore).map (threadTemp t r i j)
        = (linesOf (thermalRows t msrs contents) i j).map fun row => (row.threadActual : ℚ) := by
      rw [linesOf_thermalRows hi hj, List.map_map]
      apply List.map_congr_left
      intro k hk
      have hv : t.Valid i j k := ⟨hi, hj, List.mem_range.mp hk⟩
      rw [threadTemp, hof.tTarget i hi, hof.tStat _ hv.cpu_lt]
      rfl
    -- no two cores have one key, so the entry of this core is the one that is found
    have hentry : Fields.get (coreTempKey j) (coreEntries t r i) = some (.real
        (FrequencyJson.mean ((List.range t.threadsPerCore).map (threadTemp t r i j)))) := by
      have hnodup : ((coreEntries t r i).map Prod.fst).Nodup := by
        rw [coreEntries, List.map_map]
        exact List.nodup_range.map coreTempKey_injective
      rw [← Fields.setAll_nil hnodup]
      apply Fields.get_setAll
      · rw [coreEntries, List.map_map]
        exact List.mem_map.mpr ⟨j, List.mem_range.mpr hj, rfl⟩
      · intro kv hkv hkey
        obtain ⟨j', -, rfl⟩ := List.mem_map.mp hkv
        rw [coreTempKey_injective hkey]
    rw [← htemps, coreValue, hnode i hi, cpuObj_eq hr hi]
    exact hentry
  pkg := by
    intro row hrow
    obtain ⟨⟨i, j, k⟩, hc, rfl⟩ := List.mem_map.mp hrow
    have hi := (mem_coords.mp hc).1
    show pkgValue node i = _
    rw [pkgValue, hnode i hi, cpuObj_eq hr hi, hof.tTarget i hi, hof.pkgStat i hi]
    rfl

/-- **The JSON and the printed lines agree**: in every run of the two functions on a
node of up to 65536 hardware threads and ten thousand sockets, whatever happens to the
registers between the calls, every call comes to its end; and where none of its accesses
is refused, the temperature that the JSON has for a core is the mean of those in the
lines of its threads, and the one of a package is that of its lines. -/
theorem coreTemperatures_agree (hfew : e.topo.nthreads ≤ 2 ^ 16)
    (hsockets : e.topo.nsockets ≤ 10000) (msrs : FeatureMsrs)
    (calls : List ((Nat → Nat → BitVec 64) × ThermalCall)) :
    Runs.Along (ThermalCall.step e msrs) (ShowsTemperatures e msrs) .start calls := by
  -- one call from a ready state: it is defined, stays ready, and shows what the registers held
  have hcall : ∀ (st : FeatureState) (contents : Nat → Nat → BitVec 64) (call : ThermalCall),
      st.Ready e.topo msrs → ∃ out st', call.run e msrs (st.found contents) = some (out, st') ∧
        st'.Ready e.topo msrs ∧ ((st.found contents).msr.machine.Clean e.driver st'.msr.machine →
          match call, out with
          | .print, .lines rows => rows = thermalRows e.topo msrs contents
          | .json _, .object ret node =>
              ret = 0 ∧ AgreesWith e.topo (thermalRows e.topo msrs contents) node
          | _, _ => False) := by
    intro st contents call hst
    have hst : (st.found contents).Ready e.topo msrs := hst
    cases call with
    | print =>
        obtain ⟨rows, st', hrun, hadv, hrows⟩ := printThermTempReading_spec hst
        refine ⟨.lines rows, st', by rw [ThermalCall.run, hrun, Option.map_some], hadv.ready,
          fun hclean => ?_⟩
        exact (hrows hclean).trans (thermalRows_narrowed hfew)
    | json obj =>
        obtain ⟨obj, hobj⟩ := obj
        obtain ⟨r, st', hrun, hread, hadv, hr, hof⟩ := getThermTempReadingJson_spec hst hobj
        refine ⟨.object 0 _, st', by rw [ThermalCall.run, hrun, Option.map_some], hadv.ready,
          fun hclean => ⟨rfl, ?_⟩⟩
        rw [← thermalRows_narrowed hfew]
        refine agreesWith_of_readings hr (hof hclean) fun i hi => ?_
        have hpart := part_add hobj
          (c := (ThermalPlatform.intel e msrs (st.found contents)).contribution) hsockets hi
        refine hpart.trans ?_
        show some (Json.object (((readThermals e msrs (st.found contents)).bind fun x =>
          cpuObj e.topo x.1 i).getD [])) = _
        rw [hread, Option.bind_some, cpuObj_eq hr hi]
        rfl
  -- readiness is the invariant; the registers may change between any two calls
  refine (Runs.along_true _ _).imp_of_inv (FeatureState.Ready e.topo msrs) ?_ ?_
    (FeatureState.ready_start e.topo msrs)
  · rintro st ⟨contents, call⟩ st' hst - hstep
    obtain ⟨out, st₁, hrun, hready, -⟩ := hcall st contents call hst
    unfold ThermalCall.step at hstep
    rw [hrun, Option.map_some] at hstep
    obtain rfl := Option.some.inj hstep
    exact hready
  · rintro st ⟨contents, call⟩ hst -
    obtain ⟨out, st₁, hrun, -, hout⟩ := hcall st contents call hst
    exact ⟨out, st₁, hrun, hout⟩

end Runs

/-- On the two-socket node a print, and the JSON after the registers have changed. -/
theorem coreTemperatures_agree_two :
    (twoSocketEnv.topo.nthreads ≤ 2 ^ 16 ∧ twoSocketEnv.topo.nsockets ≤ 10000) ∧
      Runs.Along (ThermalCall.step twoSocketEnv fm064fFeatureMsrs)
        (ShowsTemperatures twoSocketEnv fm064fFeatureMsrs) .start
        [(fun _ _ => 0, .print), (fun _ _ => 0x00640000, .json ⟨_, sectioned_start 7⟩)] :=
  ⟨by decide, coreTemperatures_agree (by decide) (by decide) _ _⟩

end ThermalJson

end Variorum
