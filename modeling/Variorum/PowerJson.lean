/-
Variorum/PowerJson.lean

What each platform writes into the node object of the power JSON.

Every platform makes an object for each socket, under a key it prints into a
buffer of its own, and stores its readings there; a GPU platform looks for the
object first.  A JSON value is a tree here: an object that has been stored in
the node object is changed through its key, which is what the pointer to it
does, since nothing else changes in between.  Doubles are rational numbers.

A call that ends the process, overflows a buffer or returns an error has no
result.  The reads of files and the calls of the GPU drivers are answered, and
what they answer is an argument.
-/
import Mathlib.Data.Rat.Defs
import Mathlib.Algebra.BigOperators.Group.List.Basic
import Variorum.CString
import Variorum.Fields
import Variorum.GpuBlocks

namespace Variorum

open CString

/-! ### `json_t` -/

/-- A JSON value. -/
inductive Json
  | real (x : Rat)
  | integer (n : Int)
  | object (fields : List (List Char × Json))

namespace Json

/-- The fields of an object, in the order of insertion. -/
abbrev Object := List (List Char × Json)

/-- `json_object_get`: NULL for what is no object. -/
def get (k : List Char) : Json → Option Json
  | object l => Fields.get k l
  | _ => none

/-- `json_object_set_new`: without effect on what is no object. -/
def set (k : List Char) (v : Json) : Json → Json
  | object l => object (Fields.set k v l)
  | j => j

/-- `json_real_value`: 0 for NULL and for what is no real. -/
def realValue : Option Json → Rat
  | some (real x) => x
  | _ => 0

/-- `json_integer_value`: 0 for NULL and for what is no integer. -/
def integerValue : Option Json → Int
  | some (integer n) => n
  | _ => 0

/-- What `json_object_foreach` goes over: the entries of an object, and nothing else. -/
def fields : Json → Object
  | object l => l
  | _ => []

/-- `json_object_set_new(obj, key, json_real(x))`, where a double that is not finite is
`none`: `json_real` gives no value for it, and nothing is set. -/
def setReal (key : List Char) (x : Option Rat) (obj : Object) : Object :=
  match x with
  | some x => Fields.set key (real x) obj
  | none => obj

end Json

namespace PowerJson

open Json (Object)

/-! ### The keys -/

/-- `socket_%d`. -/
def socketKey (i : Nat) : List Char := "socket_".toList ++ decimal i

/-- `GPU_%d`. -/
def gpuKey (d : Int) : List Char := "GPU_".toList ++ decimalInt d

/-- The keys a platform may store. -/
def powerNodeWatts : List Char := "power_node_watts".toList
def numGpusPerSocket : List Char := "num_gpus_per_socket".toList
def powerCpuWatts : List Char := "power_cpu_watts".toList
def powerMemWatts : List Char := "power_mem_watts".toList
def powerGpuWatts : List Char := "power_gpu_watts".toList
def powerIoWatts : List Char := "power_io_watts".toList

/-- The node object with its time stamp, as the platforms get it. -/
def start (timestamp : Int) : Object := [("timestamp".toList, .integer timestamp)]

/-- `for (i = 0; i < n; i++)` over the node object. -/
def forSockets (body : Nat → Object → Option Object) : Nat → Object → Option Object
  | 0, obj => some obj
  | k + 1, obj => (forSockets body k obj).bind (body k)

/-- `socket_obj = json_object()`, stored under its key, with a list of values set. -/
def newSocket (key : List Char) (values : List (List Char × Rat)) (obj : Object) : Object :=
  values.foldl (fun obj kv => Fields.modify key (Json.set kv.1 (.real kv.2)) obj)
    (Fields.set key (.object []) obj)

/-! ### The CPU platforms -/

/-- `json_get_power_data` of Intel, for the powers `get_power` leaves. -/
def Intel.jsonGetPowerData (pkgWatts dramWatts : Nat → Rat) (nsockets : Nat) (obj : Object) :
    Option Object := do
  let obj ← forSockets (fun i obj =>
    some (newSocket (snprintf 12 (socketKey i))
      [(powerCpuWatts, pkgWatts i), (powerMemWatts, dramWatts i)] obj)) nsockets obj
  let nodePower := ((List.range nsockets).map fun i => pkgWatts i + dramWatts i).sum
  some (Fields.set powerNodeWatts (.real nodePower) obj)

/-- `amd_cpu_epyc_get_power_json`, for what `esmi_socket_power_get` returns and stores,
in milliwatts. -/
def Amd.epycGetPowerJson (esmi : Nat → Int × BitVec 32) (numSockets : Nat) (obj : Object) :
    Option Object := do
  let obj ← forSockets (fun i obj =>
    -- a failure is the return value, and with it that of `variorum_get_power_json`
    if (esmi i).1 ≠ 0 then none
    else
      some (newSocket (snprintf 12 (socketKey i))
        [(powerCpuWatts, ((esmi i).2.toNat : Rat) / 1000), (powerMemWatts, -1)] obj))
    numSockets obj
  let nodePower := ((List.range numSockets).map fun i => ((esmi i).2.toNat : Rat) / 1000).sum
  some (Fields.set powerNodeWatts (.real nodePower) obj)

/-- A sensor of an OCC block: its name and its power in watts, 0 where the structure
is not the one with a sample. -/
structure OccSensor where
  name : List Char
  watts : BitVec 64

/-- The last sensor of a name. -/
def Ibm.sensorWatts (name : List Char) (sensors : List OccSensor) : Rat :=
  ((sensors.foldl (fun w (x : OccSensor) => if x.name = name then x.watts else w) 0).toNat : Rat)

/-- `json_get_power_sensors`, for the sensors of the chip's block. -/
def Ibm.jsonGetPowerSensors (sensors : Nat → List OccSensor) (chipid : Nat) (obj : Object) :
    Option Object := do
  let socketID ← sprintf 12 (socketKey chipid)
  let obj :=
    if chipid = 0 then
      Fields.set powerNodeWatts (.real (sensorWatts "PWRSYS".toList (sensors chipid))) obj
    else obj
  some (newSocket socketID
    [(powerCpuWatts, sensorWatts "PWRPROC".toList (sensors chipid)),
      (powerMemWatts, sensorWatts "PWRMEM".toList (sensors chipid))] obj)

/-- `ibm_cpu_p9_get_power_json`, for the chips whose blocks were read. -/
def Ibm.p9GetPowerJson (sensors : Nat → List OccSensor) (nsockets : Nat) (obj : Object) :
    Option Object :=
  forSockets (jsonGetPowerSensors sensors) nsockets obj

/-- The hwmon interface of a Juno r2, in microwatts. -/
structure JunoHwmon where
  sys : BitVec 64
  big : BitVec 64
  little : BitVec 64
  gpu : BitVec 64

/-- `(double)(val) / 1000000.0f`, exactly. -/
def microwatts (val : BitVec 64) : Rat := (val.toNat : Rat) / 1000000

/-- `arm_cpu_juno_r2_json_get_power_data`. -/
def Arm.junoR2JsonGetPowerData (hwmon : JunoHwmon) (numPackage : Nat) (obj : Object) :
    Option Object := do
  let obj ← forSockets (fun i obj =>
    some (newSocket (snprintf 12 (socketKey i)) (if i ≠ 0 then [(powerGpuWatts, -1)] else [])
      obj)) numPackage obj
  -- less than two sockets end the process
  if numPackage < 2 then none
  else
    let obj := Fields.set powerNodeWatts (.real (microwatts hwmon.sys)) obj
    let obj := Fields.set numGpusPerSocket (.integer (-1)) obj
    let obj := Fields.modify (socketKey 0)
      (Json.set powerCpuWatts (.real (microwatts hwmon.big))) obj
    let obj := Fields.modify (socketKey 1)
      (Json.set powerCpuWatts (.real (microwatts hwmon.little))) obj
    some (Fields.modify (socketKey 0)
      (Json.set powerGpuWatts (.real (microwatts hwmon.gpu))) obj)

/-- The hwmon interface of a Neoverse N1, in microwatts. -/
structure NeoverseHwmon where
  cpu : BitVec 64
  io : BitVec 64

/-- `arm_cpu_neoverse_n1_json_get_power_data`.  Its loop prints `Socket_%d`. -/
def Arm.neoverseN1JsonGetPowerData (hwmon : NeoverseHwmon) (numPackage : Nat) (obj : Object) :
    Option Object := do
  let obj ← forSockets (fun i obj =>
    some (newSocket (snprintf 12 ("Socket_".toList ++ decimal i)) [(powerMemWatts, -1)] obj))
    numPackage obj
  let obj := Fields.modify (socketKey 0)
    (Json.set powerCpuWatts (.real (microwatts hwmon.cpu))) obj
  some (Fields.modify (socketKey 0)
    (Json.set powerIoWatts (.real (microwatts hwmon.io))) obj)

/-! ### The GPU platforms -/

/-- The object of a socket, made where it is not there, gets a `power_gpu_watts` with
an entry for each device. -/
def setGpuObject (key : List Char) (devs : List Int) (watts : Int → Rat) (obj : Object) :
    Object :=
  let obj := if (Fields.get key obj).isNone then Fields.set key (.object []) obj else obj
  let gpuObj := Fields.setAll [] (devs.map fun d => (snprintf 24 (gpuKey d), .real (watts d)))
  Fields.modify key (Json.set powerGpuWatts (.object gpuObj)) obj

/-- A node power that is there gets the power of the GPUs added. -/
def addToNodeWatts (total : Rat) (obj : Object) : Object :=
  if (Fields.get powerNodeWatts obj).isNone then obj
  else
    Fields.set powerNodeWatts (.real (Json.realValue (Fields.get powerNodeWatts obj) + total)) obj

/-- `(double)gpu_power * 0.001f`: the constant is the float next to one thousandth. -/
def Nvidia.watts (gpuPower : Int → BitVec 32) (d : Int) : Rat :=
  ((gpuPower d).toNat : Rat) * (8589935 / 8589934592)

/-- `nvidia_gpu_get_power_json`, for the powers `nvmlDeviceGetPowerUsage` stores, in
milliwatts; on a build without IBM CPUs. -/
def Nvidia.gpuGetPowerJson (node : GpuNode) (gpuPower : Int → BitVec 32) (chipid : Nat)
    (obj : Object) : Option Object := do
  let devs ← node.block chipid
  let obj := Fields.set numGpusPerSocket (.integer node.gpusPerSocket.toNat) obj
  let obj := setGpuObject (snprintf 12 (socketKey chipid)) devs (watts gpuPower) obj
  some (addToNodeWatts ((devs.map (watts gpuPower)).sum) obj)

/-- `volta_get_power_json`. -/
def Nvidia.voltaGetPowerJson (node : GpuNode) (gpuPower : Int → BitVec 32) (obj : Object) :
    Option Object :=
  forSockets (gpuGetPowerJson node gpuPower) node.sockets obj

/-- `(double)(pwr_val / (1000 * 1000))`: an integer quotient. -/
def AmdGpu.watts (pwrVal : Int → BitVec 64) (d : Int) : Rat :=
  ((pwrVal d).toNat / (1000 * 1000) : Nat)

/-- `get_json_power_data`, for the powers `rsmi_dev_power_get` stores, in microwatts. -/
def AmdGpu.getJsonPowerData (node : GpuNode) (pwrVal : Int → BitVec 64) (obj : Object) :
    Option Object := do
  let obj := Fields.set numGpusPerSocket (.integer node.gpusPerSocket.toInt) obj
  let obj ← forSockets (fun chipid obj => do
    let devs ← node.block chipid
    some (setGpuObject (snprintf 24 (socketKey chipid)) devs (watts pwrVal) obj))
    node.sockets obj
  let devs ← node.blocks
  some (addToNodeWatts ((devs.map (watts pwrVal)).sum) obj)

end PowerJson

end Variorum
