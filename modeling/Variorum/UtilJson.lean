/-
Variorum/UtilJson.lean

The utilization of the GPUs, from the driver to a row of `var_monitor`.

The JSON function of a GPU platform is called for one socket after the other and
stores an entry for each device of its block, under a key with the number of the
device, in the object of the socket.  `variorum_get_utilization_json` adds what
it knows of the CPUs and the memory.  `parse_json_util_obj` counts the entries of
each socket and makes up the keys itself, from the number of the socket and the
place among its entries; what it does not find reads as 0.

What `fprintf` writes is kept as a list of texts, each with the character behind
it.  A product or a sum that overflows has no model.
-/
import Variorum.PowerJsonSpec

namespace Variorum

open CString
open Json (Object)

/-- The object with its fields changed. -/
def Json.mapFields (f : Object → Object) : Json → Json
  | .object l => .object (f l)
  | j => j

namespace UtilJson

/-! ### The keys -/

/-- `Socket_%d`. -/
def socketKey (i : Nat) : List Char := "Socket_".toList ++ decimal i

/-- `GPU%d_util%%`. -/
def utilKey (d : Int) : List Char := "GPU".toList ++ decimalInt d ++ "_util%".toList

/-- `GPU%d_Util (%%)`. -/
def utilColumn (d : Int) : List Char := "GPU".toList ++ decimalInt d ++ "_Util (%)".toList

/-- The other keys of a host. -/
def timestampKey : List Char := "timestamp".toList
def gpuKey : List Char := "GPU".toList
def cpuKey : List Char := "CPU".toList
def memoryUtil : List Char := "memory_util%".toList
def totalUtil : List Char := "total_util%".toList
def userUtil : List Char := "user_util%".toList
def systemUtil : List Char := "system_util%".toList

/-! ### The GPU platforms -/

/-- The object under a key, made where it is not there, with its fields changed. -/
def inObject (key : List Char) (f : Object → Object) (obj : Object) : Object :=
  let obj := if (Fields.get key obj).isNone then Fields.set key (.object []) obj else obj
  Fields.modify key (Json.mapFields f) obj

/-- A value that is set where none is. -/
def setIfNone (key : List Char) (value : Json) (obj : Object) : Object :=
  if (Fields.get key obj).isNone then Fields.set key value obj else obj

/-- The JSON function of a platform for a socket, at a time, with the value it stores for
a device. -/
def utilTurn (node : GpuNode) (hostname : List Char) (ts : Nat → Int) (value : Int → Int)
    (chipid : Nat) (obj : Object) : Option Object := do
  let devs ← node.block chipid
  let entries := devs.map fun d => (snprintf 12 (utilKey d), Json.integer (value d))
  some (inObject hostname (fun host =>
    inObject gpuKey (inObject (snprintf 12 (socketKey chipid)) (Fields.setAll · entries))
      (setIfNone timestampKey (.integer (ts chipid)) host)) obj)

/-- `nvidia_get_gpu_utilization_json`, for the rates `nvmlDeviceGetUtilizationRates`
stores. -/
def Nvidia.getGpuUtilizationJson (node : GpuNode) (hostname : List Char) (ts : Nat → Int)
    (util : Int → BitVec 32) : Nat → Object → Option Object :=
  utilTurn node hostname ts fun d => (util d).toNat

/-- `get_gpu_utilization_data_json` of AMD: it does not call
`rsmi_dev_busy_percent_get`, and `utilpercent` is 0 throughout. -/
def AmdGpu.getGpuUtilizationDataJson (node : GpuNode) (hostname : List Char) (ts : Nat → Int)
    (_util : Int → BitVec 32) : Nat → Object → Option Object :=
  utilTurn node hostname ts fun _ => 0

/-- A line of the printing functions. -/
structure UtilLine where
  socket : Nat
  dev : Int
  util : Int

/-- `nvidia_gpu_get_gpu_utilization_data`: it prints `util.gpu` with `%d`. -/
def Nvidia.gpuGetGpuUtilizationData (node : GpuNode) (util : Int → BitVec 32) (chipid : Nat) :
    Option (List UtilLine) :=
  node.forBlock (fun d => ⟨chipid, d, (util d).toInt⟩) chipid

/-- `get_gpu_utilization_data` of AMD: it prints `utilpercent` with `%d`. -/
def AmdGpu.getGpuUtilizationData (node : GpuNode) (util : Int → BitVec 32) (chipid : Nat) :
    Option (List UtilLine) :=
  node.forBlock (fun d => ⟨chipid, d, (util d).toInt⟩) chipid

/-! ### `variorum_get_utilization_json` -/

/-- What it reads of the memory and the CPUs, and when. -/
structure HostUtil where
  mem : Rat
  total : Rat
  user : Rat
  system : Rat
  ts : Int

/-- The object of the GPU platform with the utilization of the host. -/
def addHostUtil (hostname : List Char) (u : HostUtil) (obj : Object) : Object :=
  Fields.modify hostname (Json.mapFields fun host =>
    Fields.set memoryUtil (.real u.mem)
      (inObject cpuKey (fun cpu =>
        Fields.set systemUtil (.real u.system)
          (Fields.set userUtil (.real u.user)
            (Fields.set totalUtil (.real u.total) cpu)))
        (setIfNone timestampKey (.integer u.ts) host))) obj

/-! ### `parse_json_util_obj` -/

/-- A text of the file and the character behind it. -/
structure Field where
  text : List Char
  stop : Char

/-- What a call writes: the fields of the header, if it has one, and those of the row. -/
structure UtilPrinted where
  header : List Field
  row : List Field

/-- `json_object_size` of the object of a socket, 0 where there is none. -/
def ndevices (gpuObj : Json) (i : Nat) : Nat :=
  match gpuObj.get (socketKey i) with
  | none => 0
  | some socketObj => socketObj.fields.length

/-- `(i * num_sockets) + j + 1`. -/
def utilIndex (numSockets i j : Nat) : Int := i * numSockets + j + 1

/-- Only behind the last device of the last socket there is no comma. -/
def utilStop (numSockets i n j : Nat) : Char :=
  if i + 1 = numSockets ∧ j + 1 = n then '\n' else ','

/-- A text for each device of a socket; the last index is the greatest. -/
def socketFields (text : Nat → Int → List Char) (gpuObj : Json) (numSockets i : Nat) :
    Option (List Field) :=
  let n := ndevices gpuObj i
  if n ≠ 0 ∧ cInt (utilIndex numSockets i (n - 1)) = none then none
  else
    some ((List.range n).map fun j =>
      ⟨text i (utilIndex numSockets i j), utilStop numSockets i n j⟩)

/-- A text for each device of all sockets. -/
def deviceFields (text : Nat → Int → List Char) (gpuObj : Json) (numSockets : Nat) :
    Option (List Field) :=
  GpuNode.overSockets (socketFields text gpuObj numSockets) numSockets

/-- The name of a device in the header. -/
def columnText (_i : Nat) (d : Int) : List Char := snprintf 24 (utilColumn d)

/-- Its value in the row, an `int`. -/
def valueText (gpuObj : Json) (i : Nat) (d : Int) : List Char :=
  decimalInt (BitVec.ofInt 32 (Json.integerValue
    ((gpuObj.get (socketKey i)).bind (Json.get (snprintf 24 (utilKey d)))))).toInt

/-- The names of the host's columns. -/
def hostHeader (stop : Char) : List Field :=
  [⟨"Hostname".toList, ','⟩, ⟨" Timestamp (ms)".toList, ','⟩, ⟨"Memory_Util (%)".toList, ','⟩,
    ⟨"CPU_Util (%)".toList, ','⟩, ⟨"User_Util (%)".toList, ','⟩,
    ⟨"System_Util (%)".toList, stop⟩]

/-- The values of the host at the front of a row. -/
def hostRow (hostname : List Char) (host : Json) (stop : Char) : List Field :=
  let cpu := host.get cpuKey
  let real (key : List Char) : List Char :=
    fixed 6 (Json.realValue (cpu.bind (Json.get key)))
  [⟨hostname, ','⟩,
    ⟨decimalInt (BitVec.ofInt 64 (Json.integerValue (host.get timestampKey))).toInt, ','⟩,
    ⟨fixed 6 (Json.realValue (host.get memoryUtil)), ','⟩, ⟨real totalUtil, ','⟩,
    ⟨real userUtil, ','⟩, ⟨real systemUtil, stop⟩]

/-- `parse_json_util_obj`, and `write_util_header` behind it. -/
def parseJsonUtilObj (numSockets : Nat) (writeHeader : Bool) (util : Object) :
    Option (UtilPrinted × Bool) := do
  let (hostname, host) ← util.getLast?
  match host.get gpuKey with
  | none =>
      let header := if writeHeader then hostHeader '\n' else []
      some (⟨header, hostRow hostname host '\n'⟩, false)
  | some gpuObj =>
      let columns ← deviceFields columnText gpuObj numSockets
      let values ← deviceFields (valueText gpuObj) gpuObj numSockets
      let header := if writeHeader then hostHeader ',' ++ columns else []
      -- the flag is cleared with the newline of the header
      let ended := columns.any fun f => f.stop == '\n'
      some (⟨header, hostRow hostname host ',' ++ values⟩, writeHeader && !ended)

end UtilJson

end Variorum
