/-
Variorum/Monitor.lean

What `var_monitor` makes of the node object of the power JSON.

`parse_json_power_obj` looks up the node power, the number of GPUs per socket
and one object for each socket, and writes a column for each power it finds: its
name into the header, its value into the line.  The newline comes with whichever
column the code takes for the last one.  A socket without an object ends the
process, and so does one without GPUs where there should be some.

The columns are collected first (`powerCells`) and then put together in the
buffers of the function (`parseJsonPowerObj`), in which nothing is checked: where
a text does not fit there is no result.  Whether the header is still to be
written is the state that the monitor keeps from call to call.
-/
import Variorum.PowerJsonSpec

namespace Variorum

open CString PowerJson
open Json (Object)

/-! ### The columns -/

/-- A column: its name, its value, and the character behind either. -/
structure Cell where
  name : List Char
  watts : Rat
  stop : Char

/-- ` Power (W)`. -/
def inWatts : List Char := " Power (W)".toList

/-- `Socket_%d Power (W)`. -/
def socketColumn (i : Nat) : List Char := "Socket_".toList ++ decimal i ++ inWatts

/-- `Mem_%d Power (W)`. -/
def memColumn (i : Nat) : List Char := "Mem_".toList ++ decimal i ++ inWatts

/-- The column of `power_node_watts`, which a build with GPUs alone does not have. -/
def nodeCells (node : Object) : List Cell :=
  match Fields.get powerNodeWatts node with
  | none => []
  | some value => [⟨"Node Power (W)".toList, Json.realValue (some value), ','⟩]

/-- The column of `power_cpu_watts`, which it does not have either. -/
def cpuCells (socketObj : Json) (i : Nat) : List Cell :=
  match socketObj.get powerCpuWatts with
  | none => []
  | some value => [⟨socketColumn i, Json.realValue (some value), ','⟩]

/-- Without GPUs, the memory of the last socket ends the line. -/
def memStop (numSockets : Nat) (numGpus : Int) (i : Nat) : Char :=
  if i + 1 = numSockets ∧ numGpus < 0 then '\n' else ','

/-- With GPUs, the last one of the node does. -/
def gpuStop (total : Int) (key : List Char) : Char :=
  if gpuKey (total - 1) = key then '\n' else ','

/-- The column of `power_mem_watts`, if the socket has it. -/
def memCells (socketObj : Json) (numSockets : Nat) (numGpus : Int) (i : Nat) : List Cell :=
  match socketObj.get powerMemWatts with
  | none => []
  | some value => [⟨memColumn i, Json.realValue (some value), memStop numSockets numGpus i⟩]

/-- The columns of `power_gpu_watts`; the number of all GPUs is computed in each turn. -/
def gpuCells (gpuObj : Json) (numSockets : Nat) (numGpus : Int) : Option (List Cell) :=
  if gpuObj.fields.isEmpty then some []
  else do
    let total ← cInt (numGpus * numSockets)
    some (gpuObj.fields.map fun kv =>
      ⟨kv.1 ++ inWatts, Json.realValue (some kv.2), gpuStop total kv.1⟩)

/-- The columns of a socket; none where the process ends. -/
def socketCells (node : Object) (numSockets : Nat) (numGpus : Int) (i : Nat) :
    Option (List Cell) := do
  let socketObj ← Fields.get (snprintf 20 (socketKey i)) node
  let cells := cpuCells socketObj i ++ memCells socketObj numSockets numGpus i
  if numGpus > 0 then
    let gpuObj ← socketObj.get powerGpuWatts
    let gpus ← gpuCells gpuObj numSockets numGpus
    some (cells ++ gpus)
  else some cells

/-- `num_gpus_per_socket`: -1 where there is none. -/
def numGpus (node : Object) : Int :=
  match Fields.get numGpusPerSocket node with
  | none => -1
  | some value => (BitVec.ofInt 32 (Json.integerValue (some value))).toInt

/-- The columns behind the time stamp. -/
def powerCells (node : Object) (numSockets : Nat) : Option (List Cell) := do
  let cells ← GpuNode.overSockets (socketCells node numSockets (numGpus node)) numSockets
  some (nodeCells node ++ cells)

/-! ### The texts -/

/-- A column in the header. -/
def Cell.title (c : Cell) : List Char := c.name ++ [c.stop]

/-- A column in a line. -/
def Cell.value (c : Cell) : List Char := fixed 2 c.watts ++ [c.stop]

/-- What the header begins with. -/
def headerStart : List Char := "Hostname,Timestamp,".toList

/-- What a line begins with: `%s,%ld,`. -/
def lineStart (hostname : List Char) (timestamp : Int) : List Char :=
  hostname ++ ',' :: (decimalInt timestamp ++ [','])

/-- The texts of the header. -/
def headerTexts (cells : List Cell) : List (List Char) := headerStart :: cells.map Cell.title

/-- The texts of a line. -/
def valueTexts (hostname : List Char) (timestamp : Int) (cells : List Cell) :
    List (List Char) :=
  lineStart hostname timestamp :: cells.map Cell.value

/-- The time stamp, a `uint64_t` that is printed as a `long`. -/
def timestampOf (node : Object) : Int :=
  (BitVec.ofInt 64 (Json.integerValue (Fields.get "timestamp".toList node))).toInt

/-- What a call writes to the log. -/
structure Printed where
  header : List Char
  values : List Char

/-- `header_str`, which stays empty when the header has been written. -/
def headerStr (writeHeader : Bool) (cells : List Cell) : Option (List Char) :=
  if writeHeader then concat 100 500 (headerTexts cells) else some []

/-- `parse_json_power_obj`, and `write_header` behind it. -/
def parseJsonPowerObj (numSockets : Nat) (writeHeader : Bool) (hostname : List Char)
    (node : Object) : Option (Printed × Bool) := do
  let cells ← powerCells node numSockets
  let header ← headerStr writeHeader cells
  let values ← concat 100 1000 (valueTexts hostname (timestampOf node) cells)
  -- the header is written in the turn of the last socket
  if numSockets = 0 then some (⟨[], values⟩, writeHeader) else some (⟨header, values⟩, false)

end Variorum
