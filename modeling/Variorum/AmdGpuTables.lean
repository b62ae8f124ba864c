/-
Variorum/AmdGpuTables.lean

The tables of GPUs that `variorum_print_*` prints with the AMD back end.

The functions differ from those of the other back ends in when they print the
names of the columns: not above the first terse line, but in the first call of
the process, and only if that is a terse one.  That call also sets the start of
the timestamps, which are differences of microseconds alone.

Main results:

* `amdTables_run`: what any run of calls prints.  There are no names iff the
  first call is a verbose one.
* `amdTables_read`: a reader gets the rows of a terse run back, below the names.
* `timestamp_eq_elapsed_iff`: a timestamp is the time since the first call iff
  the second is the same.
-/
import Variorum.FrequencyReport
import Variorum.GpuTables

namespace Variorum.AmdGpuTables

open CString PowerJson Table GpuTables

/-! ### The texts -/

/-- `struct timeval`. -/
structure Timeval where
  sec : Int
  usec : Int

/-- `(now.tv_usec - start.tv_usec) / 1000000.0`. -/
def timestamp (start now : Timeval) : Rat := ((now.usec - start.usec : Int) : Rat) / 1000000

/-- The seconds between two times. -/
def elapsed (start now : Timeval) : Rat :=
  ((now.sec - start.sec : Int) : Rat) + ((now.usec - start.usec : Int) : Rat) / 1000000

/-- A value of a device and the timestamp next to it. -/
structure Stamped (V : Type) where
  value : V
  timestamp : Rat

/-- The timestamp in a verbose line. -/
def stampText (timestamp : Rat) : List Char :=
  "Timestamp: ".toList ++ fixed 6 timestamp ++ " sec\n".toList

/-- `pwr_val_flt`, of microwatts. -/
def watts (pwrVal : BitVec 64) : Rat := PowerJson.AmdGpu.watts (fun _ => pwrVal) 0

/-- The texts of `get_power_data`. -/
def getPowerData (host : List Char) : Printer (DeviceRow (Stamped (BitVec 64))) where
  columns := placeColumns "_AMD_GPU_POWER_USAGE".toList ++
    ["Power".toList, "Timestamp_sec".toList]
  columnsEnd := ['\n']
  terse row := placeFields "_AMD_GPU_POWER_USAGE".toList host row ++
    [fixed 2 (watts row.value.value), fixed 6 row.value.timestamp]
  long row := some (placeText "_AMD_GPU_POWER_USAGE".toList host row ++ ", Power: ".toList ++
    fixed 2 (watts row.value.value) ++ " W, ".toList ++ stampText row.value.timestamp)

/-- What `rsmi_dev_power_cap_get` and `rsmi_dev_power_cap_range_get` store. -/
structure PowerCap where
  current : BitVec 64
  min : BitVec 64
  max : BitVec 64

/-- `pwr_min / (1000 * 1000)`. -/
def wholeWatts (pwr : BitVec 64) : List Char := decimal (pwr.toNat / (1000 * 1000))

/-- The texts of `get_power_limit_data`. -/
def getPowerLimitData (host : List Char) : Printer (DeviceRow (Stamped PowerCap)) where
  columns := placeColumns "_AMD_GPU_POWER_CAP".toList ++ ["PowerCap_Current".toList,
    "PowerCap_Min".toList, "PowerCap_Max".toList, "Timestamp_sec".toList]
  columnsEnd := ['\n']
  terse row := placeFields "_AMD_GPU_POWER_CAP".toList host row ++
    [fixed 2 (watts row.value.value.current), wholeWatts row.value.value.min,
      wholeWatts row.value.value.max, fixed 6 row.value.timestamp]
  long row := some (placeText "_AMD_GPU_POWER_CAP".toList host row ++
    ", PowerCap_Current: ".toList ++ fixed 2 (watts row.value.value.current) ++
    " W, PowerCap_Min: ".toList ++ wholeWatts row.value.value.min ++
    " W, PowerCap_Max: ".toList ++ wholeWatts row.value.value.max ++ " W,".toList ++
    stampText row.value.timestamp)

/-- `temp_val_flt`, of thousandths of a degree: a quotient of integers. -/
def celsius (tempVal : BitVec 64) : Rat := (tempVal.toInt.tdiv 1000 : Int)

/-- The texts of `get_thermals_data`. -/
def getThermalsData (host : List Char) : Printer (DeviceRow (Stamped (BitVec 64))) where
  columns := placeColumns "_AMD_GPU_TEMPERATURE".toList ++
    ["Temperature".toList, "Timestamp_sec".toList]
  columnsEnd := ['\n']
  terse row := placeFields "_AMD_GPU_TEMPERATURE".toList host row ++
    [fixed 2 (celsius row.value.value), fixed 6 row.value.timestamp]
  long row := some (placeText "_AMD_GPU_TEMPERATURE".toList host row ++
    ", Temperature: ".toList ++ fixed 2 (celsius row.value.value) ++ " C, ".toList ++
    stampText row.value.timestamp)

/-- The texts of `get_gpu_utilization_data`: the times are taken, and not printed. -/
def getGpuUtilizationData (host : List Char) : Printer (DeviceRow (Stamped (BitVec 32))) where
  columns := placeColumns "_AMD_GPU_UTILIZATION".toList ++ ["Util".toList]
  columnsEnd := ['\n']
  terse row := placeFields "_AMD_GPU_UTILIZATION".toList host row ++
    [decimalInt row.value.value.toInt]
  long row := some (placeText "_AMD_GPU_UTILIZATION".toList host row ++ ",Util: ".toList ++
    decimalInt row.value.value.toInt ++ "%\n".toList)

/-- The current system and memory clocks that `rsmi_dev_gpu_clk_freq_get` stores. -/
structure Clocks where
  sys : BitVec 64
  mem : BitVec 64

/-- `f_sys_val` and `f_mem_val`, printed with `%d`. -/
def megahertz (f : BitVec 64) : List Char :=
  decimalInt (BitVec.ofInt 32 (FrequencyReport.megahertz f)).toInt

/-- The texts of `get_clocks_data`. -/
def getClocksData (host : List Char) : Printer (DeviceRow (Stamped Clocks)) where
  columns := placeColumns "_AMD_GPU_CLOCKS".toList ++
    ["SystemClock_MHz".toList, "MemoryClock_MHz".toList, "Timestamp_sec".toList]
  columnsEnd := ['\n']
  terse row := placeFields "_AMD_GPU_CLOCKS".toList host row ++
    [megahertz row.value.value.sys, megahertz row.value.value.mem, fixed 6 row.value.timestamp]
  long row := some (placeText "_AMD_GPU_CLOCKS".toList host row ++ ", SystemClock: ".toList ++
    megahertz row.value.value.sys ++ " MHz, MemoryClock: ".toList ++
    megahertz row.value.value.mem ++ " MHz, ".toList ++ stampText row.value.timestamp)

/-- The functions that print a table. -/
inductive AmdTable
  | power
  | powerLimit
  | thermals
  | utilization
  | clocks
  deriving DecidableEq

namespace AmdTable

/-- What the driver stores for a device. -/
def Value : AmdTable → Type
  | power | thermals => BitVec 64
  | powerLimit => PowerCap
  | utilization => BitVec 32
  | clocks => Clocks

/-- The texts of a table, by the function that prints it. -/
def printer (host : List Char) : (table : AmdTable) → Printer (DeviceRow (Stamped table.Value))
  | power => getPowerData host
  | powerLimit => getPowerLimitData host
  | thermals => getThermalsData host
  | utilization => getGpuUtilizationData host
  | clocks => getClocksData host

end AmdTable

/-! ### The functions -/

variable {V : Type}

/-- A call of an API function: the form, what the driver stores, the time at its start, which
is kept if it is the first, and the times at which it comes to the sockets. -/
structure AmdCall (V : Type) where
  verbose : Bool
  value : Int → V
  start : Timeval
  now : Nat → Timeval

/-- The statics `init` and `start`, and what is printed. -/
structure AmdState where
  start : Option Timeval
  out : List Char

/-- What the function does where `init` is not set: the start is kept, and the names are printed
for the terse form. -/
def initialise (p : Printer (DeviceRow (Stamped V))) (call : AmdCall V) (s : AmdState) :
    Timeval × List Char :=
  match s.start with
  | some start => (start, s.out)
  | none => (call.start, if call.verbose then s.out else s.out ++ p.head)

/-- The line of a device. -/
def printText (p : Printer (DeviceRow (Stamped V))) (verbose : Bool) (out : List Char)
    (row : DeviceRow (Stamped V)) : Option (List Char) :=
  (p.rowText (verbose, row)).map (out ++ ·)

/-- Such a function, called for a socket. -/
def getData (p : Printer (DeviceRow (Stamped V))) (node : GpuNode) (call : AmdCall V)
    (chipid : Nat) (s : AmdState) : Option AmdState := do
  let begun := initialise p call s
  let devs ← node.block chipid
  let out ← devs.foldlM (fun out d => printText p call.verbose out
    ⟨chipid, d, call.value d, timestamp begun.1 (call.now chipid)⟩) begun.2
  some ⟨some begun.1, out⟩

/-- Calls of an API function, one after the other. -/
def runCalls (p : Printer (DeviceRow (Stamped V))) (node : GpuNode) (s : AmdState)
    (calls : List (AmdCall V)) : Option AmdState :=
  calls.foldlM (fun s call => eachSocket node (getData p node call) s) s

/-- The rows of a call, with timestamps that count from a start.  As with the other back ends
the devices are the first `sockets * (devices / sockets)` of the node. -/
def callRows (node : GpuNode) (start : Timeval) (call : AmdCall V) :
    List (DeviceRow (Stamped V)) :=
  (List.range (node.sockets * perSocket node)).map fun d =>
    ⟨d / perSocket node, d, call.value d, timestamp start (call.now (d / perSocket node))⟩

/-- The rows of a run, each in the form of its call. -/
def runRows (node : GpuNode) (start : Timeval) (calls : List (AmdCall V)) :
    List (Bool × DeviceRow (Stamped V)) :=
  calls.flatMap fun call => (callRows node start call).map (call.verbose, ·)

/-- The text of a row. -/
def AmdTable.rowText (table : AmdTable) (host : List Char)
    (row : Bool × DeviceRow (Stamped table.Value)) : List Char :=
  ((table.printer host).rowText row).getD []

/-! ### Calls -/

section Calls

variable {node : GpuNode} {p : Printer (DeviceRow (Stamped V))}
  {text : Bool × DeviceRow (Stamped V) → List Char}

/-- The loop over the sockets, seen through a part of the state. -/
theorem eachSocket_map {σ τ : Type} (g : σ → τ) {F : Nat → τ → Option τ} {G : Nat → σ → Option σ}
    (h : ∀ chipid s, F chipid (g s) = (G chipid s).map g) (s : σ) :
    eachSocket node F (g s) = (eachSocket node G s).map g := by
  rw [eachSocket, eachSocket]
  generalize List.range node.sockets = sockets
  induction sockets generalizing s with
  | nil => rfl
  | cons chipid sockets ih =>
      rw [List.foldlM_cons, List.foldlM_cons, h]
      cases G chipid s with
      | none => rfl
      | some s' => exact ih s'

/-- Behind the start, a call prints its rows. -/
theorem getData_started (htext : ∀ row, p.rowText row = some (text row))
    (hnode : node.devices.toNat < 2 ^ 31) (call : AmdCall V) (start : Timeval)
    (out : List Char) :
    eachSocket node (getData p node call) ⟨some start, out⟩ =
      some ⟨some start, out ++ ((callRows node start call).map
        fun row => text (call.verbose, row)).flatten⟩ := by
  -- the start time is set already, so it stays the same through all sockets
  have hcalls : eachSocket node (getData p node call) ⟨some start, out⟩ =
      (eachSocket node (fun chipid out => do
        let devs ← node.block chipid
        devs.foldlM (fun out d => printText p call.verbose out
          ⟨chipid, d, call.value d, timestamp start (call.now chipid)⟩) out) out).map
        (AmdState.mk (some start)) := by
    refine eachSocket_map (AmdState.mk (some start)) (fun chipid out => ?_) out
    rw [getData]
    cases node.block chipid with
    | none => rfl
    | some devs => exact Option.map_eq_bind.symm
  have hrows : ∀ (rows : List (DeviceRow (Stamped V))) (out : List Char),
      rows.foldlM (printText p call.verbose) out =
        some (out ++ (rows.map fun row => text (call.verbose, row)).flatten) := by
    intro rows
    induction rows with
    | nil => simp
    | cons row rows ih =>
        intro out
        rw [List.foldlM_cons, printText, htext, Option.map_some, Option.bind_eq_bind,
          Option.bind_some, ih]
        simp
  rw [hcalls, eachSocket_eq (printText p call.verbose)
    (fun chipid d => ⟨chipid, d, call.value d, timestamp start (call.now chipid)⟩) hnode out,
    hrows]
  rfl

/-- A call starts where nothing has been started. -/
theorem eachSocket_begun (call : AmdCall V) (s : AmdState) :
    eachSocket node (getData p node call) s =
      eachSocket node (getData p node call)
        ⟨some (initialise p call s).1, (initialise p call s).2⟩ := by
  obtain ⟨sockets, hsockets⟩ := Nat.exists_eq_succ_of_ne_zero node.sockets_pos.ne'
  rw [eachSocket, eachSocket, hsockets, List.range_succ_eq_map, List.foldlM_cons,
    List.foldlM_cons]
  rfl

/-- The calls behind the start print their rows. -/
theorem runCalls_started (htext : ∀ row, p.rowText row = some (text row))
    (hnode : node.devices.toNat < 2 ^ 31) (start : Timeval) (calls : List (AmdCall V))
    (out : List Char) : runCalls p node ⟨some start, out⟩ calls =
      some ⟨some start, out ++ ((runRows node start calls).map text).flatten⟩ := by
  induction calls generalizing out with
  | nil => simp [runCalls, runRows]
  | cons call calls ih =>
      rw [runCalls, List.foldlM_cons, getData_started htext hnode, Option.bind_eq_bind,
        Option.bind_some]
      have hrows : runRows node start (call :: calls) =
          (callRows node start call).map (call.verbose, ·) ++ runRows node start calls := by
        rw [runRows, List.flatMap_cons, runRows]
      refine (ih _).trans ?_
      rw [hrows, List.map_append, List.flatten_append, List.map_map, List.append_assoc]
      rfl

theorem runCalls_begun (first : AmdCall V) (later : List (AmdCall V)) (s : AmdState) :
    runCalls p node s (first :: later) =
      runCalls p node ⟨some (initialise p first s).1, (initialise p first s).2⟩
        (first :: later) := by
  rw [runCalls, runCalls, List.foldlM_cons, List.foldlM_cons, eachSocket_begun]

end Calls

/-! ### Runs of the five functions -/

section Runs

variable {node : GpuNode} {host : List Char}

theorem rowText_eq (table : AmdTable) (host : List Char)
    (row : Bool × DeviceRow (Stamped table.Value)) :
    (table.printer host).rowText row = some (table.rowText host row) := by
  obtain ⟨verbose, row⟩ := row
  cases table <;> cases verbose <;> rfl

/-- A timestamp is the time since the start iff the second is the same. -/
theorem timestamp_eq_elapsed_iff (start now : Timeval) :
    timestamp start now = elapsed start now ↔ now.sec = start.sec := by
  rw [timestamp, elapsed, right_eq_add, Int.cast_eq_zero, Int.sub_eq_zero]

/-- **Runs of calls.**  The devices that a call gets to in order, call after call, below the names
of the columns iff the first call is a terse one.  The timestamp of a row is the time since that
call iff the second is the same. -/
theorem amdTables_run (table : AmdTable) (host : List Char)
    (hnode : node.devices.toNat < 2 ^ 31) (first : AmdCall table.Value)
    (later : List (AmdCall table.Value)) :
    runCalls (table.printer host) node ⟨none, []⟩ (first :: later) =
        some ⟨some first.start, (if first.verbose then [] else (table.printer host).head) ++
          ((runRows node first.start (first :: later)).map (table.rowText host)).flatten⟩ ∧
      ∀ call ∈ first :: later, ∀ row ∈ callRows node first.start call,
        (row.value.timestamp = elapsed first.start (call.now row.chipid) ↔
          (call.now row.chipid).sec = first.start.sec) := by
  constructor
  · rw [runCalls_begun]
    exact runCalls_started (rowText_eq table host) hnode first.start (first :: later) _
  · intro call _ row hrow
    obtain ⟨d, -, rfl⟩ := List.mem_map.mp hrow
    exact timestamp_eq_elapsed_iff first.start (call.now (d / perSocket node))

set_option maxRecDepth 4000 in
/-- A verbose call before a terse one: the rows of the terse one have no names above them. -/
theorem amdTables_run_two :
    ∃ out, runCalls (AmdTable.utilization.printer "n1".toList) twoDevices ⟨none, []⟩
        [⟨true, fun _ => (7 : BitVec 32), ⟨5, 0⟩, fun _ => ⟨5, 10⟩⟩,
          ⟨false, fun _ => (9 : BitVec 32), ⟨6, 0⟩, fun _ => ⟨6, 10⟩⟩] =
        some ⟨some ⟨5, 0⟩, out⟩ ∧
      out = ("_AMD_GPU_UTILIZATION Host: n1, Socket: 0, DeviceID: 0,Util: 7%\n" ++
        "_AMD_GPU_UTILIZATION Host: n1, Socket: 1, DeviceID: 1,Util: 7%\n" ++
        "_AMD_GPU_UTILIZATION n1 0 0 9\n_AMD_GPU_UTILIZATION n1 1 1 9\n").toList := by
  refine ⟨_, (amdTables_run .utilization "n1".toList
    (show twoDevices.devices.toNat < 2 ^ 31 by decide) _ _).1, ?_⟩
  decide

theorem isRow_columns (table : AmdTable) (host : List Char) :
    IsRow (table.printer host).columns := by
  have hhost : (table.printer host).columns = (table.printer []).columns := by
    cases table <;> rfl
  rw [hhost]
  cases table <;> decide

theorem isRow_terse (table : AmdTable) (hhost : IsWord host)
    (row : DeviceRow (Stamped table.Value)) : IsRow ((table.printer host).terse row) := by
  cases table with
  | power | thermals =>
      refine isRow_placeFields (by decide) hhost row fun value hvalue => ?_
      simp only [List.mem_cons, List.not_mem_nil, or_false] at hvalue
      rcases hvalue with rfl | rfl <;> exact isWord_fixed _ _
  | utilization =>
      refine isRow_placeFields (by decide) hhost row fun value hvalue => ?_
      obtain rfl := List.mem_singleton.mp hvalue
      exact isWord_decimalInt _
  | powerLimit =>
      refine isRow_placeFields (by decide) hhost row fun value hvalue => ?_
      simp only [List.mem_cons, List.not_mem_nil, or_false] at hvalue
      rcases hvalue with rfl | rfl | rfl | rfl
      · exact isWord_fixed _ _
      · exact isWord_decimal _
      · exact isWord_decimal _
      · exact isWord_fixed _ _
  | clocks =>
      refine isRow_placeFields (by decide) hhost row fun value hvalue => ?_
      simp only [List.mem_cons, List.not_mem_nil, or_false] at hvalue
      rcases hvalue with rfl | rfl | rfl
      · exact isWord_decimalInt _
      · exact isWord_decimalInt _
      · exact isWord_fixed _ _

/-- **Reading a table.**  After terse calls, a reader that takes the text apart at newlines and
blanks gets the names of the columns and then every row as it was printed. -/
theorem amdTables_read (table : AmdTable) (hhost : IsWord host)
    (hnode : node.devices.toNat < 2 ^ 31) {first : AmdCall table.Value}
    {later : List (AmdCall table.Value)} (hterse : ∀ call ∈ first :: later, call.verbose = false) :
    ∃ s, runCalls (table.printer host) node ⟨none, []⟩ (first :: later) = some s ∧
      read s.out = (table.printer host).columns ::
        ((first :: later).flatMap (callRows node first.start)).map (table.printer host).terse := by
  have hrows : runRows node first.start (first :: later) =
      ((first :: later).flatMap (callRows node first.start)).map (false, ·) := by
    rw [runRows, List.map_flatMap]
    exact List.flatMap_congr fun call hcall => by rw [hterse call hcall]
  have hhead : (table.printer host).head = line (table.printer host).columns := by
    rw [Printer.head, line]
    cases table <;> rfl
  have hlines : ∀ rows : List (DeviceRow (Stamped table.Value)),
      (rows.map (false, ·)).map (table.rowText host) =
        (rows.map (table.printer host).terse).map line := by
    intro rows
    rw [List.map_map, List.map_map]
    rfl
  have hrun : runCalls (table.printer host) node ⟨none, []⟩ (first :: later) = _ :=
    (runCalls_begun first later _).trans
      (runCalls_started (rowText_eq table host) hnode first.start (first :: later) _)
  refine ⟨_, hrun, ?_⟩
  have hfirst := hterse first List.mem_cons_self
  rw [initialise, hfirst, hrows, hlines]
  show read ([] ++ (table.printer host).head ++ _) = _
  rw [List.nil_append, hhead, read_line_append (isRow_columns table host), read_lines]
  intro fields hfields
  obtain ⟨row, -, rfl⟩ := List.mem_map.mp hfields
  exact isRow_terse table hhost row

/-- A device of each socket comes back. -/
theorem amdTables_read_two :
    ∃ s, runCalls (AmdTable.utilization.printer "n1".toList) twoDevices ⟨none, []⟩
        [⟨false, fun _ => (9 : BitVec 32), ⟨6, 0⟩, fun _ => ⟨6, 10⟩⟩] = some s ∧
      read s.out = ["_AMD_GPU_UTILIZATION Host Socket DeviceID Util",
        "_AMD_GPU_UTILIZATION n1 0 0 9", "_AMD_GPU_UTILIZATION n1 1 1 9"].map
          fun text : String => Table.fieldsOf text.toList := by
  have hterse : ∀ call ∈ ([⟨false, fun _ => (9 : BitVec 32), ⟨6, 0⟩, fun _ => ⟨6, 10⟩⟩] :
      List (AmdCall AmdTable.utilization.Value)), call.verbose = false := by
    intro call hcall
    rw [List.mem_singleton.mp hcall]
  obtain ⟨s, hrun, hread⟩ := amdTables_read .utilization (show IsWord "n1".toList by decide)
    (show twoDevices.devices.toNat < 2 ^ 31 by decide) hterse
  refine ⟨s, hrun, ?_⟩
  rw [hread]
  decide

end Runs

end Variorum.AmdGpuTables
