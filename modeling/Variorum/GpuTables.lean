/-
Variorum/GpuTables.lean

The tables of GPUs that `variorum_print_*` prints with the NVIDIA and the Intel
back end.

Each of them is a function with a static flag that is called for one socket
after the other and prints a line for each device of the block, a terse one of
blank-separated fields or a verbose one with labels.  The names of the columns
are printed above the first terse line of the process.

Main results:

* `gpuTables_run`: what any run of calls of such a function of NVIDIA or Intel
  prints, and when it has a defined behaviour.
* `gpuTables_read`: a reader of the terse lines gets the names and the rows back
  from each of the nine tables but one, whose names lack the newline.
-/
import Variorum.GpuReport
import Variorum.Table

namespace Variorum.GpuTables

open CString PowerJson Table

/-! ### Rows -/

/-- A device in a table, and what the driver stores for it. -/
structure DeviceRow (V : Type) where
  chipid : Nat
  dev : Int
  value : V

variable {V : Type}

/-- The fields `tag host socket device`. -/
def placeFields (tag host : List Char) (row : DeviceRow V) : List (List Char) :=
  [tag, host, decimal row.chipid, decimalInt row.dev]

/-- The text `tag Host: host, Socket: socket, DeviceID: device`. -/
def placeText (tag host : List Char) (row : DeviceRow V) : List Char :=
  tag ++ " Host: ".toList ++ host ++ ", Socket: ".toList ++ decimal row.chipid ++
    ", DeviceID: ".toList ++ decimalInt row.dev

/-- The names of the first four columns. -/
def placeColumns (tag : List Char) : List (List Char) :=
  [tag, "Host".toList, "Socket".toList, "DeviceID".toList]

/-! ### NVIDIA -/

namespace Nvidia

/-- `value` of `nvidia_gpu_get_power_data` and of `nvidia_gpu_get_power_limits_data`. -/
def watts (milliwatts : BitVec 32) : Rat := PowerJson.Nvidia.watts (fun _ => milliwatts) 0

/-- The texts of `nvidia_gpu_get_power_data`. -/
def gpuGetPowerData (host : List Char) : Printer (DeviceRow (BitVec 32)) where
  columns := placeColumns "_NVIDIA_GPU_POWER_USAGE".toList ++ ["Power".toList]
  columnsEnd := ['\n']
  terse row := placeFields "_NVIDIA_GPU_POWER_USAGE".toList host row ++ [fixed 6 (watts row.value)]
  long row := some (placeText "_NVIDIA_GPU_POWER_USAGE".toList host row ++ ", Power: ".toList ++
    fixed 6 (watts row.value) ++ " W\n".toList)

/-- The texts of `nvidia_gpu_get_thermal_data`. -/
def gpuGetThermalData (host : List Char) : Printer (DeviceRow (BitVec 32)) where
  columns := placeColumns "_NVIDIA_GPU_TEMPERATURE".toList ++ ["Temperature_C".toList]
  columnsEnd := ['\n']
  terse row := placeFields "_NVIDIA_GPU_TEMPERATURE".toList host row ++
    [decimalInt row.value.toInt]
  long row := some (placeText "_NVIDIA_GPU_TEMPERATURE".toList host row ++
    ", Temperature: ".toList ++ decimal row.value.toNat ++ " C\n".toList)

/-- The texts of `nvidia_gpu_get_power_limits_data`. -/
def gpuGetPowerLimitsData (host : List Char) : Printer (DeviceRow (BitVec 32)) where
  columns := placeColumns "_NVIDIA_GPU_POWER_LIMIT".toList ++ ["PowerLimit_W".toList]
  columnsEnd := ['\n']
  terse row := placeFields "_NVIDIA_GPU_POWER_LIMIT".toList host row ++ [fixed 3 (watts row.value)]
  long row := some (placeText "_NVIDIA_GPU_POWER_LIMIT".toList host row ++
    ", PowerLimit: ".toList ++ fixed 3 (watts row.value) ++ " W\n".toList)

/-- The texts of `nvidia_gpu_get_clocks_data`. -/
def gpuGetClocksData (host : List Char) : Printer (DeviceRow (BitVec 32)) where
  columns := placeColumns "_NVIDIA_GPU_CLOCKS".toList ++ ["GPU_Clock_MHz".toList]
  columnsEnd := ['\n']
  terse row := placeFields "_NVIDIA_GPU_CLOCKS".toList host row ++ [decimalInt row.value.toInt]
  long row := some (placeText "_NVIDIA_GPU_CLOCKS".toList host row ++ ", GPU_Clock: ".toList ++
    decimalInt row.value.toInt ++ " MHz\n".toList)

/-- `nvmlUtilization_t`. -/
structure Utilization where
  gpu : BitVec 32
  memory : BitVec 32

/-- The texts of `nvidia_gpu_get_gpu_utilization_data`. -/
def gpuGetGpuUtilizationData (host : List Char) : Printer (DeviceRow Utilization) where
  columns := placeColumns "_NVIDIA_GPU_UTILIZATION".toList ++
    ["SMUtil_%".toList, "MemUtil_%".toList]
  columnsEnd := ['\n']
  terse row := placeFields "_NVIDIA_GPU_UTILIZATION".toList host row ++
    [decimalInt row.value.gpu.toInt, decimalInt row.value.memory.toInt]
  long row := some (placeText "_NVIDIA_GPU_UTILIZATION".toList host row ++
    ", SM_Utilization: ".toList ++ decimalInt row.value.gpu.toInt ++
    "%, Memory_Utilization: ".toList ++ decimalInt row.value.memory.toInt ++ "%\n".toList)

end Nvidia

/-! ### Intel -/

namespace IntelGpu

/-- The texts of `get_power_data`, for the average power of the global domain. -/
def getPowerData (host : List Char) : Printer (DeviceRow Rat) where
  columns := placeColumns "_INTEL_GPU_POWER_USAGE".toList ++ ["Power_W".toList]
  columnsEnd := ['\n']
  terse row := placeFields "_INTEL_GPU_POWER_USAGE".toList host row ++ [fixed 6 row.value]
  long row := some (placeText "_INTEL_GPU_POWER_USAGE".toList host row ++ ", Power: ".toList ++
    fixed 6 row.value ++ " W\n".toList)

/-- The texts of `get_thermal_data`; the two forms spell the tag differently. -/
def getThermalData (host : List Char) : Printer (DeviceRow Rat) where
  columns := placeColumns "_INTEL_GPU_TEMPERATURE".toList ++ ["Temperature_C".toList]
  columnsEnd := ['\n']
  terse row := placeFields "_INTEL_GPU_TEMPERATURE".toList host row ++ [fixed 1 row.value]
  long row := some (placeText "_INTLE_GPU_TEMPERATURE".toList host row ++
    ", Temperature: ".toList ++ fixed 1 row.value ++ " C\n".toList)

/-- The texts of `get_clocks_data`, for `(int)freq_MHz`.  In the call for the verbose form a
comma is missing behind the format: its second `%s` is given `"Socket"`, and its third the
number of the socket for a pointer. -/
def getClocksData (host : List Char) : Printer (DeviceRow Int) where
  columns := placeColumns "_INTEL_GPU_CLOCKS".toList ++ ["GPU_Clock_MHz".toList]
  columnsEnd := ['\n']
  terse row := placeFields "_INTEL_GPU_CLOCKS".toList host row ++ [decimalInt row.value]
  long _ := none

/-- The texts of `get_power_limit_data`; the format of the names has no newline. -/
def getPowerLimitData (host : List Char) : Printer (DeviceRow (BitVec 32)) where
  columns := placeColumns "_INTEL_GPU_POWER_LIMIT".toList ++ ["GPU_Power_limit_mW".toList]
  columnsEnd := []
  terse row := placeFields "_INTEL_GPU_POWER_LIMIT".toList host row ++
    [decimalInt row.value.toInt]
  long row := some (placeText "_INTEL_GPU_POWER_LIMIT".toList host row ++
    ", GPU_Power_limit: ".toList ++ decimalInt row.value.toInt ++ " mW\n".toList)

end IntelGpu

/-! ### The nine functions -/

/-- The functions of NVIDIA and Intel that print a table. -/
inductive GpuTable
  | nvidiaPower
  | nvidiaThermal
  | nvidiaPowerLimits
  | nvidiaClocks
  | nvidiaUtilization
  | intelPower
  | intelThermal
  | intelClocks
  | intelPowerLimit
  deriving DecidableEq

namespace GpuTable

/-- What the driver stores for a device. -/
def Value : GpuTable → Type
  | nvidiaPower | nvidiaThermal | nvidiaPowerLimits | nvidiaClocks | intelPowerLimit => BitVec 32
  | nvidiaUtilization => Nvidia.Utilization
  | intelPower | intelThermal => Rat
  | intelClocks => Int

/-- The texts of a table, by the function that prints it. -/
def printer (host : List Char) : (table : GpuTable) → Printer (DeviceRow table.Value)
  | nvidiaPower => Nvidia.gpuGetPowerData host
  | nvidiaThermal => Nvidia.gpuGetThermalData host
  | nvidiaPowerLimits => Nvidia.gpuGetPowerLimitsData host
  | nvidiaClocks => Nvidia.gpuGetClocksData host
  | nvidiaUtilization => Nvidia.gpuGetGpuUtilizationData host
  | intelPower => IntelGpu.getPowerData host
  | intelThermal => IntelGpu.getThermalData host
  | intelClocks => IntelGpu.getClocksData host
  | intelPowerLimit => IntelGpu.getPowerLimitData host

end GpuTable

/-- Such a function, called for a socket: the flag `init_output`, and what is printed. -/
def getData (p : Printer (DeviceRow V)) (node : GpuNode) (value : Int → V) (verbose : Bool)
    (chipid : Nat) (s : Bool × List Char) : Option (Bool × List Char) := do
  let devs ← node.block chipid
  devs.foldlM (fun s d => p.printRow verbose s ⟨chipid, d, value d⟩) s

/-- The loop over the sockets of `volta_get_power` and its siblings. -/
def eachSocket {σ : Type} (node : GpuNode) (call : Nat → σ → Option σ) (s : σ) : Option σ :=
  (List.range node.sockets).foldlM (fun s iter => call iter s) s

/-- A call of an API function: the form, and what the driver stores. -/
structure PrintCall (V : Type) where
  verbose : Bool
  value : Int → V

/-- Calls one after the other. -/
def runCalls (p : Printer (DeviceRow V)) (node : GpuNode) (s : Bool × List Char)
    (calls : List (PrintCall V)) : Option (Bool × List Char) :=
  calls.foldlM (fun s call => eachSocket node (getData p node call.value call.verbose) s) s

/-! ### The rows of a call -/

/-- The number of devices of a socket. -/
def perSocket (node : GpuNode) : Nat := node.devices.toNat / node.sockets

/-- The rows of a call in order, each device below its socket.  The devices are the first
`sockets * (devices / sockets)` of the node; those that a division leaves over are not
among them. -/
def deviceRows (node : GpuNode) (value : Int → V) : List (DeviceRow V) :=
  (List.range (node.sockets * perSocket node)).map fun d => ⟨d / perSocket node, d, value d⟩

/-- The rows of a run, each in the form of its call. -/
def runRows (node : GpuNode) (calls : List (PrintCall V)) : List (Bool × DeviceRow V) :=
  calls.flatMap fun call => (deviceRows node call.value).map (call.verbose, ·)

section Rows

variable {node : GpuNode} {p : Printer (DeviceRow V)} {σ : Type}

/-- The rows of a block, numbered by their devices. -/
theorem range'_rows {ρ : Type} (node : GpuNode) (row : Nat → Int → ρ) (chipid : Nat) :
    ((List.range' (chipid * perSocket node) (perSocket node)).map Int.ofNat).map (row chipid) =
      (List.range' (chipid * perSocket node) (perSocket node)).map
        fun d => row (d / perSocket node) d := by
  rw [List.map_map]
  refine List.map_congr_left fun d hd => ?_
  obtain ⟨hle, hlt⟩ := List.mem_range'_1.mp hd
  have hdiv : d / perSocket node = chipid :=
    Nat.div_eq_of_lt_le hle (by rwa [Nat.succ_mul])
  simp only [Function.comp_apply, hdiv, Int.ofNat_eq_natCast]

/-- A loop over the sockets that does something for each row of a block does it for the rows of
all devices. -/
theorem eachSocket_eq {ρ : Type} (f : σ → ρ → Option σ) (row : Nat → Int → ρ)
    (hnode : node.devices.toNat < 2 ^ 31) (s : σ) :
    eachSocket node (fun chipid s => do
        let devs ← node.block chipid
        devs.foldlM (fun s d => f s (row chipid d)) s) s =
      ((List.range (node.sockets * perSocket node)).map
        fun d => row (d / perSocket node) d).foldlM f s := by
  have hturn : ∀ chipid < node.sockets, ∀ s : σ,
      (do
        let devs ← node.block chipid
        devs.foldlM (fun s d => f s (row chipid d)) s) =
      ((List.range' (chipid * perSocket node) (perSocket node)).map
        fun d => row (d / perSocket node) d).foldlM f s := by
    intro chipid hc s
    rw [GpuNode.block_eq hnode hc, ← range'_rows, List.foldlM_map]
    rfl
  have hloop : ∀ k ≤ node.sockets, ∀ s : σ,
      (List.range k).foldlM (fun s chipid => do
        let devs ← node.block chipid
        devs.foldlM (fun s d => f s (row chipid d)) s) s =
      (((List.range k).flatMap fun c => List.range' (c * perSocket node) (perSocket node)).map
        fun d => row (d / perSocket node) d).foldlM f s := by
    intro k hk s
    induction k with
    | zero => rfl
    | succ k ih =>
        rw [List.range_succ, List.foldlM_append, ih (Nat.le_of_succ_le hk), List.flatMap_append,
          List.map_append, List.foldlM_append, List.flatMap_singleton]
        refine congrArg _ (funext fun s => ?_)
        rw [List.foldlM_cons, hturn k hk]
        exact bind_pure _
  rw [eachSocket, hloop node.sockets le_rfl, ← flatMap_blocks]

/-- A call prints the rows of its devices. -/
theorem getData_eachSocket (hnode : node.devices.toNat < 2 ^ 31) (call : PrintCall V)
    (s : Bool × List Char) :
    eachSocket node (getData p node call.value call.verbose) s =
      p.printRows s ((deviceRows node call.value).map (call.verbose, ·)) := by
  rw [Printer.printRows, List.foldlM_map]
  exact eachSocket_eq (fun s row => p.printRow call.verbose s row)
    (fun chipid d => ⟨chipid, d, call.value d⟩) hnode s

/-- A run prints the rows of its calls. -/
theorem runCalls_eq (hnode : node.devices.toNat < 2 ^ 31) (calls : List (PrintCall V))
    (s : Bool × List Char) : runCalls p node s calls = p.printRows s (runRows node calls) := by
  induction calls generalizing s with
  | nil => rfl
  | cons call calls ih =>
      have hrest : ∀ s, calls.foldlM
          (fun s call => eachSocket node (getData p node call.value call.verbose) s) s =
          p.printRows s (runRows node calls) := ih
      rw [runCalls, List.foldlM_cons, getData_eachSocket hnode, runRows, List.flatMap_cons,
        Printer.printRows_append]
      exact congrArg _ (funext hrest)

end Rows

/-! ### Runs of the nine functions -/

section Runs

variable {node : GpuNode} {host : List Char}

/-- The text of a row; one without a defined behaviour counts as none. -/
def GpuTable.rowText (table : GpuTable) (host : List Char)
    (row : Bool × DeviceRow table.Value) : List Char :=
  ((table.printer host).rowText row).getD []

theorem rowText_isSome_iff (table : GpuTable) (host : List Char)
    (row : Bool × DeviceRow table.Value) :
    ((table.printer host).rowText row).isSome ↔ (table = .intelClocks → row.1 = false) := by
  obtain ⟨verbose, row⟩ := row
  cases verbose with
  | false => exact iff_of_true rfl fun _ => rfl
  | true =>
      by_cases htable : table = .intelClocks
      · subst htable
        simp [Printer.rowText, GpuTable.printer, IntelGpu.getClocksData]
      · refine iff_of_true ?_ fun h => absurd h htable
        cases table <;> first | rfl | exact absurd rfl htable

/-- There is a device below some socket iff there is one below each. -/
theorem deviceRows_eq_nil_iff (value : Int → V) :
    deviceRows node value = [] ↔ perSocket node = 0 := by
  have hpos := node.sockets_pos
  rw [deviceRows, List.map_eq_nil_iff, List.range_eq_nil, Nat.mul_eq_zero]
  omega

theorem mem_runRows {calls : List (PrintCall V)} {row : Bool × DeviceRow V} :
    row ∈ runRows node calls ↔
      ∃ call ∈ calls, row.1 = call.verbose ∧ row.2 ∈ deviceRows node call.value := by
  obtain ⟨verbose, row⟩ := row
  simp only [runRows, List.mem_flatMap, List.mem_map, Prod.mk.injEq]
  constructor
  · rintro ⟨call, hcall, row', hrow', rfl, rfl⟩
    exact ⟨call, hcall, rfl, hrow'⟩
  · rintro ⟨call, hcall, rfl, hrow⟩
    exact ⟨call, hcall, row, hrow, rfl, rfl⟩

/-- A row of a form is printed iff there are devices and a call of that form. -/
theorem exists_runRows_iff {calls : List (PrintCall V)} (verbose : Bool) :
    (∃ row ∈ runRows node calls, row.1 = verbose) ↔
      perSocket node ≠ 0 ∧ ∃ call ∈ calls, call.verbose = verbose := by
  constructor
  · rintro ⟨row, hrow, hform⟩
    obtain ⟨call, hcall, hverbose, hmem⟩ := mem_runRows.mp hrow
    refine ⟨fun hnone => ?_, call, hcall, hverbose ▸ hform⟩
    rw [(deviceRows_eq_nil_iff call.value).mpr hnone] at hmem
    exact absurd hmem List.not_mem_nil
  · rintro ⟨hdevices, call, hcall, hform⟩
    obtain ⟨row, hrow⟩ := List.exists_mem_of_ne_nil _
      (mt (deviceRows_eq_nil_iff call.value).mp hdevices)
    exact ⟨(call.verbose, row), mem_runRows.mpr ⟨call, hcall, rfl, hrow⟩, hform⟩

/-- **Runs of calls.**  A run has a defined behaviour unless Intel's clocks of some device are
printed verbosely.  It prints the devices that every call gets to in order, call after call,
and the names of the columns once, above the first terse row. -/
theorem gpuTables_run (table : GpuTable) (host : List Char) (hnode : node.devices.toNat < 2 ^ 31)
    (calls : List (PrintCall table.Value)) :
    ((runCalls (table.printer host) node (false, []) calls).isSome ↔
      (table = .intelClocks → perSocket node ≠ 0 → ∀ call ∈ calls, call.verbose = false)) ∧
    ∀ flag out, runCalls (table.printer host) node (false, []) calls = some (flag, out) →
      (flag = true ↔ perSocket node ≠ 0 ∧ ∃ call ∈ calls, call.verbose = false) ∧
        out = (table.printer host).underHead (table.rowText host) (runRows node calls) := by
  rw [runCalls_eq hnode]
  constructor
  -- the verbose form of the clocks is the only row without a text
  · rw [Printer.printRows_isSome_iff]
    constructor
    · intro h htable hdevices call hcall
      obtain ⟨row, hrow, hform⟩ :=
        (exists_runRows_iff call.verbose).mpr ⟨hdevices, call, hcall, rfl⟩
      rw [← hform]
      exact (rowText_isSome_iff table host row).mp (h row hrow) htable
    · intro h row hrow
      refine (rowText_isSome_iff table host row).mpr fun htable => ?_
      obtain ⟨hdevices, call, hcall, hform⟩ :=
        (exists_runRows_iff row.1).mp ⟨row, hrow, rfl⟩
      rw [← hform]
      exact h htable hdevices call hcall
  · intro flag out hrun
    have htexts : ∀ row ∈ runRows node calls,
        (table.printer host).rowText row = some (table.rowText host row) := by
      have hsome := (Printer.printRows_isSome_iff (p := table.printer host) (false, [])).mp
        (Option.isSome_of_eq_some hrun)
      intro row hrow
      obtain ⟨text, htext⟩ := Option.isSome_iff_exists.mp (hsome row hrow)
      rw [GpuTable.rowText, htext]
      rfl
    rw [Printer.printRows_eq htexts, List.nil_append] at hrun
    obtain ⟨rfl, rfl⟩ := Prod.mk.inj (Option.some.inj hrun)
    refine ⟨?_, rfl⟩
    rw [← exists_runRows_iff false, List.any_eq_true]
    simp only [Bool.not_eq_true']

/-- Two sockets with a device each. -/
def twoDevices : GpuNode where
  devices := 2
  sockets := 2
  sockets_pos := Nat.two_pos
  sockets_lt := GpuNode.two_lt

/-- A verbose call before a terse one, and one of a function that has no verbose form. -/
theorem gpuTables_run_two :
    (runCalls (GpuTable.nvidiaThermal.printer "n1".toList) twoDevices (false, [])
      [⟨true, fun _ => (40 : BitVec 32)⟩, ⟨false, fun _ => (41 : BitVec 32)⟩]).isSome ∧
    ¬ (runCalls (GpuTable.intelClocks.printer "n1".toList) twoDevices (false, [])
      [⟨true, fun _ => (300 : Int)⟩]).isSome := by
  constructor
  · refine (gpuTables_run .nvidiaThermal _ (by decide) _).1.mpr fun h => ?_
    cases h
  · intro h
    have hterse := (gpuTables_run .intelClocks _ (by decide) _).1.mp h rfl (by decide)
    exact absurd (hterse _ List.mem_cons_self) (by decide)

/-! ### Reading the terse lines -/

theorem isWord_of_number {text : List Char}
    (h : ∀ c ∈ text, c.isDigit = true ∨ c = '-' ∨ c = '.') : IsWord text := by
  intro c hc
  constructor
  · rintro rfl
    exact absurd (h _ hc) (by decide)
  · rintro rfl
    exact absurd (h _ hc) (by decide)

theorem isWord_decimal (n : Nat) : IsWord (decimal n) :=
  isWord_of_number fun _ hc => .inl (isDigit_of_mem_decimal hc)

theorem isWord_decimalInt (x : Int) : IsWord (decimalInt x) :=
  isWord_of_number fun _ hc => (of_mem_decimalInt hc).imp_right .inl

theorem isWord_fixed (places : Nat) (x : Rat) : IsWord (fixed places x) :=
  isWord_of_number fun _ hc => of_mem_fixed hc

/-- The first four fields and some numbers make a row. -/
theorem isRow_placeFields {tag : List Char} (htag : IsWord tag) (hhost : IsWord host)
    (row : DeviceRow V) {values : List (List Char)} (hvalues : ∀ value ∈ values, IsWord value) :
    IsRow (placeFields tag host row ++ values) := by
  refine ⟨by simp [placeFields], ?_⟩
  intro field hfield
  rcases List.mem_append.mp hfield with hfield | hfield
  · simp only [placeFields, List.mem_cons, List.not_mem_nil, or_false] at hfield
    rcases hfield with rfl | rfl | rfl | rfl
    · exact htag
    · exact hhost
    · exact isWord_decimal _
    · exact isWord_decimalInt _
  · exact hvalues field hfield

theorem isRow_terse (table : GpuTable) (hhost : IsWord host) (row : DeviceRow table.Value) :
    IsRow ((table.printer host).terse row) := by
  cases table with
  | nvidiaUtilization =>
      refine isRow_placeFields (by decide) hhost row fun value hvalue => ?_
      simp only [List.mem_cons, List.not_mem_nil, or_false] at hvalue
      rcases hvalue with rfl | rfl <;> exact isWord_decimalInt _
  | nvidiaThermal | nvidiaClocks | intelClocks | intelPowerLimit =>
      refine isRow_placeFields (by decide) hhost row fun value hvalue => ?_
      obtain rfl := List.mem_singleton.mp hvalue
      exact isWord_decimalInt _
  | nvidiaPower | nvidiaPowerLimits | intelPower | intelThermal =>
      refine isRow_placeFields (by decide) hhost row fun value hvalue => ?_
      obtain rfl := List.mem_singleton.mp hvalue
      exact isWord_fixed _ _

theorem isRow_columns (table : GpuTable) (host : List Char) :
    IsRow (table.printer host).columns := by
  have hhost : (table.printer host).columns = (table.printer []).columns := by
    cases table <;> rfl
  rw [hhost]
  cases table <;> decide

/-- What a reader gets of terse rows below the names. -/
theorem read_terse (table : GpuTable) (hhost : IsWord host)
    (rows : List (DeviceRow table.Value)) :
    read (rows.map fun row => table.rowText host (false, row)).flatten =
      rows.map (table.printer host).terse := by
  have hlines : (rows.map fun row => table.rowText host (false, row)) =
      (rows.map (table.printer host).terse).map line := by
    rw [List.map_map]
    rfl
  rw [hlines, read_lines]
  intro fields hfields
  obtain ⟨row, -, rfl⟩ := List.mem_map.mp hfields
  exact isRow_terse table hhost row

/-- Names that end in a newline are a line of their own. -/
theorem columnsEnd_eq {table : GpuTable} (h : table ≠ .intelPowerLimit) :
    (table.printer host).columnsEnd = ['\n'] := by
  cases table <;> first | rfl | exact absurd rfl h

/-- Intel's power limits lose the line of the names, and the first row with it. -/
theorem read_intelPowerLimit (hhost : IsWord host)
    (row : DeviceRow GpuTable.intelPowerLimit.Value)
    (rows : List (DeviceRow GpuTable.intelPowerLimit.Value)) :
    (read ((GpuTable.intelPowerLimit.printer host).head ++ ((row :: rows).map fun row =>
      GpuTable.rowText .intelPowerLimit host (false, row)).flatten)).length
      = (row :: rows).length := by
  have hterse := isRow_terse .intelPowerLimit hhost row
  let values := ((GpuTable.intelPowerLimit.printer host).terse row).tail
  have hglue : (GpuTable.intelPowerLimit.printer host).head ++
      GpuTable.rowText .intelPowerLimit host (false, row) =
      line (placeColumns "_INTEL_GPU_POWER_LIMIT".toList ++
        ("GPU_Power_limit_mW".toList ++ "_INTEL_GPU_POWER_LIMIT".toList) :: values) := by
    rw [Printer.head, show (GpuTable.intelPowerLimit.printer host).columnsEnd = [] from rfl,
      List.append_nil]
    exact blanks_append_line _ _ _ _
  have hrow : IsRow (placeColumns "_INTEL_GPU_POWER_LIMIT".toList ++
      ("GPU_Power_limit_mW".toList ++ "_INTEL_GPU_POWER_LIMIT".toList) :: values) := by
    refine ⟨by simp, ?_⟩
    intro field hfield
    rcases List.mem_append.mp hfield with hfield | hfield
    · exact (isRow_columns .intelPowerLimit host).2 field (List.mem_append_left _ hfield)
    · rcases List.mem_cons.mp hfield with rfl | hfield
      · decide
      · exact hterse.2 field (List.mem_of_mem_tail hfield)
  rw [List.map_cons, List.flatten_cons, ← List.append_assoc, hglue, read_line_append hrow,
    read_terse .intelPowerLimit hhost rows, List.length_cons, List.length_map, List.length_cons]

/-- **Reading a table.**  After terse calls, a reader that takes the text apart at newlines and
blanks gets the names of the columns and then every row as it was printed, from every table but
Intel's power limits.  With fewer devices than sockets there is nothing to read. -/
theorem gpuTables_read (table : GpuTable) (hhost : IsWord host)
    (hnode : node.devices.toNat < 2 ^ 31) (hdevices : perSocket node ≠ 0)
    {calls : List (PrintCall table.Value)} (hcalls : calls ≠ [])
    (hterse : ∀ call ∈ calls, call.verbose = false) :
    ∃ out, runCalls (table.printer host) node (false, []) calls = some (true, out) ∧
      (read out = (table.printer host).columns ::
          (calls.flatMap fun call => deviceRows node call.value).map (table.printer host).terse ↔
        table ≠ .intelPowerLimit) := by
  have hrows : runRows node calls =
      (calls.flatMap fun call => deviceRows node call.value).map (false, ·) := by
    rw [runRows, List.map_flatMap]
    exact List.flatMap_congr fun call hcall => by rw [hterse call hcall]
  have hmem : ∃ row ∈ runRows node calls, row.1 = false := by
    obtain ⟨call, hcall⟩ := List.exists_mem_of_ne_nil _ hcalls
    exact (exists_runRows_iff false).mpr ⟨hdevices, call, hcall, hterse call hcall⟩
  have htexts : ∀ row ∈ runRows node calls,
      (table.printer host).rowText row = some (table.rowText host row) := by
    intro row hrow
    rw [hrows] at hrow
    obtain ⟨row, -, rfl⟩ := List.mem_map.mp hrow
    rfl
  have hform : ∀ row ∈ runRows node calls, row.1 = false := by
    intro row hrow
    rw [hrows] at hrow
    obtain ⟨row, -, rfl⟩ := List.mem_map.mp hrow
    rfl
  -- a run of terse calls with devices has terse rows, so the names are printed
  have hany : (runRows node calls).any (!·.1) = true := by
    rw [List.any_eq_true]
    simpa only [Bool.not_eq_true'] using hmem
  have hne : runRows node calls ≠ [] := by
    obtain ⟨row, hrow, -⟩ := hmem
    exact List.ne_nil_of_mem hrow
  refine ⟨(table.printer host).underHead (table.rowText host) (runRows node calls), ?_, ?_⟩
  · rw [runCalls_eq hnode, Printer.printRows_eq htexts, hany, List.nil_append]
  rw [Printer.underHead_of_terse hform hne, hrows, List.map_map]
  generalize (calls.flatMap fun call => deviceRows node call.value) = rows at hrows ⊢
  constructor
  -- the line of names of this table has no end, so the first row is read as part of it
  · rintro hread rfl
    cases rows with
    | nil => exact hne (by rw [hrows, List.map_nil])
    | cons row rows =>
        have hlen := congrArg List.length hread
        have hglued := read_intelPowerLimit hhost row rows
        have heq := hglued.symm.trans hlen
        simp at heq
  · intro htable
    rw [Printer.head, columnsEnd_eq htable]
    rw [show blanks (table.printer host).columns ++ ['\n'] = line (table.printer host).columns
      from rfl, read_line_append (isRow_columns table host)]
    exact congrArg _ (read_terse table hhost rows)

/-- Two temperatures come back from the text that was printed of them. -/
theorem gpuTables_read_two :
    ∃ out, runCalls (GpuTable.nvidiaThermal.printer "n1".toList) twoDevices (false, [])
        [⟨false, fun d => BitVec.ofInt 32 (40 + d)⟩] = some (true, out) ∧
      read out = ["_NVIDIA_GPU_TEMPERATURE Host Socket DeviceID Temperature_C",
        "_NVIDIA_GPU_TEMPERATURE n1 0 0 40", "_NVIDIA_GPU_TEMPERATURE n1 1 1 41"].map
          fun text : String => Table.fieldsOf text.toList := by
  have hterse : ∀ call ∈ ([⟨false, fun d => BitVec.ofInt 32 (40 + d)⟩] :
      List (PrintCall GpuTable.nvidiaThermal.Value)), call.verbose = false := by
    intro call hcall
    rw [List.mem_singleton.mp hcall]
  obtain ⟨out, hrun, hread⟩ := gpuTables_read .nvidiaThermal (show IsWord "n1".toList by decide)
    (show twoDevices.devices.toNat < 2 ^ 31 by decide) (by decide) (List.cons_ne_nil _ _) hterse
  refine ⟨out, hrun, ?_⟩
  rw [hread.mpr (by decide)]
  decide

end Runs

end Variorum.GpuTables
