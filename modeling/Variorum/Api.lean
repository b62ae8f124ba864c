/-
Variorum/Api.lean

The public API functions.

Each of them calls `variorum_enter`, does its work over the platform table and
calls `variorum_exit`; whatever fails makes it return -1 (`callApi`).  The work
has few shapes, and most functions share one, a loop over the platforms.  Four
loops are in use, which differ in what they do at a NULL entry and after a
failed call (`LoopStyle`).  A function is written here as its shape applied to
its own values (`Body`), under its own name.

`none` as the result of a call is a process that has ended: in `init_msr`, over
a NULL function pointer, or in a platform function that exits.

Nothing below depends on what a platform function does.  To see which functions
a call runs, a table can be scripted: entry `i` returns a given result and
leaves a mark `i` on the state (`Platform.scripted`).
-/
import Variorum.Platform

namespace Variorum

/-- `variorum_enter` and `variorum_exit`, as the two calls that an API function makes. -/
structure Lifecycle (σ : Type*) where
  enter : Call σ
  exit : Call σ

/-- How the work of an API function ends: it comes to `variorum_exit`, or
returns before it. -/
inductive BodyEnd
  | finished
  | returned (ret : Int)
  deriving DecidableEq, Repr

/-- The loops over the platform table, by what happens at a NULL entry and
after a failed call: `continue` and `return -1`; `return 0` and `return -1`;
`continue` and a message; a message followed by the call all the same, and a
message. -/
inductive LoopStyle
  | skips
  | stops
  | reports
  | calls
  deriving DecidableEq, Repr

section Bodies

variable {σ : Type*}

/-- A loop over the entries of one feature. -/
def platformLoop (style : LoopStyle) :
    List (Option (Call σ)) → σ → Option (BodyEnd × σ)
  | [], s => some (.finished, s)
  | none :: fs, s =>
      match style with
      | .skips | .reports => platformLoop style fs s
      | .stops => some (.returned 0, s)
      | .calls => none
  | some f :: fs, s =>
      match f s with
      | none => none
      | some (err, s) =>
          if err ≠ 0 ∧ (style = .skips ∨ style = .stops) then some (.returned (-1), s)
          else platformLoop style fs s

/-- The entries of a feature, applied to the arguments of the call. -/
def entries (g : List (Platform σ)) (f : Feature) (args : f.Args) : List (Option (Call σ)) :=
  g.map fun platform => (platform f).map fun fn => fn args

/-- `g_platform[i]`.  The table has room for `maxPlatforms` platforms: an entry that no
platform uses is zero, and behind the last there is none. -/
def gPlatform (g : List (Platform σ)) (i : Nat) : Option (Platform σ) :=
  if i < maxPlatforms then some (g[i]?.getD variorumInitFuncPtrs) else none

/-- The index that a chain of `#ifdef` in a loop over the table picks: that of
the first of `ks` compiled in, else the number of platforms. -/
def Build.pick (b : Build) (ks : List PlatformKind) : Nat :=
  match ks.find? b with
  | some k => b.index k
  | none => b.platforms.length

/-- The platforms that `variorum_get_utilization_json` looks for: those of the GPUs. -/
def gpuKinds : List PlatformKind := [.intelGpu, .nvidiaGpu, .amdGpu]

/-- What `variorum_get_utilization_json` meets in `/proc`: whether `stat` can be
opened and read, and `meminfo` opened. -/
structure ProcFiles where
  statOpens : Bool
  statReads : Bool
  meminfoOpens : Bool

/-- What an API function does between `variorum_enter` and `variorum_exit`:
nothing that concerns the platforms; a loop over the table; the same, `return 0`
on a build without a CPU platform; one call to the primary platform, with the
value returned when its entry is NULL; the utilization of GPU and CPU. -/
inductive Body
  | nothing
  | each (style : LoopStyle) (f : Feature) (args : f.Args)
  | eachWithCpu (style : LoopStyle) (f : Feature) (args : f.Args)
  | onPrimary (ks : List PlatformKind) (retNull : Int) (f : Feature) (args : f.Args)
  | utilization

/-- The CPU part of `variorum_get_utilization_json`. -/
def cpuUtilization (proc : ProcFiles) (s : σ) : BodyEnd × σ :=
  if proc.statOpens = false then (.returned (-1), s)
  else if proc.statReads = false then (.returned (-1), s)
  else if proc.meminfoOpens = false then (.returned (-1), s)
  else (.finished, s)

def Body.run (b : Build) (g : List (Platform σ)) (proc : ProcFiles) :
    Body → σ → Option (BodyEnd × σ)
  | nothing, s => some (.finished, s)
  | each style f args, s => platformLoop style (entries g f args) s
  | eachWithCpu style f args, s =>
      if b.hasCpu then platformLoop style (entries g f args) s else some (.returned 0, s)
  | onPrimary ks retNull f args, s =>
      match gPlatform g (b.pick ks) with
      | none => none
      | some platform =>
          match platform f with
          | none => some (.returned retNull, s)
          | some fn =>
              match fn args s with
              | none => none
              | some (err, s) =>
                  if err ≠ 0 then some (.returned (-1), s) else some (.finished, s)
  | utilization, s =>
      if gpuKinds.any b then
        match gPlatform g (b.pick gpuKinds) with
        | none => none
        | some platform =>
            match platform .getUtilizationJson with
            -- the pointer is not tested
            | none => none
            | some fn =>
                match fn () s with
                | none => none
                | some (ret, s) =>
                    if ret ≠ 0 then some (.returned (-1), s) else some (cpuUtilization proc s)
      else some (cpuUtilization proc s)

/-- An API function: `variorum_enter`, the work of its body over the table, and
`variorum_exit`. -/
def callApi (b : Build) (lc : Lifecycle σ) (g : List (Platform σ)) (proc : ProcFiles)
    (body : Body) : Call σ := fun s =>
  match lc.enter s with
  | none => none
  | some (err, s) =>
      if err ≠ 0 then some (-1, s)
      else
        match body.run b g proc s with
        | none => none
        | some (.returned ret, s) => some (ret, s)
        | some (.finished, s) =>
            match lc.exit s with
            | none => none
            | some (err, s) => if err ≠ 0 then some (-1, s) else some (err, s)

end Bodies

/-! ### The functions -/

def variorumTester : Body := .nothing
def variorumPollPower : Body := .each .skips .pollPower ()
def variorumMonitoring : Body := .each .stops .monitoring ()
def variorumPrintPowerLimit : Body := .each .skips .printPowerLimit (0 : Int)
def variorumPrintVerbosePowerLimit : Body := .each .skips .printPowerLimit (1 : Int)

def variorumCapBestEffortNodePowerLimit (nodePowerLimit : Int) : Body :=
  .onPrimary [.intelCpu, .ibmCpu, .amdCpu] 0 .capBestEffortNodePowerLimit nodePowerLimit

def variorumCapGpuPowerRatio (gpuPowerRatio : Int) : Body :=
  .each .stops .capGpuPowerRatio gpuPowerRatio

def variorumCapEachSocketPowerLimit (socketPowerLimit : Int) : Body :=
  .each .stops .capEachSocketPowerLimit socketPowerLimit

def variorumCapEachCoreFrequencyLimit (coreFreqMhz : Int) : Body :=
  .each .stops .capEachCoreFrequencyLimit coreFreqMhz

def variorumCapSocketFrequencyLimit (socketid socketFreqMhz : Int) : Body :=
  .each .stops .capSocketFrequencyLimit (socketid, socketFreqMhz)

/-- The platform function takes an `unsigned`. -/
def variorumCapEachGpuPowerLimit (gpuPowerLimit : Int) : Body :=
  .each .stops .capEachGpuPowerLimit (BitVec.ofInt 32 gpuPowerLimit)

def variorumPrintFeatures : Body := .each .skips .printFeatures ()
def variorumPrintThermals : Body := .each .skips .printThermals (0 : Int)
def variorumPrintVerboseThermals : Body := .each .skips .printThermals (1 : Int)
def variorumPrintCounters : Body := .each .skips .printCounters (0 : Int)
def variorumPrintVerboseCounters : Body := .each .skips .printCounters (1 : Int)
def variorumPrintFrequency : Body := .each .skips .printFrequency (0 : Int)
def variorumPrintVerboseFrequency : Body := .each .skips .printFrequency (1 : Int)
def variorumPrintPower : Body := .each .skips .printPower (0 : Int)
def variorumPrintVerbosePower : Body := .each .skips .printPower (1 : Int)
def variorumPrintHyperthreading : Body := .nothing
def variorumPrintTurbo : Body := .each .skips .printTurbo ()
def variorumPrintGpuUtilization : Body := .each .skips .printGpuUtilization (0 : Int)
def variorumPrintVerboseGpuUtilization : Body := .each .skips .printGpuUtilization (1 : Int)
def variorumEnableTurbo : Body := .each .stops .enableTurbo ()
def variorumDisableTurbo : Body := .each .stops .disableTurbo ()
def variorumGetPowerJson : Body := .each .skips .getPowerJson ()
def variorumGetUtilizationJson : Body := .utilization

def variorumGetNodePowerDomainInfoJson : Body :=
  .onPrimary [.intelCpu, .ibmCpu, .amdCpu, .armCpu] (-1) .getNodePowerDomainInfoJson ()

def variorumGetThermalsJson : Body := .each .skips .getThermalsJson ()
def variorumGetFrequencyJson : Body := .each .reports .getFrequencyJson ()
def variorumPrintAvailableFrequencies : Body := .each .stops .printAvailableFrequencies ()
def variorumPrintEnergy : Body := .eachWithCpu .stops .printEnergy (0 : Int)
def variorumPrintVerboseEnergy : Body := .eachWithCpu .stops .printEnergy (1 : Int)
def variorumGetEnergyJson : Body := .eachWithCpu .calls .getEnergyJson ()

/-! ### Scripted tables -/

section Scripted

variable {σ : Type*} (mark : Nat → σ → σ)

/-- A platform whose functions return what `results` says, `none` for a NULL
pointer, and mark the state. -/
def Platform.scripted (i : Nat) (results : Feature → Option Int) : Platform σ :=
  fun f => (results f).map fun r _ s => some (r, mark i s)

/-- The platform table for a pattern of results. -/
def scriptedTable (tbl : List (Feature → Option Int)) : List (Platform σ) :=
  tbl.mapIdx (Platform.scripted mark)

/-- The entries of one feature, from position `i` on. -/
def column : Nat → List (Option Int) → List (Option (Call σ))
  | _, [] => []
  | i, r :: rs => (r.map fun r s => some (r, mark i s)) :: column (i + 1) rs

/-- The marks of calls, in order. -/
def marks (calls : List Nat) (s : σ) : σ := calls.foldl (fun s i => mark i s) s

/-- The positions a loop comes to that goes through the implementing platforms
in order and stops behind the first that fails. -/
def upToFailure : Nat → List (Option Int) → List Nat
  | _, [] => []
  | i, none :: rs => upToFailure (i + 1) rs
  | i, some r :: rs => i :: if r ≠ 0 then [] else upToFailure (i + 1) rs

variable {mark}

theorem entries_scriptedTable (tbl : List (Feature → Option Int)) (f : Feature) (args : f.Args) :
    entries (scriptedTable mark tbl) f args = column mark 0 (tbl.map fun results => results f) := by
  suffices h : ∀ i, (tbl.mapIdx fun j => Platform.scripted mark (i + j)).map
      (fun platform => (platform f).map fun fn => fn args)
        = column mark i (tbl.map fun results => results f) by
    have h0 := h 0
    simp only [Nat.zero_add] at h0
    exact h0
  induction tbl with
  | nil => exact fun _ => rfl
  | cons results tbl ih =>
      intro i
      rw [List.mapIdx_cons, List.map_cons, List.map_cons, column]
      congr 1
      · show ((results f).map _).map _ = _
        rw [Option.map_map]
        rfl
      · rw [← ih (i + 1)]
        congr 2
        funext j
        rw [Nat.add_assoc, Nat.add_comm 1 j]

theorem gPlatform_scriptedTable (tbl : List (Feature → Option Int)) {i : Nat}
    {results : Feature → Option Int} (hroom : i < maxPlatforms) (h : tbl[i]? = some results) :
    gPlatform (scriptedTable mark tbl) i = some (Platform.scripted mark i results) := by
  rw [gPlatform, if_pos hroom, scriptedTable, List.getElem?_mapIdx, h]
  rfl

end Scripted

end Variorum
