/-
Variorum/Platform.lean

The platforms a build is made of and the table of their functions.

The macros `VARIORUM_WITH_*` decide which platforms are compiled in, and with
them the members of `enum supported_platforms_e`: the table `g_platform` has
one entry for each, in the order of the enumeration, as far as its two entries
go.  An entry has one function pointer for each feature, and a platform without
the feature leaves it NULL.

A build with more than two platforms writes behind the table as soon as
`variorum_enter` is called.  What is said of the work of the API functions
supposes that `variorum_enter` has succeeded, and with it a build of at most two.

A platform function takes the arguments of its feature and changes the state of
the process, `σ`; it may also end the process.  Where it writes its output to a
stream or into a JSON object, that argument is left out.
-/
import Mathlib.Data.List.Nodup
import Mathlib.Tactic.TypeStar

namespace Variorum

/-- The members `enum supported_platforms_e` can have. -/
inductive PlatformKind
  | intelCpu
  | intelGpu
  | amdCpu
  | amdGpu
  | ibmCpu
  | nvidiaGpu
  | armCpu
  deriving DecidableEq, Repr

/-- Which of the macros `VARIORUM_WITH_*` are defined. -/
abbrev Build := PlatformKind → Bool

/-- `enum supported_platforms_e`: the platforms of a build in the order of
`g_platform`. -/
def Build.platforms (b : Build) : List PlatformKind :=
  [PlatformKind.intelCpu, .intelGpu, .amdCpu, .amdGpu, .ibmCpu, .nvidiaGpu, .armCpu].filter b

theorem Build.mem_platforms {b : Build} {k : PlatformKind} : k ∈ b.platforms ↔ b k = true := by
  unfold Build.platforms
  rw [List.mem_filter]
  exact and_iff_right (by cases k <;> decide)

theorem Build.nodup_platforms (b : Build) : b.platforms.Nodup :=
  List.Nodup.filter _ (by decide)

/-- The index `P_*_IDX` of a platform in `g_platform`. -/
def Build.index (b : Build) (k : PlatformKind) : Nat := b.platforms.idxOf k

/-- `has_cpu` of the energy calls. -/
def Build.hasCpu (b : Build) : Bool := b .intelCpu || b .amdCpu || b .ibmCpu

/-- The function pointers of `struct platform`. -/
inductive Feature
  | pollPower
  | monitoring
  | printPowerLimit
  | capBestEffortNodePowerLimit
  | capSocketFrequencyLimit
  | capGpuPowerRatio
  | capEachSocketPowerLimit
  | capEachCoreFrequencyLimit
  | capEachGpuPowerLimit
  | printFeatures
  | printThermals
  | printCounters
  | printFrequency
  | printPower
  | enableTurbo
  | disableTurbo
  | printTurbo
  | printGpuUtilization
  | getUtilizationJson
  | getPowerJson
  | getNodePowerDomainInfoJson
  | getFrequencyJson
  | getThermalsJson
  | printAvailableFrequencies
  | printEnergy
  | getEnergyJson
  deriving DecidableEq, Repr

/-- The arguments of a platform function. -/
def Feature.Args : Feature → Type
  | printPowerLimit | printThermals | printCounters | printFrequency | printPower
  | printGpuUtilization | printEnergy => Int
  | capBestEffortNodePowerLimit | capGpuPowerRatio | capEachSocketPowerLimit
  | capEachCoreFrequencyLimit => Int
  | capSocketFrequencyLimit => Int × Int
  | capEachGpuPowerLimit => BitVec 32
  | _ => Unit

/-- A call that returns an `int` and changes the state; `none` is a process that
has ended. -/
abbrev Call (σ : Type*) := σ → Option (Int × σ)

/-- An entry of `g_platform`; `none` is a NULL pointer. -/
abbrev Platform (σ : Type*) := (f : Feature) → Option (f.Args → Call σ)

/-- `MAX_PLATFORMS`, the number of entries of `g_platform`. -/
def maxPlatforms : Nat := 2

/-- An entry as `variorum_init_func_ptrs` leaves it. -/
def variorumInitFuncPtrs {σ : Type*} : Platform σ := fun _ => none

end Variorum
