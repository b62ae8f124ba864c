/-
Variorum/Lifecycle.lean

`variorum_enter` and `variorum_exit`: what every API call does before and after
its work.

`variorum_enter` detects the architecture of every platform, one allocation
each, fills the function table and, on a build for Intel CPUs, opens the MSR
device of every CPU.  `variorum_exit` closes the devices and frees the
allocations.  `Proc` is what the process holds of both.  A descriptor or an
allocation is named by the `variorum_enter` it comes from and the CPU or
platform it is for: no call makes two of one kind.

`init_msr` starts with the msr_safe module if the allowlist can be used, and
goes over to the stock module for the rest of the CPUs where a device of
msr_safe cannot be opened.  `MsrFiles.moduleFor` says which module is in use
once some CPUs are open, `initMsr_spec` what a run of `init_msr` leaves.

Both functions keep their status in one variable that every step assigns, so
the last step speaks for all (`Status.overwritten`).
-/
import Mathlib.Data.Finset.Basic
import Mathlib.Logic.Function.Basic
import Variorum.Error
import Variorum.Platform
import Variorum.Status

namespace Variorum

/-! ### The device files -/

/-- What `stat` and `open` make of a path: no such file, no read and write
permission for the owner, an `open` that fails, a file that can be used. -/
inductive DeviceFile
  | missing
  | denied
  | unopenable
  | usable
  deriving DecidableEq, Repr

/-- `kerneltype`: 0 for msr_safe, 1 for the stock module, 3 before the allowlist
has been looked at. -/
inductive KernelType
  | msrSafe
  | msr
  | unknown
  deriving DecidableEq, Repr

/-- The files of the MSR modules: the allowlist and the device of each CPU. -/
structure MsrFiles where
  allowlist : DeviceFile
  safe : Nat → DeviceFile
  stock : Nat → DeviceFile

/-- The device of a CPU in the module in use. -/
def MsrFiles.device (files : MsrFiles) : KernelType → Nat → DeviceFile
  | .msrSafe => files.safe
  | _ => files.stock

/-- `stat_module`: its return value, `*kerneltype` and `*dev_idx` after it. -/
def statModule (file : DeviceFile) (kerneltype : KernelType) (devIdx : Int) :
    Int × KernelType × Int :=
  match kerneltype, file with
  | .unknown, .missing => (-1, .msr, devIdx)
  | .unknown, .denied => (-1, .msr, devIdx)
  | .unknown, _ => (0, .msrSafe, devIdx)
  | .msrSafe, .missing => (0, .msr, -1)
  | .msr, .missing => (VariorumError.raplInit.code, .msr, devIdx)
  -- the second test asks whether the pointer is NULL, not which module it names
  | _, .denied => (VariorumError.msrModule.code, .msr, -1)
  | kerneltype, _ => (0, kerneltype, devIdx)

/-! ### What the process holds -/

/-- A number in the table of `core_fd`: one `init_msr` did not put there (or
the zero `finalize_msr` leaves), the `-1` of a failed `open`, a descriptor. -/
inductive Slot
  | stale
  | failed
  | fd (x : Nat × Nat)
  deriving DecidableEq, Repr

/-- Descriptors by the call of `variorum_enter` that opened them and their CPU;
allocations of `variorum_detect_arch` by the call and the platform.  `freed`
counts how often an allocation was freed; `entered` and `exited` count the
calls of `variorum_enter` that returned 0 and those of `variorum_exit`. -/
structure Proc where
  serial : Nat
  slot : Nat → Slot
  fds : Finset (Nat × Nat)
  archId : PlatformKind → Option (Nat × PlatformKind)
  blocks : Finset (Nat × PlatformKind)
  freed : Nat × PlatformKind → Nat
  entered : Nat
  exited : Nat

/-- The process before its first call of the library. -/
def Proc.start : Proc :=
  { serial := 0, slot := fun _ => .stale, fds := ∅, archId := fun _ => none, blocks := ∅
    freed := fun _ => 0, entered := 0, exited := 0 }

namespace Proc

/-- The descriptor that this call of `variorum_enter` gets for a CPU. -/
def openSlot (p : Proc) (dev : Nat) : Proc :=
  { p with
    slot := Function.update p.slot dev (.fd (p.serial, dev))
    fds := insert (p.serial, dev) p.fds }

/-- A failed `open`: the slot holds -1. -/
def failSlot (p : Proc) (dev : Nat) : Proc :=
  { p with slot := Function.update p.slot dev .failed }

/-- `free`; nothing happens to a NULL pointer. -/
def free (p : Proc) : Option (Nat × PlatformKind) → Proc
  | none => p
  | some x => { p with freed := Function.update p.freed x (p.freed x + 1) }

end Proc

/-! ### init_msr -/

/-- How a turn of the loop of `init_msr` ends. -/
inductive InitTurnEnd
  | opened (kerneltype : KernelType)
  | again
  | returned (ret : Int)
  | fault

/-- One turn of the loop of `init_msr`, for one CPU. -/
def initTurn (files : MsrFiles) (kerneltype : KernelType) (dev : Nat) (p : Proc) :
    InitTurnEnd × Proc :=
  let file := files.device kerneltype dev
  let (ret, kerneltype, devIdx) := statModule file kerneltype dev
  if ret < 0 then (.returned (-1), p)
  -- `core_fd` answers NULL for a negative index, and the result of `open` is stored there
  else if devIdx < 0 then (.fault, p)
  else if file = .unopenable then
    if kerneltype = .msrSafe then (.again, p.failSlot dev)
    else (.returned VariorumError.raplInit.code, p.failSlot dev)
  else (.opened kerneltype, p.openSlot dev)

/-- The loop of `init_msr` over the CPUs that are left; `none` is a process that
has died. -/
def initLoop (files : MsrFiles) : KernelType → List Nat → Proc → Option (Int × Proc)
  | _, [], p => some (0, p)
  | kerneltype, dev :: devs, p =>
      match initTurn files kerneltype dev p with
      | (.opened kerneltype, p) => initLoop files kerneltype devs p
      | (.returned ret, p) => some (ret, p)
      | (.fault, _) => none
      | (.again, p) =>
          -- `dev_idx--`: the same CPU once more, with the stock module
          match initTurn files .msr dev p with
          | (.opened kerneltype, p) => initLoop files kerneltype devs p
          | (.returned ret, p) => some (ret, p)
          | (_, _) => none

/-- `init_msr`, for `n` CPUs: none where it stores through a NULL pointer. -/
def initMsr (n : Nat) (files : MsrFiles) (p : Proc) : Option (Int × Proc) :=
  -- the return value for the allowlist is not looked at
  let (_, kerneltype, _) := statModule files.allowlist .unknown 0
  initLoop files kerneltype (List.range n) p

/-! ### finalize_msr -/

/-- What `close` does with a descriptor: it closes it, fails and gives it back
to the system all the same, or fails and keeps it. -/
inductive CloseResult
  | closed
  | failedReleased
  | failedKept
  deriving DecidableEq, Repr

/-- What `close` returns for the number in the slot of a CPU. -/
def closeRet (closes : Nat → CloseResult) (dev : Nat) : Slot → Int
  | .failed => -1
  | _ => if closes dev = .closed then 0 else -1

/-- `close` of the number in the slot of a CPU: its return value, and the
process after it. -/
def closeSlot (closes : Nat → CloseResult) (dev : Nat) (p : Proc) : Int × Proc :=
  (closeRet closes dev (p.slot dev),
    { p with
      fds :=
        match p.slot dev with
        | .fd x => if closes dev = .failedKept then p.fds else p.fds.erase x
        | _ => p.fds })

/-- One turn of the loop of `finalize_msr`; the status before it is lost. -/
def finalizeTurn (closes : Nat → CloseResult) (s : Int × Proc) (dev : Nat) : Int × Proc :=
  let (ret, p) := closeSlot closes dev s.2
  if ret ≠ 0 then (ret, p) else (ret, { p with slot := Function.update p.slot dev .stale })

/-- `finalize_msr`, for `n` CPUs: it keeps the result of the last `close`. -/
def finalizeMsr (n : Nat) (closes : Nat → CloseResult) (p : Proc) : Int × Proc :=
  (List.range n).foldl (finalizeTurn closes) (0, p)

/-! ### variorum_enter and variorum_exit -/

/-- What a call of `variorum_enter` meets: whether the architecture of each
platform is detected (a pointer that is not NULL), what the
`set_*_func_ptrs` return, and the MSR files. -/
structure System where
  detect : PlatformKind → Bool
  set : PlatformKind → Int
  files : MsrFiles

/-- One of the assignments of `variorum_detect_arch`. -/
def detectPlatform (sys : System) (p : Proc) (k : PlatformKind) : Proc :=
  if sys.detect k then
    { p with
      archId := Function.update p.archId k (some (p.serial, k))
      blocks := insert (p.serial, k) p.blocks }
  else { p with archId := Function.update p.archId k none }

/-- `variorum_detect_arch`: an identifier for each platform, and an error if one is
missing. -/
def variorumDetectArch (b : Build) (sys : System) (p : Proc) : Int × Proc :=
  let p :=
    ([.intelCpu, .intelGpu, .ibmCpu, .nvidiaGpu, .armCpu, .amdCpu, .amdGpu].filter b).foldl
      (detectPlatform sys) p
  if ∃ k ∈ b.platforms, p.archId k = none then (VariorumError.unsupportedArch.code, p)
  else (0, p)

/-- The platforms that `variorum_set_func_ptrs` comes to after the Intel CPU. -/
def Build.others (b : Build) : List PlatformKind :=
  [PlatformKind.intelGpu, .ibmCpu, .nvidiaGpu, .armCpu, .amdCpu, .amdGpu].filter b

/-- `variorum_set_func_ptrs`: the platforms in order, each of which assigns `err` again. -/
def variorumSetFuncPtrs (b : Build) (n : Nat) (sys : System) (p : Proc) : Option (Int × Proc) :=
  -- every later platform assigns `err` again
  let others (err : Int) : Int := Status.overwritten err (b.others.map sys.set)
  if b .intelCpu then
    if sys.set .intelCpu ≠ 0 then some (sys.set .intelCpu, p)
    else (initMsr n sys.files p).map fun (err, p) => (others err, p)
  else some (others 0, p)

/-- `variorum_enter`, on a node with `n` CPUs. -/
def variorumEnter (b : Build) (n : Nat) (sys : System) (p : Proc) : Option (Int × Proc) :=
  let (err, p) := variorumDetectArch b sys { p with serial := p.serial + 1 }
  if err ≠ 0 then some (err, p)
  else
    (variorumSetFuncPtrs b n sys p).map fun (err, p) =>
      (err, if err = 0 then { p with entered := p.entered + 1 } else p)

/-- `variorum_exit`.  `esmi_exit`, `shutdownNVML` and `shutdownAPMIDG`
return nothing. -/
def variorumExit (b : Build) (n : Nat) (closes : Nat → CloseResult) (p : Proc) : Int × Proc :=
  let p := { p with exited := p.exited + 1 }
  let (err, p) := if b .intelCpu then finalizeMsr n closes p else (0, p)
  if err ≠ 0 then (err, p)
  else (err, b.platforms.foldl (fun p k => p.free (p.archId k)) p)

/-- `variorum_enter` with `g_platform` as it is declared: `variorum_init_func_ptrs` writes to
an entry for every platform of the build, and with more than `MAX_PLATFORMS` behind the
table. -/
def enterTable (b : Build) (n : Nat) (sys : System) (p : Proc) : Option (Int × Proc) :=
  if b.platforms.length ≤ maxPlatforms then variorumEnter b n sys p else none

/-- `variorum_exit` frees what stands in an entry for every platform. -/
def exitTable (b : Build) (n : Nat) (closes : Nat → CloseResult) (p : Proc) :
    Option (Int × Proc) :=
  if b.platforms.length ≤ maxPlatforms then some (variorumExit b n closes p) else none

/-! ### What init_msr leaves -/

/-- The module in use once the devices of the first CPUs are open; `none` if
they cannot all be opened. -/
def MsrFiles.moduleFor (files : MsrFiles) : Nat → Option KernelType
  | 0 => some (statModule files.allowlist .unknown 0).2.1
  | dev + 1 =>
      match files.moduleFor dev with
      | none => none
      | some .msrSafe =>
          match files.safe dev with
          | .usable => some .msrSafe
          | .unopenable => if files.stock dev = .usable then some .msr else none
          | _ => none
      | some _ => if files.stock dev = .usable then some .msr else none

/-- The device of a CPU is opened. -/
def MsrFiles.opens (files : MsrFiles) (dev : Nat) : Bool := (files.moduleFor (dev + 1)).isSome

/-- The process dies over one of the first `n` CPUs: its device of the msr_safe
module, which is in use, does not exist. -/
def MsrFiles.Faults (files : MsrFiles) (n : Nat) : Prop :=
  ∃ dev < n, files.moduleFor dev = some .msrSafe ∧ files.safe dev = .missing

/-- What `init_msr` does for a CPU, with the turns before it left aside: nothing
if it has given up. -/
def MsrFiles.turn (files : MsrFiles) (p : Proc) (dev : Nat) : Proc :=
  match files.moduleFor (dev + 1), files.moduleFor dev with
  | some _, _ => p.openSlot dev
  | none, some kerneltype =>
      if files.device kerneltype dev = .unopenable then p.failSlot dev else p
  | none, none => p

section InitMsr

variable {files : MsrFiles} {kerneltype : KernelType} {n dev : Nat} {devs : List Nat} {p : Proc}

theorem MsrFiles.moduleFor_ne_unknown : files.moduleFor dev ≠ some .unknown := by
  cases dev with
  | zero =>
      unfold moduleFor
      rcases files.allowlist <;> decide
  | succ dev =>
      unfold moduleFor
      split
      · exact nofun
      · split
        · decide
        · split <;> decide
        · exact nofun
      · split <;> decide

theorem MsrFiles.moduleFor_succ_of_none (h : files.moduleFor dev = none) :
    files.moduleFor (dev + 1) = none := by
  simp only [moduleFor, h]

theorem MsrFiles.turn_of_none (h : files.moduleFor dev = none) : files.turn p dev = p := by
  simp only [turn, moduleFor_succ_of_none h, h]

@[simp] theorem Proc.openSlot_failSlot :
    (p.failSlot dev).openSlot dev = p.openSlot dev := by
  unfold Proc.openSlot Proc.failSlot
  rw [Function.update_idem]

@[simp] theorem Proc.failSlot_failSlot :
    (p.failSlot dev).failSlot dev = p.failSlot dev := by
  unfold Proc.failSlot
  rw [Function.update_idem]

/-- A turn with the stock module. -/
theorem initTurn_msr :
    initTurn files .msr dev p
      = match files.stock dev with
        | .missing => (.returned (-1), p)
        | .denied => (.returned (-1), p)
        | .unopenable => (.returned VariorumError.raplInit.code, p.failSlot dev)
        | .usable => (.opened .msr, p.openSlot dev) := by
  have hdev : ¬ (dev : Int) < 0 := Int.not_lt.mpr (Int.natCast_nonneg dev)
  cases h : files.stock dev <;>
    simp [initTurn, MsrFiles.device, statModule, h, VariorumError.code_neg, hdev]

/-- A turn with the msr_safe module. -/
theorem initTurn_msrSafe :
    initTurn files .msrSafe dev p
      = match files.safe dev with
        | .missing => (.fault, p)
        | .denied => (.returned (-1), p)
        | .unopenable => (.again, p.failSlot dev)
        | .usable => (.opened .msrSafe, p.openSlot dev) := by
  have hdev : ¬ (dev : Int) < 0 := Int.not_lt.mpr (Int.natCast_nonneg dev)
  cases h : files.safe dev <;>
    simp [initTurn, MsrFiles.device, statModule, h, VariorumError.code_neg, hdev]

theorem MsrFiles.moduleFor_succ_msr (h : files.moduleFor dev = some .msr) :
    files.moduleFor (dev + 1) = if files.stock dev = .usable then some .msr else none := by
  simp only [moduleFor, h]

theorem MsrFiles.moduleFor_succ_msrSafe (h : files.moduleFor dev = some .msrSafe) :
    files.moduleFor (dev + 1)
      = match files.safe dev with
        | .usable => some .msrSafe
        | .unopenable => if files.stock dev = .usable then some .msr else none
        | _ => none := by
  simp only [moduleFor, h]

/-- Where the device can be opened, the loop goes on to the next CPU. -/
theorem initLoop_of_some (hdev : files.moduleFor dev = some kerneltype) {kerneltype' : KernelType}
    (hnext : files.moduleFor (dev + 1) = some kerneltype') :
    initLoop files kerneltype (dev :: devs) p
      = initLoop files kerneltype' devs (files.turn p dev) := by
  have hturn : files.turn p dev = p.openSlot dev := by simp only [MsrFiles.turn, hnext]
  rw [hturn]
  cases kerneltype with
  | unknown => exact absurd hdev MsrFiles.moduleFor_ne_unknown
  | msr =>
      rw [MsrFiles.moduleFor_succ_msr hdev] at hnext
      obtain ⟨hstock, hmsr⟩ := Option.ite_none_right_eq_some.mp hnext
      obtain rfl := Option.some.inj hmsr
      simp only [initLoop, initTurn_msr, hstock]
  | msrSafe =>
      rw [MsrFiles.moduleFor_succ_msrSafe hdev] at hnext
      cases hsafe : files.safe dev <;> rw [hsafe] at hnext
      case missing => cases hnext
      case denied => cases hnext
      case usable =>
        obtain rfl := Option.some.inj hnext
        simp only [initLoop, initTurn_msrSafe, hsafe]
      case unopenable =>
        obtain ⟨hstock, hmsr⟩ := Option.ite_none_right_eq_some.mp hnext
        obtain rfl := Option.some.inj hmsr
        simp only [initLoop, initTurn_msrSafe, hsafe, initTurn_msr, hstock,
          Proc.openSlot_failSlot]

/-- The stock module is the last resort. -/
theorem initTurn_msr_of_ne (h : files.stock dev ≠ .usable) :
    ∃ ret, ret ≠ 0 ∧ initTurn files .msr dev p
      = (.returned ret, if files.stock dev = .unopenable then p.failSlot dev else p) := by
  rw [initTurn_msr]
  cases hstock : files.stock dev with
  | usable => exact absurd hstock h
  | missing => exact ⟨-1, by decide, rfl⟩
  | denied => exact ⟨-1, by decide, rfl⟩
  | unopenable => exact ⟨_, VariorumError.code_ne_zero .raplInit, rfl⟩

/-- Where it cannot, and the process survives it, `init_msr` fails. -/
theorem initLoop_of_none (hdev : files.moduleFor dev = some kerneltype)
    (hnext : files.moduleFor (dev + 1) = none)
    (hlive : ¬ (kerneltype = .msrSafe ∧ files.safe dev = .missing)) :
    ∃ ret, ret ≠ 0 ∧ initLoop files kerneltype (dev :: devs) p = some (ret, files.turn p dev) := by
  have hturn : files.turn p dev
      = if files.device kerneltype dev = .unopenable then p.failSlot dev else p := by
    simp only [MsrFiles.turn, hnext, hdev]
  rw [hturn]
  cases kerneltype with
  | unknown => exact absurd hdev MsrFiles.moduleFor_ne_unknown
  | msr =>
      rw [MsrFiles.moduleFor_succ_msr hdev] at hnext
      have hne : files.stock dev ≠ .usable := by simpa using hnext
      obtain ⟨ret, hret, hrun⟩ := initTurn_msr_of_ne (p := p) hne
      refine ⟨ret, hret, ?_⟩
      simp only [initLoop, hrun]
      rfl
  | msrSafe =>
      rw [MsrFiles.moduleFor_succ_msrSafe hdev] at hnext
      cases hsafe : files.safe dev <;> rw [hsafe] at hnext
      case missing => exact absurd ⟨rfl, hsafe⟩ hlive
      case usable => cases hnext
      case denied =>
        refine ⟨-1, by decide, ?_⟩
        simp only [initLoop, initTurn_msrSafe, hsafe, MsrFiles.device, reduceCtorEq, if_false]
      case unopenable =>
        -- once more with the stock module, which cannot be opened either
        have hne : files.stock dev ≠ .usable := by simpa using hnext
        obtain ⟨ret, hret, hrun⟩ := initTurn_msr_of_ne (p := p.failSlot dev) hne
        refine ⟨ret, hret, ?_⟩
        simp only [initLoop, initTurn_msrSafe, hsafe, hrun, MsrFiles.device, if_true,
          Proc.failSlot_failSlot, ite_self]

/-- Once it has given up, nothing more happens. -/
theorem MsrFiles.foldl_turn_of_none (h : files.moduleFor dev = none) (m : Nat) :
    (List.range' dev m).foldl files.turn p = p := by
  induction m generalizing dev with
  | zero => rfl
  | succ m ih =>
      rw [List.range'_succ, List.foldl_cons, turn_of_none h]
      exact ih (moduleFor_succ_of_none h)

/-- The loop from CPU `dev` on, where it starts with the module in use there. -/
theorem initLoop_spec (m : Nat) (hdev : files.moduleFor dev = some kerneltype)
    (hlive : ¬ files.Faults (dev + m)) :
    ∃ ret, (ret = 0 ↔ files.moduleFor (dev + m) ≠ none) ∧
      initLoop files kerneltype (List.range' dev m) p
        = some (ret, (List.range' dev m).foldl files.turn p) := by
  induction m generalizing dev kerneltype p with
  | zero => exact ⟨0, by simp [hdev], rfl⟩
  | succ m ih =>
      rw [List.range'_succ, List.foldl_cons]
      have harith : dev + (m + 1) = dev + 1 + m := by omega
      rw [harith] at hlive ⊢
      rcases hnext : files.moduleFor (dev + 1) with - | kerneltype'
      · have hnone : files.moduleFor (dev + 1 + m) = none := by
          clear hlive harith ih
          induction m with
          | zero => exact hnext
          | succ m ih => exact MsrFiles.moduleFor_succ_of_none ih
        have hsafe : ¬ (kerneltype = .msrSafe ∧ files.safe dev = .missing) :=
          fun h => hlive ⟨dev, by omega, h.1 ▸ hdev, h.2⟩
        obtain ⟨ret, hret, hrun⟩ := initLoop_of_none hdev hnext hsafe
        refine ⟨ret, iff_of_false hret (fun h => h hnone), ?_⟩
        rw [hrun, MsrFiles.foldl_turn_of_none hnext]
      · rw [initLoop_of_some hdev hnext]
        exact ih hnext hlive

/-- The loop dies where the process does. -/
theorem initLoop_of_faults (m : Nat) (hdev : files.moduleFor dev = some kerneltype)
    (hfault : ∃ d, dev ≤ d ∧ d < dev + m ∧ files.moduleFor d = some .msrSafe ∧
      files.safe d = .missing) :
    initLoop files kerneltype (List.range' dev m) p = none := by
  induction m generalizing dev kerneltype p with
  | zero =>
      obtain ⟨d, hge, hlt, -⟩ := hfault
      omega
  | succ m ih =>
      rw [List.range'_succ]
      obtain ⟨d, hge, hlt, hmod, hmissing⟩ := hfault
      rcases Nat.eq_or_lt_of_le hge with rfl | hgt
      · obtain rfl : kerneltype = .msrSafe := Option.some.inj (hdev.symm.trans hmod)
        simp only [initLoop, initTurn_msrSafe, hmissing]
      · -- a later CPU: this one was opened
        rcases hnext : files.moduleFor (dev + 1) with - | kerneltype'
        · exfalso
          have hnone : ∀ k, files.moduleFor (dev + 1 + k) = none := by
            intro k
            induction k with
            | zero => exact hnext
            | succ k ih => exact MsrFiles.moduleFor_succ_of_none ih
          have := hnone (d - (dev + 1))
          rw [Nat.add_sub_cancel' hgt, hmod] at this
          cases this
        · rw [initLoop_of_some hdev hnext]
          exact ih hnext ⟨d, hgt, by omega, hmod, hmissing⟩

theorem initMsr_eq :
    initMsr n files p
      = initLoop files (statModule files.allowlist .unknown 0).2.1 (List.range' 0 n) p := by
  rw [← List.range_eq_range']
  rfl

theorem initMsr_of_faults (h : files.Faults n) : initMsr n files p = none := by
  rw [initMsr_eq]
  obtain ⟨d, hlt, hd⟩ := h
  exact initLoop_of_faults n rfl ⟨d, Nat.zero_le d, by omega, hd⟩

/-- **`init_msr`.**  A process that survives it has the devices open up to the
first one that cannot be opened, and is told whether that is all of them. -/
theorem initMsr_spec (h : ¬ files.Faults n) :
    ∃ ret, (ret = 0 ↔ files.moduleFor n ≠ none) ∧
      initMsr n files p = some (ret, (List.range n).foldl files.turn p) := by
  have hstart : files.moduleFor 0 = some (statModule files.allowlist .unknown 0).2.1 := rfl
  have hspec := initLoop_spec (p := p) n hstart (by rwa [Nat.zero_add])
  rwa [Nat.zero_add, ← initMsr_eq, ← List.range_eq_range'] at hspec

end InitMsr

/-! ### What finalize_msr leaves -/

/-- The descriptor `x` is in the slot of one of the first `n` CPUs, and `close`
gives it back to the system. -/
def Proc.Releases (p : Proc) (n : Nat) (closes : Nat → CloseResult) (x : Nat × Nat) : Prop :=
  ∃ dev < n, p.slot dev = .fd x ∧ closes dev ≠ .failedKept

section FinalizeMsr

variable {closes : Nat → CloseResult} {n dev : Nat} {p q : Proc} {ret : Int}

theorem finalizeTurn_fst :
    (finalizeTurn closes (ret, p) dev).1 = closeRet closes dev (p.slot dev) := by
  unfold finalizeTurn
  show (if closeRet closes dev (p.slot dev) ≠ 0 then _ else _ : Int × Proc).1 = _
  split <;> rfl

theorem finalizeTurn_snd :
    (finalizeTurn closes (ret, p) dev).2
      = if closeRet closes dev (p.slot dev) ≠ 0 then (closeSlot closes dev p).2
        else { (closeSlot closes dev p).2 with slot := Function.update p.slot dev .stale } := by
  unfold finalizeTurn
  show (if closeRet closes dev (p.slot dev) ≠ 0 then _ else _ : Int × Proc).2 = _
  split <;> rfl

/-- A turn touches no slot but its own. -/
theorem finalizeTurn_slot {d : Nat} (h : d ≠ dev) :
    (finalizeTurn closes (ret, p) dev).2.slot d = p.slot d := by
  rw [finalizeTurn_snd]
  split
  · rfl
  · exact Function.update_of_ne h _ _

theorem mem_finalizeTurn_fds {x : Nat × Nat} :
    x ∈ (finalizeTurn closes (ret, p) dev).2.fds ↔
      x ∈ p.fds ∧ ¬ (p.slot dev = .fd x ∧ closes dev ≠ .failedKept) := by
  have hfds : (finalizeTurn closes (ret, p) dev).2.fds = (closeSlot closes dev p).2.fds := by
    rw [finalizeTurn_snd]
    split <;> rfl
  rw [hfds]
  unfold closeSlot
  rcases hslot : p.slot dev with - | - | y
  · simp
  · simp
  · by_cases hkept : closes dev = .failedKept
    · simp [hkept]
    · simp only [hkept, if_false, Finset.mem_erase, Slot.fd.injEq, ne_eq, not_false_eq_true,
        and_true]
      exact ⟨fun h => ⟨h.2, fun hxy => h.1 hxy.symm⟩, fun h => ⟨fun hxy => h.2 hxy.symm, h.1⟩⟩

theorem finalizeTurn_frame :
    (finalizeTurn closes (ret, p) dev).2
      = { p with
          slot := (finalizeTurn closes (ret, p) dev).2.slot
          fds := (finalizeTurn closes (ret, p) dev).2.fds } := by
  rw [finalizeTurn_snd]
  split <;> rfl

/-- **`finalize_msr`.**  It returns the status of the last `close` and leaves
open what no `close` gave back. -/
theorem finalizeMsr_spec (n : Nat) (closes : Nat → CloseResult) (p : Proc) :
    ∃ q, finalizeMsr n closes p
        = (Status.overwritten 0
            ((List.range n).map fun dev => closeRet closes dev (p.slot dev)), q) ∧
      (∀ x, x ∈ q.fds ↔ x ∈ p.fds ∧ ¬ p.Releases n closes x) ∧
      (∀ dev, q.slot dev = p.slot dev ∨ q.slot dev = .stale) ∧
      q = { p with slot := q.slot, fds := q.fds } := by
  -- the slots that are still to come are as they were
  suffices h : ∃ q, finalizeMsr n closes p
        = (Status.overwritten 0
            ((List.range n).map fun dev => closeRet closes dev (p.slot dev)), q) ∧
      (∀ x, x ∈ q.fds ↔ x ∈ p.fds ∧ ¬ p.Releases n closes x) ∧
      (∀ dev, q.slot dev = p.slot dev ∨ (dev < n ∧ q.slot dev = .stale)) ∧
      q = { p with slot := q.slot, fds := q.fds } by
    obtain ⟨q, hrun, hfds, hslot, hframe⟩ := h
    exact ⟨q, hrun, hfds, fun dev => (hslot dev).imp_right And.right, hframe⟩
  induction n with
  | zero => exact ⟨p, rfl, by simp [Proc.Releases], fun _ => .inl rfl, rfl⟩
  | succ n ih =>
      obtain ⟨q, hrun, hfds, hslot, hframe⟩ := ih
      have hnext : q.slot n = p.slot n := (hslot n).resolve_right fun h => Nat.lt_irrefl n h.1
      refine ⟨(finalizeTurn closes (finalizeMsr n closes p) n).2, ?_, ?_, ?_, ?_⟩
      · unfold finalizeMsr at hrun ⊢
        rw [List.range_succ, List.foldl_append, List.map_append, List.map_singleton,
          Status.overwritten_concat, hrun]
        refine Prod.ext ?_ rfl
        show (finalizeTurn closes _ n).1 = _
        rw [finalizeTurn_fst, hnext]
      · intro x
        rw [hrun, mem_finalizeTurn_fds, hfds, hnext, and_assoc]
        refine and_congr_right fun _ => ?_
        unfold Proc.Releases
        constructor
        · rintro ⟨hbefore, hlast⟩ ⟨dev, hlt, h⟩
          rcases Nat.lt_succ_iff_lt_or_eq.mp hlt with hlt | rfl
          · exact hbefore ⟨dev, hlt, h⟩
          · exact hlast h
        · intro h
          exact ⟨fun ⟨dev, hlt, hd⟩ => h ⟨dev, Nat.lt_succ_of_lt hlt, hd⟩,
            fun hn => h ⟨n, Nat.lt_succ_self n, hn⟩⟩
      · intro dev
        rw [hrun]
        by_cases hdev : dev = n
        · subst hdev
          rw [finalizeTurn_snd]
          split
          · exact .inl hnext
          · exact .inr ⟨Nat.lt_succ_self dev, Function.update_self _ _ _⟩
        · rw [finalizeTurn_slot hdev]
          exact (hslot dev).imp_right fun h => ⟨Nat.lt_succ_of_lt h.1, h.2⟩
      · rw [hrun, finalizeTurn_frame, hframe]

end FinalizeMsr

/-! ### What variorum_detect_arch leaves -/

section Detect

variable {b : Build} {sys : System} {ks : List PlatformKind} {p : Proc} {k : PlatformKind}

/-- The pointer to the architecture of a detected platform. -/
def System.arch (sys : System) (serial : Nat) (k : PlatformKind) : Option (Nat × PlatformKind) :=
  if sys.detect k then some (serial, k) else none

theorem foldl_detectPlatform (sys : System) (ks : List PlatformKind) (p : Proc) :
    ∃ q, ks.foldl (detectPlatform sys) p = q ∧
      (∀ k, q.archId k = if k ∈ ks then sys.arch p.serial k else p.archId k) ∧
      (∀ x, x ∈ q.blocks ↔ x ∈ p.blocks ∨ ∃ k ∈ ks, sys.detect k ∧ x = (p.serial, k)) ∧
      q = { p with archId := q.archId, blocks := q.blocks } := by
  -- by induction on the platforms: each writes its own identifier and takes its own block
  induction ks generalizing p with
  | nil => exact ⟨p, rfl, by simp, by simp, rfl⟩
  | cons k ks ih =>
      obtain ⟨q, hrun, harch, hblocks, hframe⟩ := ih (detectPlatform sys p k)
      -- a platform does not start a new call, so the later ones write under the same serial
      have hserial : (detectPlatform sys p k).serial = p.serial := by
        unfold detectPlatform
        split <;> rfl
      have hself : ∀ k', (detectPlatform sys p k).archId k'
          = if k' = k then sys.arch p.serial k else p.archId k' := by
        intro k'
        unfold detectPlatform System.arch
        split <;> exact Function.update_apply _ _ _ _
      refine ⟨q, hrun, fun k' => ?_, fun x => ?_, ?_⟩
      · rw [harch, hself, hserial]
        by_cases hmem : k' ∈ ks
        · simp [hmem]
        · by_cases heq : k' = k
          · simp [heq]
          · simp [hmem, heq]
      · rw [hblocks, hserial]
        have hone : x ∈ (detectPlatform sys p k).blocks ↔
            x ∈ p.blocks ∨ (sys.detect k ∧ x = (p.serial, k)) := by
          unfold detectPlatform
          split
          · rename_i hk
            simp [hk, or_comm]
          · rename_i hk
            simp [hk]
        rw [hone, or_assoc]
        simp only [List.mem_cons, exists_eq_or_imp]
      · rw [hframe]
        unfold detectPlatform
        split <;> rfl

/-- **`variorum_detect_arch`.**  Each compiled platform that is detected gets an
allocation of its own; the call succeeds if all of them are. -/
theorem variorumDetectArch_spec (b : Build) (sys : System) (p : Proc) :
    ∃ err q, variorumDetectArch b sys p = (err, q) ∧
      (err = 0 ↔ ∀ k, b k = true → sys.detect k = true) ∧
      (∀ k, b k = true → q.archId k = sys.arch p.serial k) ∧
      (∀ x, x ∈ q.blocks ↔ x ∈ p.blocks ∨ ∃ k, b k = true ∧ sys.detect k ∧ x = (p.serial, k)) ∧
      q = { p with archId := q.archId, blocks := q.blocks } := by
  obtain ⟨q, hrun, harch, hblocks, hframe⟩ := foldl_detectPlatform sys
    ([PlatformKind.intelCpu, .intelGpu, .ibmCpu, .nvidiaGpu, .armCpu, .amdCpu, .amdGpu].filter b) p
  -- the detection goes through the platforms in an order of its own, but through all of them
  have hmem : ∀ k : PlatformKind, k ∈ [PlatformKind.intelCpu, .intelGpu, .ibmCpu, .nvidiaGpu,
      .armCpu, .amdCpu, .amdGpu].filter b ↔ b k = true := by
    intro k
    rw [List.mem_filter]
    exact and_iff_right (by cases k <;> decide)
  have hcompiled : ∀ k, b k = true → q.archId k = sys.arch p.serial k := by
    intro k hk
    rw [harch, if_pos ((hmem k).mpr hk)]
  -- the check afterwards finds an identifier missing just where a platform was not detected
  have hnull : (∃ k ∈ b.platforms, q.archId k = none) ↔
      ¬ ∀ k, b k = true → sys.detect k = true := by
    rw [not_forall]
    refine exists_congr fun k => ?_
    rw [Build.mem_platforms, Classical.not_imp]
    refine and_congr_right fun hk => ?_
    rw [hcompiled k hk]
    cases hdetect : sys.detect k <;> simp [System.arch, hdetect]
  unfold variorumDetectArch
  simp only [hrun]
  by_cases hall : ∀ k, b k = true → sys.detect k = true
  · refine ⟨0, q, ?_, iff_of_true rfl hall, hcompiled, ?_, hframe⟩
    · rw [if_neg (fun h => hnull.mp h hall)]
    · simpa only [hmem] using hblocks
  · refine ⟨_, q, ?_, iff_of_false (VariorumError.code_ne_zero .unsupportedArch) hall, hcompiled,
      ?_, hframe⟩
    · rw [if_pos (hnull.mpr hall)]
    · simpa only [hmem] using hblocks

/-- A platform that is not detected ends `variorum_enter`; the allocations of
the others stay. -/
theorem variorumEnter_of_undetected (n : Nat) (p : Proc)
    (h : ∃ k, b k = true ∧ sys.detect k = false) :
    ∃ err q, err ≠ 0 ∧ variorumEnter b n sys p = some (err, q) ∧
      (∀ x, x ∈ q.blocks ↔
        x ∈ p.blocks ∨ ∃ k, b k = true ∧ sys.detect k ∧ x = (p.serial + 1, k)) ∧
      q = { p with serial := p.serial + 1, archId := q.archId, blocks := q.blocks } := by
  obtain ⟨err, q, hrun, herr, -, hblocks, hframe⟩ :=
    variorumDetectArch_spec b sys { p with serial := p.serial + 1 }
  have hne : err ≠ 0 := by
    intro hzero
    obtain ⟨k, hk, hfalse⟩ := h
    exact absurd (herr.mp hzero k hk) (by rw [hfalse]; decide)
  refine ⟨err, q, hne, ?_, hblocks, hframe⟩
  simp only [variorumEnter, hrun, if_pos hne]

/-- Once all platforms are detected, `variorum_set_func_ptrs` decides. -/
theorem variorumEnter_of_detected (n : Nat) (p : Proc)
    (h : ∀ k, b k = true → sys.detect k = true) :
    ∃ q, variorumEnter b n sys p
        = (variorumSetFuncPtrs b n sys q).map (fun (err, q) =>
            (err, if err = 0 then { q with entered := q.entered + 1 } else q)) ∧
      (∀ k, b k = true → q.archId k = some (p.serial + 1, k)) ∧
      (∀ x, x ∈ q.blocks ↔ x ∈ p.blocks ∨ ∃ k, b k = true ∧ x = (p.serial + 1, k)) ∧
      q = { p with serial := p.serial + 1, archId := q.archId, blocks := q.blocks } := by
  obtain ⟨err, q, hrun, herr, harch, hblocks, hframe⟩ :=
    variorumDetectArch_spec b sys { p with serial := p.serial + 1 }
  obtain rfl := herr.mpr h
  refine ⟨q, ?_, fun k hk => ?_, fun x => ?_, hframe⟩
  · simp only [variorumEnter, hrun, ne_eq, not_true_eq_false, if_false]
  · rw [harch k hk]
    exact if_pos (h k hk)
  · rw [hblocks]
    refine or_congr_right (exists_congr fun k => and_congr_right fun hk => ?_)
    exact and_iff_right (h k hk)

end Detect

/-! ### What init_msr and variorum_exit do to the tables -/

section Tables

variable {files : MsrFiles} {p : Proc}

theorem MsrFiles.turn_frame (dev : Nat) :
    files.turn p dev
      = { p with slot := (files.turn p dev).slot, fds := (files.turn p dev).fds } := by
  unfold turn
  split
  · rfl
  · split <;> rfl
  · rfl

/-- A turn depends on its own slot and touches no other. -/
theorem MsrFiles.turn_slot (dev d : Nat) :
    (files.turn p dev).slot d = if d = dev then (files.turn p dev).slot dev else p.slot d := by
  by_cases hd : d = dev
  · rw [if_pos hd, hd]
  · rw [if_neg hd]
    unfold turn
    split
    · exact Function.update_of_ne hd _ _
    · split
      · exact Function.update_of_ne hd _ _
      · rfl
    · rfl

theorem MsrFiles.mem_turn_fds (dev : Nat) (x : Nat × Nat) :
    x ∈ (files.turn p dev).fds ↔ x ∈ p.fds ∨ (files.opens dev = true ∧ x = (p.serial, dev)) := by
  unfold turn opens
  split
  · rename_i hsome
    rw [hsome]
    simp [Proc.openSlot, or_comm]
  · rename_i hnone _
    rw [hnone]
    split <;> simp [Proc.failSlot]
  · rename_i hnone _
    rw [hnone]
    simp

/-- What `init_msr` puts into a slot. -/
def MsrFiles.slotAfter (files : MsrFiles) (serial dev : Nat) (old : Slot) : Slot :=
  match files.moduleFor (dev + 1), files.moduleFor dev with
  | some _, _ => .fd (serial, dev)
  | none, some kerneltype => if files.device kerneltype dev = .unopenable then .failed else old
  | none, none => old

theorem MsrFiles.turn_slot_self (dev : Nat) :
    (files.turn p dev).slot dev = files.slotAfter p.serial dev (p.slot dev) := by
  unfold turn slotAfter
  split
  · exact Function.update_self _ _ _
  · split
    · exact Function.update_self _ _ _
    · rfl
  · rfl

/-- The slots and descriptors after the turns for the first `n` CPUs. -/
theorem MsrFiles.foldl_turn_spec (files : MsrFiles) (n : Nat) (p : Proc) :
    ∃ q, (List.range n).foldl files.turn p = q ∧
      (∀ d, q.slot d = if d < n then files.slotAfter p.serial d (p.slot d) else p.slot d) ∧
      (∀ x, x ∈ q.fds ↔ x ∈ p.fds ∨ ∃ d < n, files.opens d = true ∧ x = (p.serial, d)) ∧
      q = { p with slot := q.slot, fds := q.fds } := by
  induction n with
  | zero => exact ⟨p, rfl, by simp, by simp, rfl⟩
  | succ n ih =>
      obtain ⟨q, hrun, hslot, hfds, hframe⟩ := ih
      have hserial : q.serial = p.serial := by rw [hframe]
      refine ⟨files.turn q n, ?_, fun d => ?_, fun x => ?_, ?_⟩
      · rw [List.range_succ, List.foldl_append, hrun]
        rfl
      · rw [turn_slot, turn_slot_self, hserial, hslot n, hslot d, if_neg (Nat.lt_irrefl n)]
        rcases Nat.lt_trichotomy d n with h | rfl | h
        · rw [if_neg (by omega), if_pos h, if_pos (by omega)]
        · rw [if_pos rfl, if_pos (by omega)]
        · rw [if_neg (by omega), if_neg (by omega), if_neg (by omega)]
      · rw [mem_turn_fds, hfds, hserial, or_assoc]
        refine or_congr_right ?_
        simp only [Nat.lt_succ_iff_lt_or_eq, or_and_right, exists_or, exists_eq_left]
      · rw [turn_frame, hframe]

/-- Freeing the allocations of the platforms `ks`. -/
theorem foldl_free_spec {serial : Nat} {ks : List PlatformKind} (hnodup : ks.Nodup)
    (harch : ∀ k ∈ ks, p.archId k = some (serial, k)) :
    ∃ q, ks.foldl (fun p k => p.free (p.archId k)) p = q ∧
      (∀ x, q.freed x = p.freed x + if x.1 = serial ∧ x.2 ∈ ks then 1 else 0) ∧
      q = { p with freed := q.freed } := by
  induction ks generalizing p with
  | nil => exact ⟨p, rfl, by simp, rfl⟩
  | cons k ks ih =>
      obtain ⟨hk, hnodup⟩ := List.nodup_cons.mp hnodup
      have hfree : p.free (p.archId k)
          = { p with freed := Function.update p.freed (serial, k) (p.freed (serial, k) + 1) } := by
        rw [harch k List.mem_cons_self]
        rfl
      obtain ⟨q, hrun, hfreed, hframe⟩ :=
        ih (p := p.free (p.archId k)) hnodup (fun k' hk' => by
          rw [hfree]
          exact harch k' (List.mem_cons_of_mem k hk'))
      refine ⟨q, hrun, fun x => ?_, ?_⟩
      · rw [hfreed, hfree]
        show Function.update p.freed (serial, k) _ x + _ = _
        by_cases hx : x = (serial, k)
        · subst hx
          simp [hk]
        · rw [Function.update_of_ne hx]
          have hmem : (x.1 = serial ∧ x.2 ∈ k :: ks) ↔ (x.1 = serial ∧ x.2 ∈ ks) := by
            refine and_congr_right fun hs => ?_
            rw [List.mem_cons]
            exact or_iff_right fun hxk => hx (Prod.ext hs hxk)
          simp only [hmem]
      · rw [hframe, hfree]

end Tables

end Variorum
