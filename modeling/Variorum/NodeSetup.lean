/-
Variorum/NodeSetup.lean

Which nodes `variorum_enter` accepts, and what their tables then hold.

A build may have several platforms, and each has its own detection and its own
functions.  The processors are looked at, the GPUs and Power9 are taken as they are.
Every platform behind the Intel CPU assigns `err` again, so of these only the last is
asked whether it is known (`enter_accepts_iff`).  Whether a call then finds its
functions is a matter of the build: `variorum_get_energy_json` ends the process on
every build with a CPU and a GPU (`energyJson_ends_iff`).
-/
import Variorum.ArchDetect
import Variorum.LifecycleStatus

namespace Variorum

open Status

section Setup

variable {σ : Type*}

/-! ### The other platforms -/

/-- A platform with one architecture. -/
def setOne (code : Nat) (features : List Feature) (functions : Functions σ) (archId : Nat)
    (p : Platform σ) : Int × Platform σ :=
  if archId = code then (0, p.store features functions)
  else (VariorumError.unsupportedPlatform.code, p)

def detectIbmArch : Nat := 9

def IbmArch.power9 : Nat := 9

def setIbmFuncPtrs (functions : Functions σ) : Nat → Platform σ → Int × Platform σ :=
  setOne IbmArch.power9
    [.printPower, .printPowerLimit, .capBestEffortNodePowerLimit, .capEachSocketPowerLimit,
      .capGpuPowerRatio, .monitoring, .getPowerJson, .getNodePowerDomainInfoJson, .printEnergy,
      .getThermalsJson, .getFrequencyJson, .getEnergyJson] functions

def detectGpuArch : Nat := 1

def NvidiaGpuArch.volta : Nat := 1

def setNvidiaFuncPtrs (functions : Functions σ) : Nat → Platform σ → Int × Platform σ :=
  setOne NvidiaGpuArch.volta
    [.printPower, .printThermals, .printFrequency, .printPowerLimit, .printGpuUtilization,
      .getThermalsJson, .getFrequencyJson, .getUtilizationJson, .capEachGpuPowerLimit,
      .getPowerJson] functions

def detectAmdGpuArch : Nat := 1

def AmdGpuArch.instinct : Nat := 1

def setAmdGpuFuncPtrs (functions : Functions σ) : Nat → Platform σ → Int × Platform σ :=
  setOne AmdGpuArch.instinct
    [.printPower, .printThermals, .printFrequency, .printPowerLimit, .printGpuUtilization,
      .getThermalsJson, .getFrequencyJson, .getUtilizationJson, .capEachGpuPowerLimit,
      .getPowerJson] functions

def detectIntelGpuArch : Nat := 1

def setIntelGpuFuncPtrs (functions : Functions σ) : Nat → Platform σ → Int × Platform σ :=
  setOne 1
    [.printPower, .printThermals, .printFrequency, .capEachGpuPowerLimit, .printPowerLimit]
    functions

/-! ### A node -/

/-- What the detection finds on a node: `rax` after `cpuid`, what `esmi_init` returns, the
files that identify the cores with what stands in the two arrays, and the MSR files. -/
structure Hardware where
  rax : Nat
  esmiInit : Int
  file0 : IdFile
  file1 : IdFile
  stack0 : List Char
  stack1 : List Char
  files : MsrFiles

/-- The functions of all platforms. -/
structure NodeFunctions (σ : Type*) where
  intel : IntelArch → Functions σ
  gpuPowerRatioUnimplemented : Functions σ
  intelGpu : Functions σ
  amd : Functions σ
  amdGpu : Functions σ
  ibm : Functions σ
  nvidia : Functions σ
  arm : ArmSystem → Functions σ

/-- What `detect_arm_arch` finds on this node, if it notices no failure. -/
def Hardware.armId (hw : Hardware) : Option Nat :=
  detectArmArch hw.file0 hw.file1 hw.stack0 hw.stack1

/-- What the `set_*_func_ptrs` of a platform returns, and the entry it leaves. -/
def Hardware.node (hw : Hardware) (functions : NodeFunctions σ) : PlatformKind → Int × Platform σ
  | .intelCpu => intelNode functions.intel functions.gpuPowerRatioUnimplemented hw.rax
  | .intelGpu => enterPlatform (some detectIntelGpuArch) (setIntelGpuFuncPtrs functions.intelGpu)
  | .amdCpu => amdNode functions.amd hw.esmiInit hw.rax
  | .amdGpu => enterPlatform (some detectAmdGpuArch) (setAmdGpuFuncPtrs functions.amdGpu)
  | .ibmCpu => enterPlatform (some detectIbmArch) (setIbmFuncPtrs functions.ibm)
  | .nvidiaGpu => enterPlatform (some detectGpuArch) (setNvidiaFuncPtrs functions.nvidia)
  | .armCpu => armNode functions.arm hw.file0 hw.file1 hw.stack0 hw.stack1

/-- What the calls of `variorum_enter` meet on the node. -/
def Hardware.system (hw : Hardware) (functions : NodeFunctions σ) : System where
  detect k := k ≠ .armCpu ∨ hw.armId ≠ none
  set k := (hw.node functions k).1
  files := hw.files

/-- `g_platform` as the functions that set up the platforms leave it. -/
def Hardware.table (hw : Hardware) (functions : NodeFunctions σ) (b : Build) : List (Platform σ) :=
  b.platforms.map fun k => (hw.node functions k).2

variable {hw : Hardware} {functions : NodeFunctions σ} {b : Build} {n : Nat} {p : Proc}

/-! ### Nodes that are accepted -/

/-- The processor of a platform is known; GPUs and Power9 are not looked at. -/
def Hardware.Known (hw : Hardware) : PlatformKind → Prop
  | .intelCpu => ∃ a : IntelArch, a.code = cpuModel hw.rax
  | .amdCpu => IsEpyc hw.rax
  | .armCpu => ∃ a : ArmSystem, hw.armId = some (2 ^ 12 * a.parts.1 + a.parts.2)
  | _ => True

theorem armNode_fst_iff {functions : ArmSystem → Functions σ} :
    (armNode functions hw.file0 hw.file1 hw.stack0 hw.stack1).1 = 0 ↔ hw.Known .armCpu := by
  have hid : hw.armId = detectArmArch hw.file0 hw.file1 hw.stack0 hw.stack1 := rfl
  rw [armNode, ← hid, Hardware.Known]
  rcases hw.armId with - | id
  · refine iff_of_false (VariorumError.code_ne_zero .unsupportedArch) ?_
    rintro ⟨a, ha⟩
    cases ha
  · by_cases hknown : ∃ a : ArmSystem, id = 2 ^ 12 * a.parts.1 + a.parts.2
    · obtain ⟨a, rfl⟩ := hknown
      refine iff_of_true ?_ ⟨a, rfl⟩
      rw [enterPlatform, setArmFuncPtrs_parts]
    · have hunknown : ¬ ∃ a : ArmSystem, some id = some (2 ^ 12 * a.parts.1 + a.parts.2) := by
        rintro ⟨a, ha⟩
        exact hknown ⟨a, Option.some.inj ha⟩
      refine iff_of_false ?_ hunknown
      rw [enterPlatform, setArmFuncPtrs_unknown functions fun a ha => hknown ⟨a, ha⟩]
      exact VariorumError.code_ne_zero .unsupportedPlatform

theorem node_fst_iff (k : PlatformKind) : (hw.node functions k).1 = 0 ↔ hw.Known k := by
  cases k with
  | intelCpu => exact intelNode_fst_iff
  | amdCpu => exact amdNode_fst_iff
  | armCpu => exact armNode_fst_iff
  | intelGpu | amdGpu | ibmCpu | nvidiaGpu => exact iff_of_true rfl trivial

theorem setFuncPtrs_of_intel {sys : System} (p : Proc) (hintel : b .intelCpu = true)
    (hset : sys.set .intelCpu = 0) :
    variorumSetFuncPtrs b n sys p =
      (initMsr n sys.files p).map fun (err, p) =>
        (overwritten err (b.others.map sys.set), p) := by
  simp [variorumSetFuncPtrs, hintel, hset]

theorem setFuncPtrs_of_refused {sys : System} (p : Proc) (hintel : b .intelCpu = true)
    (hset : sys.set .intelCpu ≠ 0) :
    variorumSetFuncPtrs b n sys p = some (sys.set .intelCpu, p) := by
  simp [variorumSetFuncPtrs, hintel, hset]

theorem setFuncPtrs_of_not_intel {sys : System} (p : Proc) (hintel : ¬ b .intelCpu = true) :
    variorumSetFuncPtrs b n sys p = some (overwritten 0 (b.others.map sys.set), p) := by
  simp [variorumSetFuncPtrs, hintel]

/-- The last platform to assign `err` decides. -/
theorem overwritten_others_iff (hw : Hardware) (functions : NodeFunctions σ) (b : Build)
    {err : Int} {P : Prop} (h : err = 0 ↔ P) :
    overwritten err (b.others.map (hw.system functions).set) = 0 ↔
      b.others.getLast?.elim P hw.Known := by
  rw [overwritten_eq_last, List.getLast?_map]
  rcases b.others.getLast? with - | k
  · exact h
  · exact node_fst_iff k

/-- What `variorum_enter` asks of a build and a node: that there is an entry of the table for
each platform, that each is detected, that an Intel processor is known and its devices do
not end the process, and that the last platform to assign `err` is known; without one it
is left to the MSR devices. -/
def Hardware.Accepted (hw : Hardware) (b : Build) (n : Nat) : Prop :=
  b.platforms.length ≤ maxPlatforms ∧ (b .armCpu = true → hw.armId ≠ none) ∧
    (b .intelCpu = true → hw.Known .intelCpu ∧ ¬ hw.files.Faults n) ∧
    b.others.getLast?.elim (b .intelCpu = true → hw.files.moduleFor n ≠ none) hw.Known

/-- **The nodes that `variorum_enter` accepts**, for every build, every processor, every
pair of identification files and all device files.  The status is that of the last
platform set up, so an unknown AMD or ARM processor is accepted behind which another
platform stands; an unknown Intel processor, or one whose devices end the process, is
not. -/
theorem enter_accepts_iff (hw : Hardware) (functions : NodeFunctions σ) (b : Build) (n : Nat)
    (p : Proc) :
    (∃ q, enterTable b n (hw.system functions) p = some (0, q)) ↔ hw.Accepted b n := by
  rw [enterTable, Hardware.Accepted]
  by_cases htable : b.platforms.length ≤ maxPlatforms
  swap
  · rw [if_neg htable]
    exact iff_of_false (by rintro ⟨q, hq⟩; cases hq) fun h => htable h.1
  rw [if_pos htable, and_iff_right htable]
  -- only an ARM board can go unrecognised: the other platforms always find an identifier
  by_cases hfound : b .armCpu = true ∧ hw.armId = none
  · refine iff_of_false ?_ fun h => h.1 hfound.1 hfound.2
    rintro ⟨q, hq⟩
    have hnone : ∃ k, b k = true ∧ (hw.system functions).detect k = false :=
      ⟨.armCpu, hfound.1, by simp [Hardware.system, hfound.2]⟩
    obtain ⟨err, q', herr, hrun, -⟩ := variorumEnter_of_undetected n p hnone
    rw [hrun] at hq
    exact herr (congrArg Prod.fst (Option.some.inj hq))
  · have harm : b .armCpu = true → hw.armId ≠ none := fun hb hid => hfound ⟨hb, hid⟩
    have hdetect : ∀ k, b k = true → (hw.system functions).detect k = true := by
      intro k hk
      by_cases hk' : k = .armCpu
      · subst hk'
        exact decide_eq_true (Or.inr (harm hk))
      · exact decide_eq_true (Or.inl hk')
    obtain ⟨q, hrun⟩ := variorumEnter_status n p hdetect
    rw [hrun, and_iff_right harm]
    -- the Intel part alone can refuse the model, die in init_msr, or find no device
    by_cases hintel : b .intelCpu = true
    · by_cases hknown : hw.Known .intelCpu
      · have hset : (hw.system functions).set .intelCpu = 0 := (node_fst_iff .intelCpu).mpr hknown
        rw [setFuncPtrs_of_intel q hintel hset]
        by_cases hfault : hw.files.Faults n
        · have hdies : initMsr n (hw.system functions).files q = none := initMsr_of_faults hfault
          rw [hdies]
          refine iff_of_false ?_ fun h => (h.1 hintel).2 hfault
          rintro ⟨q', hq'⟩
          cases hq'
        -- the status of init_msr stands only if no later platform overwrites it
        · obtain ⟨ret, hret, hinit⟩ := initMsr_spec (p := q) hfault
          have hlast := overwritten_others_iff hw functions b
            (hret.trans (imp_iff_right hintel).symm)
          have hinit' : initMsr n (hw.system functions).files q = some (ret, _) := hinit
          rw [hinit', ← hlast, and_iff_right fun _ => ⟨hknown, hfault⟩]
          simp
      · have hset : (hw.system functions).set .intelCpu ≠ 0 := fun h =>
          hknown ((node_fst_iff .intelCpu).mp h)
        rw [setFuncPtrs_of_refused q hintel hset]
        refine iff_of_false ?_ fun h => hknown (h.1 hintel).1
        rintro ⟨q', hq'⟩
        exact hset (congrArg Prod.fst (Option.some.inj hq'))
    · have hlast := overwritten_others_iff hw functions b
        (iff_of_true rfl fun h => absurd h hintel :
          (0 : Int) = 0 ↔ (b .intelCpu = true → hw.files.moduleFor n ≠ none))
      rw [setFuncPtrs_of_not_intel q hintel, ← hlast,
        and_iff_right fun h => absurd h hintel]
      simp

/-! ### Energy -/

/-- The loop that calls every pointer comes to an end where none is NULL. -/
theorem platformLoop_calls_isSome_iff {fs : List (Option (Call σ))}
    (hends : ∀ f, some f ∈ fs → ∀ s, (f s).isSome) (s : σ) :
    (platformLoop .calls fs s).isSome ↔ none ∉ fs := by
  induction fs generalizing s with
  | nil => simp [platformLoop]
  | cons f fs ih =>
      rcases f with - | f
      · simp [platformLoop]
      · obtain ⟨⟨err, s'⟩, hcall⟩ := Option.isSome_iff_exists.mp (hends f List.mem_cons_self s)
        have hstep : platformLoop .calls (some f :: fs) s = platformLoop .calls fs s' := by
          simp [platformLoop, hcall]
        rw [hstep, ih (fun f hf => hends f (List.mem_cons_of_mem _ hf)) s']
        simp

/-- The platforms that have the function. -/
theorem node_getEnergyJson_iff (k : PlatformKind) :
    (hw.node functions k).2 .getEnergyJson ≠ none ↔
      k = .ibmCpu ∨ k = .intelCpu ∧ cpuModel hw.rax ∈ [63, 79, 85] := by
  -- only the Intel table depends on the model; of the others one sets the function
  cases k with
  | intelCpu =>
      have hhas := IntelArch.codes_iff (.getEnergyJson ∈ ·.features) (cpuModel hw.rax)
      have hmodel : (∃ a : IntelArch, a.code = cpuModel hw.rax ∧ .getEnergyJson ∈ a.features) ↔
          cpuModel hw.rax ∈ [63, 79, 85] := hhas
      rw [Hardware.node, ne_eq, intelNode_eq_none_iff, ← hmodel]
      simp
  | ibmCpu => exact iff_of_true (by intro h; cases h) (Or.inl rfl)
  | intelGpu | amdGpu | nvidiaGpu => exact iff_of_false (not_not_intro rfl) (by simp)
  | amdCpu =>
      refine iff_of_false (not_not_intro ?_) (by simp)
      by_cases hepyc : IsEpyc hw.rax
      · rw [Hardware.node, amdNode_of_epyc hepyc, Platform.store_init_eq_none]
        split_ifs <;> decide
      · rw [Hardware.node, amdNode_of_other hepyc]
        rfl
  | armCpu =>
      refine iff_of_false (not_not_intro ?_) (by simp)
      rw [Hardware.node, armNode]
      rcases detectArmArch hw.file0 hw.file1 hw.stack0 hw.stack1 with - | id
      · rfl
      · rw [enterPlatform, setArmFuncPtrs]
        split_ifs
        · rw [Platform.store_init_eq_none]
          decide
        · rw [Platform.store_init_eq_none]
          decide
        · rfl

/-- **On which builds and nodes `variorum_get_energy_json` comes to an end**, once
`variorum_enter` has returned 0: those without a CPU, where nothing is called, and those where
every platform is Power9 or an Intel CPU that has the function.  A GPU next to a CPU is
enough for a NULL pointer to be called. -/
theorem energyJson_ends_iff (hw : Hardware) (functions : NodeFunctions σ) (b : Build)
    (proc : ProcFiles)
    (hends : ∀ k fn, (hw.node functions k).2 .getEnergyJson = some fn → ∀ s, (fn () s).isSome)
    (s : σ) :
    (callApi b (.succeeding σ) (hw.table functions b) proc variorumGetEnergyJson s).isSome ↔
      (b.hasCpu = true → ∀ k, b k = true →
        k = .ibmCpu ∨ k = .intelCpu ∧ cpuModel hw.rax ∈ [63, 79, 85]) := by
  have hrun : variorumGetEnergyJson.run b (hw.table functions b) proc s =
      if b.hasCpu then platformLoop .calls (entries (hw.table functions b) .getEnergyJson ()) s
      else some (.returned 0, s) := rfl
  rw [callApi_succeeding, Option.isSome_map, hrun]
  by_cases hcpu : b.hasCpu = true
  · rw [if_pos hcpu, imp_iff_right hcpu, platformLoop_calls_isSome_iff]
    · have hmem : none ∈ entries (hw.table functions b) .getEnergyJson () ↔
          ∃ k, b k = true ∧ (hw.node functions k).2 .getEnergyJson = none := by
        simp [entries, Hardware.table, Build.mem_platforms]
      rw [hmem, not_exists]
      exact forall_congr' fun k =>
        not_and.trans (imp_congr_right fun _ => node_getEnergyJson_iff k)
    · intro f hf
      simp only [entries, Hardware.table, List.map_map, List.mem_map, Function.comp_apply] at hf
      obtain ⟨k, -, hk⟩ := hf
      obtain ⟨fn, hfn, rfl⟩ := Option.map_eq_some_iff.mp hk
      exact hends k fn hfn
  · rw [if_neg hcpu]
    exact iff_of_true rfl fun h => absurd h hcpu

/-- Platform functions that return 0 and do nothing. -/
def NodeFunctions.idle : NodeFunctions Unit where
  intel _ _ _ s := some (0, s)
  gpuPowerRatioUnimplemented _ _ s := some (0, s)
  intelGpu _ _ s := some (0, s)
  amd _ _ s := some (0, s)
  amdGpu _ _ s := some (0, s)
  ibm _ _ s := some (0, s)
  nvidia _ _ s := some (0, s)
  arm _ _ _ s := some (0, s)

/-- A node whose detection finds nothing that is known. -/
def Hardware.bare (file : DeviceFile) : Hardware :=
  ⟨0, 0, ⟨none, none⟩, ⟨none, none⟩, [], [], ⟨file, fun _ => file, fun _ => file⟩⟩

/-- On a Power9 alone the call comes to an end. -/
theorem energyJson_ends_power9 :
    (callApi (fun k => k == .ibmCpu) (.succeeding Unit)
      ((Hardware.bare .missing).table .idle fun k => k == .ibmCpu) ⟨true, true, true⟩
      variorumGetEnergyJson ()).isSome := by
  have hends : ∀ k fn, ((Hardware.bare .missing).node NodeFunctions.idle k).2 .getEnergyJson =
      some fn → ∀ s, (fn () s).isSome := by
    intro k fn hfn s
    have hk : k = .ibmCpu := by
      rcases (node_getEnergyJson_iff k).mp (by rw [hfn]; simp) with hk | ⟨-, hmodel⟩
      · exact hk
      · exact absurd hmodel (by decide)
    subst hk
    cases hfn
    rfl
  exact (energyJson_ends_iff _ NodeFunctions.idle (fun k => k == .ibmCpu) ⟨true, true, true⟩
    hends ()).mpr fun _ k hk => Or.inl (eq_of_beq hk)

end Setup

end Variorum
