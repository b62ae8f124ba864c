/-
Variorum/ArchDetect.lean

Which processors a platform is set up for.

`variorum_enter` detects the architecture and then stores the functions of that
architecture in the entry of the platform.  On Intel and AMD the architecture is
taken from the fields of `cpuid`, on ARM from the files that show the register
`MIDR_EL1` of the first two cores.  What is tested is less than what the register
holds: Intel does not look at the family (`intelNode_iff`), AMD does not look at the
low half of the model (`amdNode_iff`), and ARM looks at the part numbers only, and at
nothing in a register from 2^63 on, where `strtol` stops (`armNode_iff`).

Where an architecture lacks a function, a call of the API either returns 0 and does
nothing (`socketCap_silent_iff`) or calls a NULL pointer (`energyJson_none_iff`).
-/
import Variorum.ApiDispatch
import Variorum.Error
import Variorum.HexText

namespace Variorum

open CString

/-! ### Storing functions -/

section Store

variable {σ : Type*}

/-- The functions that somebody has written for a platform. -/
abbrev Functions (σ : Type*) := (f : Feature) → f.Args → Call σ

/-- Assignments to the function pointers of an entry. -/
def Platform.store (features : List Feature) (functions : Functions σ) (p : Platform σ) :
    Platform σ := fun f => if f ∈ features then some (functions f) else p f

/-- The part of `variorum_enter` for one platform: the functions are set where
`variorum_detect_arch` has found an architecture. -/
def enterPlatform (archId : Option Nat) (setFuncPtrs : Nat → Platform σ → Int × Platform σ) :
    Int × Platform σ :=
  match archId with
  | none => (VariorumError.unsupportedArch.code, variorumInitFuncPtrs)
  | some archId => setFuncPtrs archId variorumInitFuncPtrs

theorem Platform.store_eq_none {features : List Feature} {functions : Functions σ}
    {p : Platform σ} {f : Feature} :
    p.store features functions f = none ↔ f ∉ features ∧ p f = none := by
  rw [Platform.store]
  by_cases hf : f ∈ features
  · simp [hf]
  · simp [hf]

theorem Platform.store_init_eq_none {features : List Feature} {functions : Functions σ}
    {f : Feature} : variorumInitFuncPtrs.store features functions f = none ↔ f ∉ features := by
  rw [Platform.store_eq_none]
  exact and_iff_left rfl

end Store

/-! ### Intel -/

/-- The architectures of `set_intel_func_ptrs`. -/
inductive IntelArch
  | fm062A
  | fm062D
  | fm063E
  | fm063F
  | fm064F
  | fm0655
  | fm069E
  | fm066A
  | fm068F
  deriving DecidableEq, Repr

namespace IntelArch

/-- `FM_06_*`, the extended model and the model as `set_intel_func_ptrs` compares them. -/
def code : IntelArch → Nat
  | fm062A => 42
  | fm062D => 45
  | fm063E => 62
  | fm063F => 63
  | fm064F => 79
  | fm0655 => 85
  | fm069E => 158
  | fm066A => 106
  | fm068F => 143

/-- In the order in which they are tried. -/
def all : List IntelArch :=
  [fm062A, fm062D, fm063E, fm063F, fm064F, fm0655, fm069E, fm066A, fm068F]

/-- What the first seven have in common. -/
def commonFeatures : List Feature :=
  [.printPowerLimit, .capEachSocketPowerLimit, .printFeatures, .printThermals, .printCounters,
    .printFrequency, .printPower, .printEnergy, .pollPower, .monitoring, .getPowerJson,
    .getNodePowerDomainInfoJson, .capBestEffortNodePowerLimit, .printAvailableFrequencies,
    .getThermalsJson]

/-- The turbo functions, which the first five have.  For 06_55 and 06_9E their assignments
are commented out. -/
def turboFeatures : List Feature := [.printTurbo, .enableTurbo, .disableTurbo]

/-- The function pointers that are set for an architecture. -/
def features : IntelArch → List Feature
  | fm062A | fm062D | fm063E => commonFeatures ++ turboFeatures ++ [.getFrequencyJson]
  | fm063F => commonFeatures ++ turboFeatures ++ [.getEnergyJson]
  | fm064F => commonFeatures ++ turboFeatures ++ [.getFrequencyJson, .getEnergyJson]
  | fm0655 => commonFeatures ++ [.capEachCoreFrequencyLimit, .getFrequencyJson, .getEnergyJson]
  | fm069E => commonFeatures ++ [.getFrequencyJson]
  | fm066A => [.printPowerLimit, .printFeatures, .printPower, .printEnergy]
  | fm068F => [.printPowerLimit, .printFeatures, .printPower, .printEnergy, .getPowerJson,
      .getNodePowerDomainInfoJson, .monitoring]

end IntelArch

/-- `detect_intel_arch`, with what `cpuid` leaves in `rax`. -/
def detectIntelArch (rax : Nat) : Nat := ((rax >>> 12) &&& 0xF0) ||| ((rax >>> 4) &&& 0xF)

/-- `set_intel_func_ptrs`, with the functions of each architecture and
`gpu_power_ratio_unimplemented`. -/
def setIntelFuncPtrs {σ : Type*} (functions : IntelArch → Functions σ)
    (gpuPowerRatioUnimplemented : Functions σ) (archId : Nat) (p : Platform σ) :
    Int × Platform σ :=
  let p := p.store [.capGpuPowerRatio] gpuPowerRatioUnimplemented
  match IntelArch.all.find? fun a => a.code == archId with
  | some a => (0, p.store a.features (functions a))
  | none => (VariorumError.unsupportedPlatform.code, p)

/-! ### AMD -/

/-- `detect_amd_arch`, with what `cpuid` leaves in `rax`. -/
def detectAmdArch (rax : Nat) : Nat :=
  ((((rax >>> 8) &&& 0xf) + ((rax >>> 20) &&& 0xff)) <<< 8 |||
    (((rax >>> 16) &&& 0xf) * 0x10 + ((rax >>> 4) &&& 0xf))) &&& 0xFFFF

/-- The function pointers that are set where `esmi_init` succeeds. -/
def amdFeatures : List Feature :=
  [.printPower, .printPowerLimit, .capEachSocketPowerLimit, .capBestEffortNodePowerLimit,
    .printEnergy, .printFrequency, .capEachCoreFrequencyLimit, .capSocketFrequencyLimit,
    .getPowerJson, .getNodePowerDomainInfoJson, .getFrequencyJson]

/-- `set_amd_func_ptrs`, with what `esmi_init` returns. -/
def setAmdFuncPtrs {σ : Type*} (functions : Functions σ) (esmiInit : Int) (archId : Nat)
    (p : Platform σ) : Int × Platform σ :=
  let family := (archId >>> 8) &&& 0xFF
  let model := archId &&& 0xFF
  if family = 0x19 then
    if model ≤ 0xF ∨ 0x30 ≤ model ∧ model ≤ 0x3F then
      if esmiInit = 0 then (esmiInit, p.store amdFeatures functions)
      else (0, p.store [.printEnergy] functions)
    else (VariorumError.unsupportedPlatform.code, p)
  else (VariorumError.unsupportedPlatform.code, p)

/-! ### ARM -/

/-- A file with the identification of a core: the descriptor that `open` gives it, and the
text unless it cannot be read. -/
structure IdFile where
  fd : Option Nat
  text : Option (List Char)

/-- `read(fd, str, CPU_ID_SIZE)`: what it returns, and the array, with what stood there. -/
def IdFile.readStr (file : IdFile) (stack : List Char) : Int × List Char :=
  match file.fd, file.text with
  | some _, some text => ((text.take 64).length, text.take 64 ++ stack.drop (text.take 64).length)
  | _, _ => (-1, stack)

/-- The descriptor as an `int`. -/
def IdFile.descriptor (file : IdFile) : Int := file.fd.elim (-1) Nat.cast

/-- A `long` as `uint64_t`: negative ones are counted from `2^64` down. -/
def ulong (v : Int) : Nat := (v % 2 ^ 64).toNat

/-- The combined identification of two cores. -/
def armModel (cpu0IdVal cpu1IdVal : Nat) : Nat :=
  (cpu0IdVal &&& 0xfff0) <<< 8 ||| (cpu1IdVal &&& 0xfff0) >>> 4

/-- `detect_arm_arch`, with the two arrays as they are found; `none` is the NULL of an error. -/
def detectArmArch (file0 file1 : IdFile) (stack0 stack1 : List Char) : Option Nat :=
  if file0.descriptor = 0 ∨ file1.descriptor = 0 then none
  else
    let (bytes0, str0) := file0.readStr stack0
    let (bytes1, str1) := file1.readStr stack1
    if bytes0 = 0 ∨ bytes1 = 0 then none
    else some (armModel (ulong (strtolHex str0)) (ulong (strtolHex str1)))

def armCortexA72 : Nat := 0xd08
def armCortexA53 : Nat := 0xd03
def armNeoverseN1 : Nat := 0xd0c

/-- The systems of `set_arm_func_ptrs`. -/
inductive ArmSystem
  | junoR2
  | neoverseN1
  deriving DecidableEq, Repr

/-- The function pointers that are set for a system. -/
def ArmSystem.features : ArmSystem → List Feature
  | junoR2 => [.printPower, .printThermals, .printFrequency, .printAvailableFrequencies,
      .capSocketFrequencyLimit, .getPowerJson, .getNodePowerDomainInfoJson]
  | neoverseN1 => [.printPower, .printThermals, .printFrequency, .capSocketFrequencyLimit,
      .getPowerJson, .getNodePowerDomainInfoJson]

/-- `set_arm_func_ptrs`, with the functions of each system. -/
def setArmFuncPtrs {σ : Type*} (functions : ArmSystem → Functions σ) (archId : Nat)
    (p : Platform σ) : Int × Platform σ :=
  if archId = armCortexA53 <<< 12 ||| armCortexA72 then
    (0, p.store ArmSystem.junoR2.features (functions .junoR2))
  else if archId = armNeoverseN1 <<< 12 ||| armNeoverseN1 then
    (0, p.store ArmSystem.neoverseN1.features (functions .neoverseN1))
  else (VariorumError.unsupportedPlatform.code, p)

/-! ### Which processors -/

section Nodes

variable {σ : Type*}

/-- The extended model and the model of a processor. -/
def cpuModel (rax : Nat) : Nat := 2 ^ 4 * bitField 16 4 rax + bitField 4 4 rax

/-- The family and the extended family of a processor. -/
def cpuFamily (rax : Nat) : Nat := bitField 8 4 rax + bitField 20 8 rax

/-- The part number in `MIDR_EL1`. -/
def partNum (midr : Nat) : Nat := bitField 4 12 midr

theorem detectIntelArch_eq (rax : Nat) : detectIntelArch rax = cpuModel rax := by
  have hhigh : (rax >>> 12) &&& 0xF0 = bitField 16 4 rax <<< 4 := by
    rw [← bitField_shiftRight 4 4 12 rax]
    exact and_mask (rax >>> 12) 4 4
  have hlow : (rax >>> 4) &&& 0xF = bitField 4 4 rax := by
    rw [← bitField_shiftRight 0 4 4 rax]
    exact and_lowMask (rax >>> 4) 4
  rw [detectIntelArch, hhigh, hlow, or_field _ (bitField_lt 4 4 rax), cpuModel]

theorem IntelArch.find_code (a : IntelArch) :
    (IntelArch.all.find? fun b => b.code == a.code) = some a := by
  cases a <;> rfl

theorem IntelArch.find_none {n : Nat} (h : ∀ a : IntelArch, a.code ≠ n) :
    (IntelArch.all.find? fun a => a.code == n) = none := by
  rw [List.find?_eq_none]
  intro a _
  simpa using h a

theorem IntelArch.code_injective {a b : IntelArch} (h : a.code = b.code) : a = b := by
  cases a <;> cases b <;> first | rfl | cases h

/-- The entry of an Intel platform, and what `set_intel_func_ptrs` returns. -/
def intelNode (functions : IntelArch → Functions σ) (unimplemented : Functions σ) (rax : Nat) :
    Int × Platform σ :=
  enterPlatform (some (detectIntelArch rax)) (setIntelFuncPtrs functions unimplemented)

variable {functions : IntelArch → Functions σ} {unimplemented : Functions σ} {rax : Nat}

theorem intelNode_of_code {a : IntelArch} (h : a.code = cpuModel rax) :
    intelNode functions unimplemented rax =
      (0, (variorumInitFuncPtrs.store [.capGpuPowerRatio] unimplemented).store a.features
        (functions a)) := by
  rw [intelNode, enterPlatform, detectIntelArch_eq, ← h, setIntelFuncPtrs,
    IntelArch.find_code]

theorem intelNode_of_unknown (h : ∀ a : IntelArch, a.code ≠ cpuModel rax) :
    intelNode functions unimplemented rax =
      (VariorumError.unsupportedPlatform.code,
        variorumInitFuncPtrs.store [.capGpuPowerRatio] unimplemented) := by
  rw [intelNode, enterPlatform, detectIntelArch_eq, setIntelFuncPtrs, IntelArch.find_none h]

/-- A known processor gets the functions of its own architecture. -/
theorem intelNode_eq_some {a : IntelArch} (h : a.code = cpuModel rax) {f : Feature}
    (hf : f ∈ a.features) :
    (intelNode functions unimplemented rax).2 f = some (functions a f) := by
  rw [intelNode_of_code h]
  exact if_pos hf

/-- What is missing: what the architecture does not have, and on an unknown processor all,
but for the refusal of a GPU power ratio. -/
theorem intelNode_eq_none_iff {f : Feature} :
    (intelNode functions unimplemented rax).2 f = none ↔ f ≠ .capGpuPowerRatio ∧
      ∀ a : IntelArch, a.code = cpuModel rax → f ∉ a.features := by
  by_cases hknown : ∃ a : IntelArch, a.code = cpuModel rax
  · obtain ⟨a, ha⟩ := hknown
    rw [intelNode_of_code ha, Platform.store_eq_none, Platform.store_init_eq_none,
      List.mem_singleton]
    constructor
    · rintro ⟨hf, hratio⟩
      refine ⟨hratio, fun b hb => ?_⟩
      rwa [IntelArch.code_injective (hb.trans ha.symm)]
    · rintro ⟨hratio, hf⟩
      exact ⟨hf a ha, hratio⟩
  · have hunknown : ∀ a : IntelArch, a.code ≠ cpuModel rax := fun a ha => hknown ⟨a, ha⟩
    rw [intelNode_of_unknown hunknown, Platform.store_init_eq_none, List.mem_singleton]
    exact ⟨fun hratio => ⟨hratio, fun a ha => absurd ha (hunknown a)⟩, And.left⟩

theorem intelNode_fst_iff :
    (intelNode functions unimplemented rax).1 = 0 ↔ ∃ a : IntelArch, a.code = cpuModel rax := by
  by_cases hknown : ∃ a : IntelArch, a.code = cpuModel rax
  · obtain ⟨a, ha⟩ := hknown
    exact iff_of_true (by rw [intelNode_of_code ha]) ⟨a, ha⟩
  · refine iff_of_false ?_ hknown
    rw [intelNode_of_unknown fun a ha => hknown ⟨a, ha⟩]
    exact VariorumError.code_ne_zero .unsupportedPlatform

/-- **The processors an Intel build is set up for**: those with one of nine models, of any
family.  Each gets the functions of its own architecture; the refusal of a GPU power ratio
is there on every processor. -/
theorem intelNode_iff (functions : IntelArch → Functions σ) (unimplemented : Functions σ)
    (rax : Nat) :
    ((intelNode functions unimplemented rax).1 = 0 ↔ ∃ a : IntelArch, a.code = cpuModel rax) ∧
      ∀ f, ((intelNode functions unimplemented rax).2 f = none ↔ f ≠ .capGpuPowerRatio ∧
          ∀ a : IntelArch, a.code = cpuModel rax → f ∉ a.features) ∧
        ∀ a : IntelArch, a.code = cpuModel rax → f ∈ a.features →
          (intelNode functions unimplemented rax).2 f = some (functions a f) := by
  exact ⟨intelNode_fst_iff,
    fun f => ⟨intelNode_eq_none_iff, fun _ ha hf => intelNode_eq_some ha hf⟩⟩

/-! ### Calls on an Intel node -/

/-- A build for Intel processors. -/
def intelBuild : Build := fun k => k == .intelCpu

/-- `variorum_enter` and `variorum_exit` on a node whose MSR devices can be opened and closed:
`init_msr` returns 0, so what `set_intel_func_ptrs` returns stands. -/
def nodeLifecycle (node : Int × Platform σ) : Lifecycle σ :=
  ⟨fun s => some (node.1, s), fun s => some (0, s)⟩

/-- A call of the API. -/
def callIntel (functions : IntelArch → Functions σ) (unimplemented : Functions σ) (rax : Nat)
    (proc : ProcFiles) (body : Body) : Call σ :=
  let node := intelNode functions unimplemented rax
  callApi intelBuild (nodeLifecycle node) [node.2] proc body

/-- A processor that is not known: `variorum_enter` fails. -/
theorem callIntel_of_unknown (h : ∀ a : IntelArch, a.code ≠ cpuModel rax) (proc : ProcFiles)
    (body : Body) (s : σ) :
    callIntel functions unimplemented rax proc body s = some (-1, s) := by
  have henter : (intelNode functions unimplemented rax).1 ≠ 0 := by
    rw [intelNode_of_unknown h]
    exact VariorumError.code_ne_zero .unsupportedPlatform
  simp only [callIntel, callApi, nodeLifecycle]
  rw [if_pos henter]

/-- Otherwise the work is done, and `variorum_exit` follows. -/
theorem callIntel_of_code {a : IntelArch} (h : a.code = cpuModel rax) (proc : ProcFiles)
    (body : Body) (s : σ) :
    callIntel functions unimplemented rax proc body s =
      (body.run intelBuild [(intelNode functions unimplemented rax).2] proc s).map
        fun (e, s) => (e.ret, s) := by
  have henter : ¬ (intelNode functions unimplemented rax).1 ≠ 0 := by
    rw [intelNode_of_code h]
    exact not_not_intro rfl
  simp only [callIntel, callApi, nodeLifecycle]
  rw [if_neg henter]
  rcases body.run intelBuild _ proc s with - | ⟨- | ret, s⟩ <;> rfl

/-- What a call comes to where the function is missing. -/
def LoopStyle.atNull (style : LoopStyle) (s : σ) : Option (Int × σ) :=
  if style = .calls then none else some (0, s)

/-- The calls that find no function are those for which the architecture has none, whatever
the other functions do. -/
theorem callIntel_atNull_iff (rax : Nat) (proc : ProcFiles) (style : LoopStyle) {f : Feature}
    (hf : f ≠ .capGpuPowerRatio) (args : f.Args) (s : σ) :
    (∀ functions unimplemented,
        callIntel functions unimplemented rax proc (.each style f args) s = style.atNull s) ↔
      ∃ a : IntelArch, a.code = cpuModel rax ∧ f ∉ a.features := by
  by_cases hknown : ∃ a : IntelArch, a.code = cpuModel rax
  · obtain ⟨a, ha⟩ := hknown
    have honly : (∃ b : IntelArch, b.code = cpuModel rax ∧ f ∉ b.features) ↔ f ∉ a.features :=
      ⟨fun ⟨b, hb, hmem⟩ => IntelArch.code_injective (hb.trans ha.symm) ▸ hmem,
        fun hmem => ⟨a, ha, hmem⟩⟩
    rw [honly]
    constructor
    · -- a function that ends where the loop would not, and the other way round
      intro hall hmem
      have hcall := hall (fun _ _ _ s => if style = .calls then some (0, s) else none)
        fun _ _ s => some (0, s)
      rw [callIntel_of_code ha] at hcall
      simp only [Body.run, entries, List.map_cons, List.map_nil] at hcall
      rw [intelNode_eq_some ha hmem] at hcall
      cases style <;> cases hcall
    · intro hmem functions unimplemented
      have hnull : (intelNode functions unimplemented rax).2 f = none :=
        intelNode_eq_none_iff.mpr
          ⟨hf, fun b hb => IntelArch.code_injective (hb.trans ha.symm) ▸ hmem⟩
      rw [callIntel_of_code ha]
      simp only [Body.run, entries, List.map_cons, List.map_nil]
      rw [hnull]
      cases style <;> rfl
  · -- `variorum_enter` fails, and the call returns -1
    refine iff_of_false (fun hall => ?_) fun ⟨a, ha, _⟩ => hknown ⟨a, ha⟩
    have hcall := hall (fun _ _ _ s => some (0, s)) fun _ _ s => some (0, s)
    rw [callIntel_of_unknown fun a ha => hknown ⟨a, ha⟩] at hcall
    cases style <;> cases hcall

/-- The models of some of the architectures. -/
theorem IntelArch.codes_iff (P : IntelArch → Prop) [DecidablePred P] (n : Nat) :
    (∃ a : IntelArch, a.code = n ∧ P a) ↔ n ∈ (IntelArch.all.filter P).map code := by
  have hall (a : IntelArch) : a ∈ IntelArch.all := by cases a <;> decide
  rw [List.mem_map]
  constructor
  · rintro ⟨a, ha, hP⟩
    exact ⟨a, List.mem_filter.mpr ⟨hall a, decide_eq_true hP⟩, ha⟩
  · rintro ⟨a, hmem, ha⟩
    exact ⟨a, ha, of_decide_eq_true (List.mem_filter.mp hmem).2⟩

/-- **Where a cap of the sockets does nothing.**  On a build for Intel processors whose
devices are there: on 06_6A and 06_8F it sets no limit and, after a message, returns 0,
whatever the functions of the platform do. -/
theorem socketCap_silent_iff (rax : Nat) (proc : ProcFiles) (limit : Int) (s : σ) :
    (∀ functions unimplemented, callIntel functions unimplemented rax proc
        (variorumCapEachSocketPowerLimit limit) s = some (0, s)) ↔
      cpuModel rax ∈ [106, 143] := by
  have hlacks := IntelArch.codes_iff (.capEachSocketPowerLimit ∉ ·.features) (cpuModel rax)
  exact (callIntel_atNull_iff (f := .capEachSocketPowerLimit) rax proc .stops (by decide)
    limit s).trans hlacks

/-- **Where `variorum_get_energy_json` ends the process.**  On a build for Intel
processors whose devices are there: on six of the nine architectures the loop reports
the NULL pointer and calls it. -/
theorem energyJson_none_iff (rax : Nat) (proc : ProcFiles) (s : σ) :
    (∀ functions unimplemented,
        callIntel functions unimplemented rax proc variorumGetEnergyJson s = none) ↔
      cpuModel rax ∈ [42, 45, 62, 158, 106, 143] := by
  have hlacks := IntelArch.codes_iff (.getEnergyJson ∉ ·.features) (cpuModel rax)
  exact (callIntel_atNull_iff (f := .getEnergyJson) rax proc .calls (by decide) () s).trans hlacks

/-! ### AMD nodes -/

theorem cpuModel_lt (rax : Nat) : cpuModel rax < 2 ^ 8 := by
  have hext := bitField_lt 16 4 rax
  have hmodel := bitField_lt 4 4 rax
  unfold cpuModel
  omega

theorem cpuFamily_le (rax : Nat) : cpuFamily rax ≤ 270 := by
  have hbase := bitField_lt 8 4 rax
  have hext := bitField_lt 20 8 rax
  unfold cpuFamily
  omega

theorem detectAmdArch_eq (rax : Nat) :
    detectAmdArch rax = (2 ^ 8 * cpuFamily rax + cpuModel rax) % 2 ^ 16 := by
  have hfield (shift width : Nat) :
      (rax >>> shift) &&& (2 ^ width - 1) = bitField shift width rax := by
    rw [and_lowMask, bitField_shiftRight, Nat.add_zero]
  have hfamily : ((rax >>> 8) &&& 0xf) + ((rax >>> 20) &&& 0xff) = cpuFamily rax :=
    congrArg₂ _ (hfield 8 4) (hfield 20 8)
  have hmodel : ((rax >>> 16) &&& 0xf) * 0x10 + ((rax >>> 4) &&& 0xf) = cpuModel rax := by
    rw [show (rax >>> 16) &&& 0xf = bitField 16 4 rax from hfield 16 4,
      show (rax >>> 4) &&& 0xf = bitField 4 4 rax from hfield 4 4, Nat.mul_comm]
    rfl
  rw [detectAmdArch, hfamily, hmodel, or_field _ (cpuModel_lt rax)]
  exact Nat.and_two_pow_sub_one_eq_mod _ 16

/-- The family that is taken out again, although it has lost its ninth bit. -/
theorem amdFamily_iff (rax : Nat) :
    (detectAmdArch rax >>> 8) &&& 0xFF = 0x19 ↔ cpuFamily rax = 0x19 := by
  have hfamily : (detectAmdArch rax >>> 8) &&& 0xFF = detectAmdArch rax / 2 ^ 8 % 2 ^ 8 := by
    rw [← Nat.shiftRight_eq_div_pow]
    exact Nat.and_two_pow_sub_one_eq_mod _ 8
  have hle := cpuFamily_le rax
  have hlt := cpuModel_lt rax
  rw [hfamily, detectAmdArch_eq]
  omega

theorem amdModel_eq (rax : Nat) : detectAmdArch rax &&& 0xFF = cpuModel rax := by
  have hmodel : detectAmdArch rax &&& 0xFF = detectAmdArch rax % 2 ^ 8 :=
    Nat.and_two_pow_sub_one_eq_mod _ 8
  have hlt := cpuModel_lt rax
  rw [hmodel, detectAmdArch_eq]
  omega

/-- The processors that are supported: family 25 with extended model 0 or 3. -/
def IsEpyc (rax : Nat) : Prop :=
  cpuFamily rax = 0x19 ∧ (bitField 16 4 rax = 0 ∨ bitField 16 4 rax = 3)

theorem amdModel_iff (rax : Nat) :
    (cpuModel rax ≤ 0xF ∨ 0x30 ≤ cpuModel rax ∧ cpuModel rax ≤ 0x3F) ↔
      bitField 16 4 rax = 0 ∨ bitField 16 4 rax = 3 := by
  have hmodel := bitField_lt 4 4 rax
  unfold cpuModel
  omega

/-- The entry of an AMD platform, and what `set_amd_func_ptrs` returns. -/
def amdNode (functions : Functions σ) (esmiInit : Int) (rax : Nat) : Int × Platform σ :=
  enterPlatform (some (detectAmdArch rax)) (setAmdFuncPtrs functions esmiInit)

theorem amdNode_of_epyc {functions : Functions σ} {esmiInit : Int} (h : IsEpyc rax) :
    amdNode functions esmiInit rax =
      (0, variorumInitFuncPtrs.store (if esmiInit = 0 then amdFeatures else [.printEnergy])
        functions) := by
  simp only [amdNode, enterPlatform, setAmdFuncPtrs]
  rw [if_pos ((amdFamily_iff rax).mpr h.1), amdModel_eq, if_pos ((amdModel_iff rax).mpr h.2)]
  by_cases hinit : esmiInit = 0
  · rw [if_pos hinit, if_pos hinit, hinit]
  · rw [if_neg hinit, if_neg hinit]

theorem amdNode_of_other {functions : Functions σ} {esmiInit : Int} (h : ¬ IsEpyc rax) :
    amdNode functions esmiInit rax =
      (VariorumError.unsupportedPlatform.code, variorumInitFuncPtrs) := by
  simp only [amdNode, enterPlatform, setAmdFuncPtrs]
  rw [amdModel_eq]
  by_cases hfamily : (detectAmdArch rax >>> 8) &&& 0xFF = 0x19
  · rw [if_pos hfamily, if_neg fun hmodel =>
      h ⟨(amdFamily_iff rax).mp hfamily, (amdModel_iff rax).mp hmodel⟩]
  · rw [if_neg hfamily]

theorem amdNode_fst_iff {functions : Functions σ} {esmiInit : Int} :
    (amdNode functions esmiInit rax).1 = 0 ↔ IsEpyc rax := by
  by_cases hepyc : IsEpyc rax
  · exact iff_of_true (by rw [amdNode_of_epyc hepyc]) hepyc
  · refine iff_of_false ?_ hepyc
    rw [amdNode_of_other hepyc]
    exact VariorumError.code_ne_zero .unsupportedPlatform

/-- **The processors an AMD build is set up for**: those of family 25 with extended model 0
or 3, whatever becomes of the library.  Without the library only the energy is printed. -/
theorem amdNode_iff (functions : Functions σ) (esmiInit : Int) (rax : Nat) :
    ((amdNode functions esmiInit rax).1 = 0 ↔ IsEpyc rax) ∧
      ∀ f, ((amdNode functions esmiInit rax).2 f = none ↔
          ¬ (IsEpyc rax ∧ f ∈ amdFeatures ∧ (esmiInit = 0 ∨ f = .printEnergy))) ∧
        (IsEpyc rax → f ∈ amdFeatures → esmiInit = 0 ∨ f = .printEnergy →
          (amdNode functions esmiInit rax).2 f = some (functions f)) := by
  refine ⟨amdNode_fst_iff, fun f => ?_⟩
  by_cases hepyc : IsEpyc rax
  · have hfeatures : f ∈ (if esmiInit = 0 then amdFeatures else [.printEnergy]) ↔
        f ∈ amdFeatures ∧ (esmiInit = 0 ∨ f = .printEnergy) := by
      have henergy : f = .printEnergy → f ∈ amdFeatures := fun hf => hf ▸ by decide
      by_cases hinit : esmiInit = 0
      · simp [hinit]
      · rw [if_neg hinit, List.mem_singleton, or_iff_right hinit]
        exact ⟨fun hf => ⟨henergy hf, hf⟩, And.right⟩
    rw [amdNode_of_epyc hepyc]
    refine ⟨?_, fun _ hf hinit => if_pos (hfeatures.mpr ⟨hf, hinit⟩)⟩
    rw [Platform.store_init_eq_none, hfeatures, and_iff_right hepyc]
  · rw [amdNode_of_other hepyc]
    exact ⟨iff_of_true rfl fun h => hepyc h.1, fun h => absurd h hepyc⟩

/-! ### ARM nodes -/

theorem armModel_eq (v w : Nat) : armModel v w = 2 ^ 12 * partNum v + partNum w := by
  have hmask (v : Nat) : v &&& 0xfff0 = partNum v <<< 4 := and_mask v 4 12
  rw [armModel, hmask, hmask, ← Nat.shiftLeft_add, Nat.shiftLeft_shiftRight]
  exact or_field _ (bitField_lt 4 12 w)

/-- A file that has no byte in it. -/
def IdFile.IsEmpty (file : IdFile) : Prop := file.fd ≠ none ∧ file.text = some []

theorem IdFile.descriptor_eq_zero_iff (file : IdFile) : file.descriptor = 0 ↔ file.fd = some 0 := by
  rcases file with ⟨- | fd, text⟩
  · simp [IdFile.descriptor]
  · simp [IdFile.descriptor]

theorem IdFile.readStr_eq_zero_iff (file : IdFile) (stack : List Char) :
    (file.readStr stack).1 = 0 ↔ file.IsEmpty := by
  rcases file with ⟨- | fd, - | - | ⟨c, text⟩⟩
  · simp [IdFile.readStr, IdFile.IsEmpty]
  · simp [IdFile.readStr, IdFile.IsEmpty]
  · simp [IdFile.readStr, IdFile.IsEmpty]
  · simp [IdFile.readStr, IdFile.IsEmpty]
  · simp [IdFile.readStr, IdFile.IsEmpty]
  · simp only [IdFile.readStr, IdFile.IsEmpty, List.take_succ_cons, List.length_cons]
    exact iff_of_false (by omega) (by simp)

/-- A file whose failure is not noticed: it has a descriptor other than 0 or none at all, and
it is not without a byte. -/
def IdFile.Passes (file : IdFile) : Prop := file.fd ≠ some 0 ∧ ¬ file.IsEmpty

/-- What the array of a file has in it when it is read as a number: the beginning of the
text, and what stood there before. -/
def IdFile.idVal (file : IdFile) (stack : List Char) : Nat :=
  ulong (strtolHex (file.readStr stack).2)

/-- The identification, where no failure is noticed. -/
theorem detectArmArch_of_passes {file0 file1 : IdFile} (h0 : file0.Passes) (h1 : file1.Passes)
    (stack0 stack1 : List Char) : detectArmArch file0 file1 stack0 stack1 =
      some (2 ^ 12 * partNum (file0.idVal stack0) + partNum (file1.idVal stack1)) := by
  have hfd : ¬ (file0.descriptor = 0 ∨ file1.descriptor = 0) := by
    rw [file0.descriptor_eq_zero_iff, file1.descriptor_eq_zero_iff]
    exact not_or.mpr ⟨h0.1, h1.1⟩
  have hbytes : ¬ ((file0.readStr stack0).1 = 0 ∨ (file1.readStr stack1).1 = 0) := by
    rw [file0.readStr_eq_zero_iff, file1.readStr_eq_zero_iff]
    exact not_or.mpr ⟨h0.2, h1.2⟩
  rw [← armModel_eq, detectArmArch, if_neg hfd]
  exact if_neg hbytes

/-- One failure that is noticed is enough for an error. -/
theorem detectArmArch_of_not_passes {file0 file1 : IdFile} (h : ¬ (file0.Passes ∧ file1.Passes))
    (stack0 stack1 : List Char) : detectArmArch file0 file1 stack0 stack1 = none := by
  rw [detectArmArch]
  by_cases hfd : file0.descriptor = 0 ∨ file1.descriptor = 0
  · rw [if_pos hfd]
  · rw [if_neg hfd]
    rw [file0.descriptor_eq_zero_iff, file1.descriptor_eq_zero_iff, not_or] at hfd
    have hbytes : (file0.readStr stack0).1 = 0 ∨ (file1.readStr stack1).1 = 0 := by
      rw [file0.readStr_eq_zero_iff, file1.readStr_eq_zero_iff]
      by_contra hnone
      rw [not_or] at hnone
      exact h ⟨⟨hfd.1, hnone.1⟩, ⟨hfd.2, hnone.2⟩⟩
    exact if_pos hbytes

/-- A file as the kernel shows a register. -/
def IdFile.register (fd : Nat) (midr : BitVec 64) : IdFile :=
  ⟨some fd, some (hexText midr.toNat ++ ['\n'])⟩

/-- What is read of a register. -/
def readBack (midr : BitVec 64) : Nat := min (2 ^ 63 - 1) midr.toNat

theorem IdFile.readStr_register (fd : Nat) (midr : BitVec 64) (stack : List Char) :
    (IdFile.register fd midr).readStr stack =
      (19, hexText midr.toNat ++ '\n' :: stack.drop 19) := by
  have hlength : (hexText midr.toNat ++ ['\n']).length = 19 := by simp [hexText]
  have htake : (hexText midr.toNat ++ ['\n']).take 64 = hexText midr.toNat ++ ['\n'] :=
    List.take_of_length_le (by omega)
  simp only [IdFile.register, IdFile.readStr]
  rw [htake, hlength, List.append_assoc]
  rfl

theorem ulong_strtolHex (midr : BitVec 64) (rest : List Char) :
    ulong (strtolHex (hexText midr.toNat ++ '\n' :: rest)) = readBack midr := by
  have hlt : midr.toNat < 16 ^ 16 := midr.isLt
  rw [strtolHex_hexText hlt fun c hc => by cases hc; decide]
  unfold ulong readBack longMax
  omega

/-- The systems that are known, by the part numbers of their first two cores. -/
def ArmSystem.parts : ArmSystem → Nat × Nat
  | junoR2 => (armCortexA53, armCortexA72)
  | neoverseN1 => (armNeoverseN1, armNeoverseN1)

/-- `set_arm_func_ptrs` on the identification of two cores. -/
theorem setArmFuncPtrs_parts (functions : ArmSystem → Functions σ) (a : ArmSystem)
    (p : Platform σ) :
    setArmFuncPtrs functions (2 ^ 12 * a.parts.1 + a.parts.2) p =
      (0, p.store a.features (functions a)) := by
  cases a <;> rfl

theorem setArmFuncPtrs_unknown (functions : ArmSystem → Functions σ) {archId : Nat}
    (h : ∀ a : ArmSystem, archId ≠ 2 ^ 12 * a.parts.1 + a.parts.2) (p : Platform σ) :
    setArmFuncPtrs functions archId p = (VariorumError.unsupportedPlatform.code, p) := by
  have hjuno : armCortexA53 <<< 12 ||| armCortexA72 =
      2 ^ 12 * ArmSystem.junoR2.parts.1 + ArmSystem.junoR2.parts.2 := rfl
  have hneoverse : armNeoverseN1 <<< 12 ||| armNeoverseN1 =
      2 ^ 12 * ArmSystem.neoverseN1.parts.1 + ArmSystem.neoverseN1.parts.2 := rfl
  rw [setArmFuncPtrs, hjuno, hneoverse, if_neg (h .junoR2), if_neg (h .neoverseN1)]

/-- The identification holds both part numbers. -/
theorem ArmSystem.parts_eq (a : ArmSystem) {x y : Nat} (hy : y < 2 ^ 12)
    (h : 2 ^ 12 * x + y = 2 ^ 12 * a.parts.1 + a.parts.2) : a.parts = (x, y) := by
  have hparts : a.parts.2 < 2 ^ 12 := by cases a <;> decide
  exact Prod.ext (by omega) (by omega)

/-- The registers of a system, as far as they are looked at. -/
def ArmSystem.Shows (a : ArmSystem) (v w : BitVec 64) : Prop :=
  v.toNat < 2 ^ 63 ∧ w.toNat < 2 ^ 63 ∧ (partNum v.toNat, partNum w.toNat) = a.parts

/-- The greatest `long` has a part number of its own. -/
theorem partNum_readBack (v : BitVec 64) {c : Nat} (hc : c ≠ 0xfff) :
    partNum (readBack v) = c ↔ v.toNat < 2 ^ 63 ∧ partNum v.toNat = c := by
  unfold readBack
  by_cases hv : v.toNat < 2 ^ 63
  · rw [min_eq_right (by omega), and_iff_right hv]
  · rw [min_eq_left (by omega)]
    exact iff_of_false (fun h => hc (h.symm.trans (by decide))) fun h => hv h.1

theorem parts_readBack_iff (a : ArmSystem) (v w : BitVec 64) :
    a.parts = (partNum (readBack v), partNum (readBack w)) ↔ a.Shows v w := by
  have hfst : a.parts.1 ≠ 0xfff := by cases a <;> decide
  have hsnd : a.parts.2 ≠ 0xfff := by cases a <;> decide
  rw [eq_comm, Prod.ext_iff, partNum_readBack v hfst, partNum_readBack w hsnd, ArmSystem.Shows,
    Prod.ext_iff]
  tauto

/-- The entry of an ARM platform, and what `variorum_enter` makes of it. -/
def armNode (functions : ArmSystem → Functions σ) (file0 file1 : IdFile)
    (stack0 stack1 : List Char) : Int × Platform σ :=
  enterPlatform (detectArmArch file0 file1 stack0 stack1) (setArmFuncPtrs functions)

section ArmNodes

variable {file0 file1 : IdFile} {stack0 stack1 : List Char}

theorem armNode_of_parts (functions : ArmSystem → Functions σ) (h0 : file0.Passes)
    (h1 : file1.Passes) {a : ArmSystem}
    (ha : a.parts = (partNum (file0.idVal stack0), partNum (file1.idVal stack1))) :
    armNode functions file0 file1 stack0 stack1 =
      (0, variorumInitFuncPtrs.store a.features (functions a)) := by
  rw [armNode, detectArmArch_of_passes h0 h1, enterPlatform, ← setArmFuncPtrs_parts functions a,
    ha]

theorem armNode_of_unknown (functions : ArmSystem → Functions σ)
    (h : ¬ (file0.Passes ∧ file1.Passes ∧ ∃ a : ArmSystem,
      a.parts = (partNum (file0.idVal stack0), partNum (file1.idVal stack1)))) :
    (armNode functions file0 file1 stack0 stack1).1 ≠ 0 ∧
      (armNode functions file0 file1 stack0 stack1).2 = variorumInitFuncPtrs := by
  rw [armNode]
  by_cases hpasses : file0.Passes ∧ file1.Passes
  · have hunknown : ∀ a : ArmSystem,
        a.parts ≠ (partNum (file0.idVal stack0), partNum (file1.idVal stack1)) :=
      fun a ha => h ⟨hpasses.1, hpasses.2, a, ha⟩
    rw [detectArmArch_of_passes hpasses.1 hpasses.2, enterPlatform,
      setArmFuncPtrs_unknown functions
        (fun a ha => hunknown a (a.parts_eq (bitField_lt 4 12 _) ha)) _]
    exact ⟨VariorumError.code_ne_zero .unsupportedPlatform, rfl⟩
  · rw [detectArmArch_of_not_passes hpasses, enterPlatform]
    exact ⟨VariorumError.code_ne_zero .unsupportedArch, rfl⟩

/-- **What an ARM build takes for the processor**, for any two files and whatever stood in the
arrays: it is set up where no failure is noticed and the arrays spell the part numbers of
a system, in that order.  A file that cannot be opened or read passes, and leaves its
array as it was; so the arrays alone can make either system of such a node. -/
theorem armNode_arrays_iff (functions : ArmSystem → Functions σ) (file0 file1 : IdFile) :
    (∀ stack0 stack1,
      ((armNode functions file0 file1 stack0 stack1).1 = 0 ↔ file0.Passes ∧ file1.Passes ∧
        ∃ a : ArmSystem, a.parts = (partNum (file0.idVal stack0), partNum (file1.idVal stack1))) ∧
      ∀ a : ArmSystem, file0.Passes → file1.Passes →
        a.parts = (partNum (file0.idVal stack0), partNum (file1.idVal stack1)) →
        (armNode functions file0 file1 stack0 stack1).2
          = variorumInitFuncPtrs.store a.features (functions a)) ∧
    (file0.fd ≠ some 0 → file1.fd ≠ some 0 → (file0.fd = none ∨ file0.text = none) →
      (file1.fd = none ∨ file1.text = none) → ∀ a : ArmSystem, ∃ stack0 stack1,
        armNode functions file0 file1 stack0 stack1
          = (0, variorumInitFuncPtrs.store a.features (functions a))) := by
  constructor
  · intro stack0 stack1
    refine ⟨⟨fun h => ?_, fun ⟨h0, h1, a, ha⟩ => ?_⟩, fun a h0 h1 ha => ?_⟩
    · by_contra hnot
      exact (armNode_of_unknown functions hnot).1 h
    · rw [armNode_of_parts functions h0 h1 ha]
    · rw [armNode_of_parts functions h0 h1 ha]
  · intro hfd0 hfd1 hunread0 hunread1 a
    -- the arrays still hold the registers of such a system
    have hpasses : ∀ {file : IdFile}, file.fd ≠ some 0 → (file.fd = none ∨ file.text = none) →
        file.Passes := by
      rintro file hfd (hunread | hunread)
      · exact ⟨hfd, fun hempty => hempty.1 hunread⟩
      · exact ⟨hfd, fun hempty => by cases hunread.symm.trans hempty.2⟩
    have hkept : ∀ {file : IdFile}, (file.fd = none ∨ file.text = none) → ∀ stack,
        (file.readStr stack).2 = stack := by
      rintro ⟨- | fd, - | text⟩ (hunread | hunread) stack <;> first | rfl | cases hunread
    let stack (c : Nat) : List Char := hexText (BitVec.ofNat 64 (2 ^ 4 * c)).toNat ++ ['\n']
    have hspelled : ∀ {file : IdFile} {c : Nat}, (file.fd = none ∨ file.text = none) →
        c < 2 ^ 12 → partNum (file.idVal (stack c)) = c := by
      intro file c hunread hc
      have hnat : (BitVec.ofNat 64 (2 ^ 4 * c)).toNat = 2 ^ 4 * c := by
        rw [BitVec.toNat_ofNat, Nat.mod_eq_of_lt (by omega)]
      rw [IdFile.idVal, hkept hunread, ulong_strtolHex, readBack, hnat, min_eq_right (by omega),
        partNum, bitField]
      omega
    have hparts : a.parts.1 < 2 ^ 12 ∧ a.parts.2 < 2 ^ 12 := by cases a <;> decide
    refine ⟨stack a.parts.1, stack a.parts.2,
      armNode_of_parts functions (hpasses hfd0 hunread0) (hpasses hfd1 hunread1) ?_⟩
    rw [hspelled hunread0 hparts.1, hspelled hunread1 hparts.2]

/-- **The processors an ARM build is set up for**, whatever stood on the stack: the two
systems whose first two cores have the right part numbers, in that order, in registers
below 2^63. -/
theorem armNode_iff (functions : ArmSystem → Functions σ) {fd0 fd1 : Nat} (h0 : fd0 ≠ 0)
    (h1 : fd1 ≠ 0) (v w : BitVec 64) (stack0 stack1 : List Char) :
    let node := armNode functions (.register fd0 v) (.register fd1 w) stack0 stack1
    (node.1 = 0 ↔ ∃ a : ArmSystem, a.Shows v w) ∧
      (∀ a : ArmSystem, a.Shows v w →
        node.2 = variorumInitFuncPtrs.store a.features (functions a)) ∧
      ((∀ a : ArmSystem, ¬ a.Shows v w) → node.2 = variorumInitFuncPtrs) := by
  intro node
  have hpasses : ∀ {fd : Nat} {midr : BitVec 64}, fd ≠ 0 → (IdFile.register fd midr).Passes := by
    intro fd midr hfd
    exact ⟨fun h => hfd (Option.some.inj h), fun h => by cases h.2⟩
  have hparts : ∀ a : ArmSystem, a.parts = (partNum ((IdFile.register fd0 v).idVal stack0),
      partNum ((IdFile.register fd1 w).idVal stack1)) ↔ a.Shows v w := by
    intro a
    rw [IdFile.idVal, IdFile.idVal, IdFile.readStr_register, IdFile.readStr_register,
      ulong_strtolHex, ulong_strtolHex, parts_readBack_iff]
  by_cases hshown : ∃ a : ArmSystem, a.Shows v w
  · have hset : ∀ a : ArmSystem, a.Shows v w →
        node = (0, variorumInitFuncPtrs.store a.features (functions a)) := fun a ha =>
      armNode_of_parts functions (hpasses h0) (hpasses h1) ((hparts a).mpr ha)
    obtain ⟨a, ha⟩ := hshown
    refine ⟨iff_of_true (by rw [hset a ha]) ⟨a, ha⟩, fun b hb => by rw [hset b hb],
      fun hnone => absurd ha (hnone a)⟩
  · obtain ⟨hfails, hempty⟩ : node.1 ≠ 0 ∧ node.2 = variorumInitFuncPtrs :=
      armNode_of_unknown functions fun ⟨_, _, a, ha⟩ => hshown ⟨a, (hparts a).mp ha⟩
    exact ⟨iff_of_false hfails hshown, fun a ha => absurd ⟨a, ha⟩ hshown, fun _ => hempty⟩

/-- The part numbers of a Juno r2 make the node one. -/
theorem armNode_juno :
    (armNode (σ := Unit) (fun _ _ _ s => some (0, s)) (.register 3 0x410FD034)
      (.register 4 0x410FD080) [] []).1 = 0 :=
  (armNode_iff _ (by decide) (by decide) 0x410FD034 0x410FD080 [] []).1.mpr
    ⟨.junoR2, by decide, by decide, by decide⟩

end ArmNodes

end Nodes

end Variorum
