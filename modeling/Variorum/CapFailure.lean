/-
Variorum/CapFailure.lean

What a return value of 0 of the setting calls is worth.

`variorum_cap_each_socket_power_limit` and the two turbo calls on an Intel
06_4F, and `variorum_cap_each_gpu_power_limit` on an NVIDIA or AMD platform,
end in functions that return 0 whatever happened to them.  So a call that
returns 0 has set every socket or device, with nothing refused on the way, just
where nothing could go wrong, and `setting_honest_iff` says for each of them
where that is.

An `ApiContext` is what surrounds the platform in such a call: the build, what
`variorum_enter` and `variorum_exit` return, and what the platforms before and
after it return.  `ApiContext.honest_iff` reduces a statement about the API
function to one about the platform function.
-/
import Variorum.Api
import Variorum.GpuCap
import Variorum.PowerCap
import Variorum.Turbo

namespace Variorum

/-! ### The call and its surroundings -/

/-- What surrounds a platform in a call of the API. -/
structure ApiContext where
  build : Build
  proc : ProcFiles
  enterRet : Int
  exitRet : Int
  before : List (Feature → Option Int)
  after : List (Feature → Option Int)

/-- Whether a loop over the platforms that return these results, followed by
`variorum_exit`, makes the API function return 0. -/
def ReturnsZero (exitRet : Int) : List (Option Int) → Prop
  | [] => exitRet = 0
  | none :: _ => True
  | some r :: rs => r = 0 ∧ ReturnsZero exitRet rs

namespace ApiContext

variable {σ : Type*} (ctx : ApiContext)

def lifecycle : Lifecycle σ :=
  ⟨fun s => some (ctx.enterRet, s), fun s => some (ctx.exitRet, s)⟩

/-- The platform table: the other platforms leave the state of this one alone. -/
def table (target : Platform σ) : List (Platform σ) :=
  ctx.before.map (Platform.scripted (fun _ s => s) 0) ++
    target :: ctx.after.map (Platform.scripted (fun _ s => s) 0)

/-- A call of the API. -/
def call (target : Platform σ) (body : Body) : Call σ :=
  callApi ctx.build ctx.lifecycle (ctx.table target) ctx.proc body

/-- The call returns 0 when the platform does. -/
def Zero (f : Feature) : Prop :=
  ctx.enterRet = 0 ∧ ReturnsZero ctx.exitRet
    (ctx.before.map (fun results => results f) ++ some 0 :: ctx.after.map fun results => results f)

/-- The loop comes to the platform: those before it implement the feature and
succeed. -/
def Reaches (f : Feature) : Prop := ∀ results ∈ ctx.before, results f = some 0

/-- Either the call cannot return 0, or what is asked of the platform holds if the
loop comes to it, and what is asked of the state if not. -/
def Requires (f : Feature) (reached unreached : Prop) : Prop :=
  ctx.Zero f → (ctx.Reaches f → reached) ∧ (¬ ctx.Reaches f → unreached)

/-- Whenever the call returns 0, the state after it is as `P` says. -/
def Honest (target : Platform σ) (body : Body) (s : σ) (P : σ → Prop) : Prop :=
  ∀ s', ctx.call target body s = some (0, s') → P s'

end ApiContext

section Loop

variable {σ : Type*}

/-- A platform function that returns `r` and leaves the state alone; `none` for a
NULL entry. -/
def idle (r : Option Int) : Option (Call σ) := r.map fun r s => some (r, s)

/-- How the loop of the setting calls ends over such functions. -/
def idleEnd : List (Option Int) → BodyEnd
  | [] => .finished
  | none :: _ => .returned 0
  | some r :: rs => if r ≠ 0 then .returned (-1) else idleEnd rs

/-- What the API function returns after its loop. -/
def BodyEnd.answer (exitRet : Int) : BodyEnd → Int
  | finished => if exitRet ≠ 0 then -1 else exitRet
  | returned ret => ret

theorem idleEnd_answer_eq_zero_iff {exitRet : Int} {rs : List (Option Int)} :
    (idleEnd rs).answer exitRet = 0 ↔ ReturnsZero exitRet rs := by
  induction rs with
  | nil =>
      show (if exitRet ≠ 0 then (-1 : Int) else exitRet) = 0 ↔ exitRet = 0
      split <;> simp_all
  | cons r rs ih =>
      cases r with
      | none => exact iff_of_true rfl trivial
      | some r =>
          rw [idleEnd, ReturnsZero, ← ih]
          by_cases hr : r = 0 <;> simp [hr, BodyEnd.answer]

/-- Platforms that succeed are passed over. -/
theorem platformLoop_of_zero {rs : List (Option Int)} (h : ∀ r ∈ rs, r = some 0)
    (fs : List (Option (Call σ))) (s : σ) :
    platformLoop .stops (rs.map idle ++ fs) s = platformLoop .stops fs s := by
  induction rs with
  | nil => rfl
  | cons r rs ih =>
      obtain ⟨rfl, hrest⟩ := List.forall_mem_cons.mp h
      exact ih hrest

/-- The first that does not ends the loop. -/
theorem platformLoop_of_not_zero {rs : List (Option Int)} (h : ¬ ∀ r ∈ rs, r = some 0)
    (rs' : List (Option Int)) (fs : List (Option (Call σ))) (s : σ) :
    platformLoop .stops (rs.map idle ++ fs) s = some (idleEnd (rs ++ rs'), s) := by
  induction rs with
  | nil => exact absurd (fun r hr => absurd hr List.not_mem_nil) h
  | cons r rs ih =>
      cases r with
      | none => rfl
      | some r =>
          by_cases hr : r = 0
          · subst hr
            exact ih fun hrest => h (List.forall_mem_cons.mpr ⟨rfl, hrest⟩)
          · simp [idle, platformLoop, idleEnd, hr]

theorem platformLoop_idle (rs : List (Option Int)) (s : σ) :
    platformLoop .stops (rs.map idle) s = some (idleEnd rs, s) := by
  by_cases h : ∀ r ∈ rs, r = some 0
  · have hend : idleEnd rs = .finished := by
      induction rs with
      | nil => rfl
      | cons r rs ih =>
          obtain ⟨rfl, hrest⟩ := List.forall_mem_cons.mp h
          exact ih hrest
    have hrun := platformLoop_of_zero h [] s
    rw [List.append_nil] at hrun
    rw [hrun, hend]
    rfl
  · have hrun := platformLoop_of_not_zero h [] [] s
    rwa [List.append_nil, List.append_nil] at hrun

end Loop

namespace ApiContext

variable {σ : Type*} {ctx : ApiContext} {target : Platform σ} {f : Feature} {args : f.Args}

theorem entries_table (ctx : ApiContext) (target : Platform σ) (f : Feature) (args : f.Args) :
    entries (ctx.table target) f args
      = (ctx.before.map fun results => results f).map idle ++
          (target f).map (fun fn => fn args) ::
            (ctx.after.map fun results => results f).map idle := by
  have hidle : (fun platform : Platform σ => (platform f).map fun fn => fn args)
        ∘ Platform.scripted (fun _ s => s) 0
      = idle ∘ fun results => results f := by
    funext results
    simp only [Function.comp_apply, Platform.scripted, idle, Option.map_map]
    rfl
  simp only [entries, table, List.map_append, List.map_cons, List.map_map, hidle]

/-- When `variorum_enter` succeeds, the end of the loop decides. -/
theorem call_of_entered (h : ctx.enterRet = 0) (s : σ) :
    ctx.call target (.each .stops f args) s
      = (platformLoop .stops (entries (ctx.table target) f args) s).map
          fun (e, s) => (e.answer ctx.exitRet, s) := by
  unfold call callApi lifecycle
  simp only [h, ne_eq, not_true_eq_false, if_false, Body.run]
  rcases platformLoop .stops (entries (ctx.table target) f args) s with - | ⟨- | ret, s'⟩
  · rfl
  · by_cases hx : ctx.exitRet = 0 <;> simp [BodyEnd.answer, hx]
  · rfl

theorem returnsZero_append {exitRet : Int} {rs : List (Option Int)} (h : ∀ r ∈ rs, r = some 0)
    (rs' : List (Option Int)) : ReturnsZero exitRet (rs ++ rs') ↔ ReturnsZero exitRet rs' := by
  induction rs with
  | nil => exact Iff.rfl
  | cons r rs ih =>
      obtain ⟨rfl, hrest⟩ := List.forall_mem_cons.mp h
      exact (and_iff_right rfl).trans (ih hrest)

/-- **From the API function to the platform function.**  A platform function that
never fails decides about a call that returns 0 if the loop comes to it; if not,
the state before the call does. -/
theorem honest_iff {fn : f.Args → Call σ} (hfn : target f = some fn) (s : σ) (P : σ → Prop)
    (hret : ∀ ret s', fn args s = some (ret, s') → ret = 0) :
    ctx.Honest target (.each .stops f args) s P ↔
      ctx.Requires f (∀ s', fn args s = some (0, s') → P s') (P s) := by
  unfold Requires
  by_cases henter : ctx.enterRet = 0
  swap
  · -- the call fails before its loop
    have hcall : ctx.call target (.each .stops f args) s = some (-1, s) := by
      simp [call, callApi, lifecycle, henter]
    refine iff_of_true (fun s' hs' => ?_) fun hzero => absurd hzero.1 henter
    rw [hcall] at hs'
    cases hs'
  unfold Honest
  rw [call_of_entered henter, entries_table, hfn, Zero, and_iff_right henter]
  have hreach : ctx.Reaches f ↔ ∀ r ∈ ctx.before.map fun results => results f, r = some 0 := by
    simp [Reaches]
  -- the loop reaches the function only if every platform before it answers zero
  by_cases hall : ∀ r ∈ ctx.before.map fun results => results f, r = some 0
  · rw [platformLoop_of_zero hall, returnsZero_append hall]
    simp only [hreach.mpr hall, true_imp_iff, not_true_eq_false, false_imp_iff, and_true,
      ReturnsZero, true_and, ← idleEnd_answer_eq_zero_iff]
    rcases hrun : fn args s with - | ⟨ret, s₁⟩
    · simp [platformLoop, hrun]
    · obtain rfl := hret ret s₁ hrun
      -- the function has answered zero, so the platforms behind it have the last word
      have hloop : platformLoop .stops (some (fn args) ::
          (ctx.after.map fun results => results f).map idle) s
            = some (idleEnd (ctx.after.map fun results => results f), s₁) := by
        simp only [platformLoop, hrun, ne_eq, not_true_eq_false, false_and, if_false]
        exact platformLoop_idle _ s₁
      rw [Option.map_some, hloop]
      simp only [Option.map_some, Option.some.injEq, Prod.mk.injEq, true_and, forall_eq']
      exact ⟨fun h hzero => h s₁ ⟨hzero, rfl⟩, fun h s' ⟨hzero, hs⟩ => hs ▸ h hzero⟩
  · rw [platformLoop_of_not_zero hall (some 0 :: ctx.after.map fun results => results f)]
    simp only [mt hreach.mp hall, false_imp_iff, true_and, not_false_eq_true, true_imp_iff,
      Option.map_some, Option.some.injEq, Prod.mk.injEq, idleEnd_answer_eq_zero_iff]
    exact ⟨fun h hzero => h s ⟨hzero, rfl⟩, fun h s' ⟨hzero, hs⟩ => hs ▸ h hzero⟩

end ApiContext

namespace ApiContext

variable {σ : Type*} {ctx : ApiContext} {target : Platform σ} {f : Feature} {args : f.Args}

theorem requires_congr {a a' b b' : Prop} (h : a ↔ a') (h' : b ↔ b') :
    ctx.Requires f a b ↔ ctx.Requires f a' b' := by
  rw [Requires, Requires, h, h']

/-- The same for a platform function that always comes back, with 0. -/
theorem honest_iff_of_zero {fn : f.Args → Call σ} (hfn : target f = some fn) (s : σ)
    (P : σ → Prop) {g : σ → σ} (hrun : ∀ s, fn args s = some (0, g s)) :
    ctx.Honest target (.each .stops f args) s P ↔ ctx.Requires f (P (g s)) (P s) := by
  refine (honest_iff hfn s P fun ret s' h => ?_).trans (requires_congr ?_ Iff.rfl)
  · rw [hrun] at h
    exact (Prod.mk.inj (Option.some.inj h)).1.symm
  · simp [hrun]

end ApiContext

/-! ### The platforms

Their tables are given as far as the calls here look at them. -/

namespace Fm064f

/-! The offsets in `msrs` of Intel_06_4F.c, and `turbo_mode_disable_bit`. -/

def ia32MiscEnable : Nat := 0x1A0
def msrRaplPowerUnit : Nat := 0x606
def msrPkgPowerLimit : Nat := 0x610
def turboModeDisableBit : Nat := 38

end Fm064f

open Fm064f

/-- `intel_cpu_fm_06_4f_cap_power_limits`: a cap for each socket, whose result is
dropped. -/
def intelCpuFm064fCapPowerLimits (e : MsrEnv) (packagePowerLimit : BitVec 32) :
    Call PowerState :=
  fun st =>
    some (0, capSockets e packagePowerLimit msrPkgPowerLimit msrRaplPowerUnit e.topo.nsockets st)

/-- `intel_cpu_fm_06_4f_enable_turbo`, with its register and bit. -/
def intelCpuFm064fEnableTurbo (e : MsrEnv) : Call PowerState := fun st =>
  let (_, m) := setTurboOn e.topo e.driver ia32MiscEnable turboModeDisableBit st.machine
  some (0, { st with machine := m })

/-- `intel_cpu_fm_06_4f_disable_turbo`, with its register and bit. -/
def intelCpuFm064fDisableTurbo (e : MsrEnv) : Call PowerState := fun st =>
  let (_, m) := setTurboOff e.topo e.driver ia32MiscEnable turboModeDisableBit st.machine
  some (0, { st with machine := m })

/-- The Intel 06_4F platform, with the three setting calls that it has. -/
def intelCpuFm064f (e : MsrEnv) : Platform PowerState
  | .capEachSocketPowerLimit => some fun w => intelCpuFm064fCapPowerLimits e (BitVec.ofInt 32 w)
  | .enableTurbo => some fun _ => intelCpuFm064fEnableTurbo e
  | .disableTurbo => some fun _ => intelCpuFm064fDisableTurbo e
  | _ => none

/-- The NVIDIA platform, with the one setting call that it has. -/
def volta (node : NvmlNode) : Platform (GpuState Nat)
  | .capEachGpuPowerLimit => some (voltaCapEachGpuPowerLimit node)
  | _ => none

/-- The AMD GPU platform, with the one setting call that it has. -/
def amdGpuInstinct (node : RsmiNode) : Platform (GpuState (Nat × RsmiCall))
  | .capEachGpuPowerLimit => some (amdGpuInstinctCapEachGpuPowerLimit node)
  | _ => none

/-! ### What the calls promise -/

/-- Every socket is limited to `watts`, and nothing was refused since `st`. -/
def PowerCapped (e : MsrEnv) (watts : BitVec 32) (st st' : PowerState) : Prop :=
  st.Clean e.driver st' ∧ SocketsHold e.topo msrPkgPowerLimit msrRaplPowerUnit watts st'.machine

/-- Turbo is enabled or disabled on every socket. -/
def TurboIs (e : MsrEnv) (on : Bool) (m : Machine) : Prop :=
  ∀ socket < e.topo.nsockets,
    (m.msr (e.topo.cpu socket 0 0) ia32MiscEnable).getLsbD turboModeDisableBit = !on

/-- The same, and nothing was refused since `st`. -/
def TurboSet (e : MsrEnv) (on : Bool) (st st' : PowerState) : Prop :=
  st.machine.Clean e.driver st'.machine ∧ TurboIs e on st'.machine

/-- Every device is limited to `watts`, and nothing was reported since `st`. -/
def GpusCapped {κ : Type} (devices scale : Nat) (watts : BitVec 32) (st st' : GpuState κ) : Prop :=
  st'.reported = st.reported ∧ ∀ d < devices, HoldsGpuLimit scale watts (st'.limit d)

section Honest

variable (ctx : ApiContext) (e : MsrEnv) (watts : BitVec 32) (st : PowerState)

theorem capPower_honest_iff :
    ctx.Honest (intelCpuFm064f e) (variorumCapEachSocketPowerLimit watts.toInt) st
        (PowerCapped e watts st) ↔
      ctx.Requires .capEachSocketPowerLimit
        (CapApplies e msrPkgPowerLimit msrRaplPowerUnit watts st)
        (SocketsHold e.topo msrPkgPowerLimit msrRaplPowerUnit watts st.machine) := by
  have hrun : ∀ st, intelCpuFm064fCapPowerLimits e (BitVec.ofInt 32 watts.toInt) st
      = some (0, capSockets e watts msrPkgPowerLimit msrRaplPowerUnit e.topo.nsockets st) := by
    intro st
    rw [BitVec.ofInt_toInt]
    rfl
  refine (ApiContext.honest_iff_of_zero rfl st _ hrun).trans (ApiContext.requires_congr ?_ ?_)
  · exact capSockets_applies_iff (by decide) (by decide) watts st
  · exact and_iff_right (.refl _ st)

theorem enableTurbo_honest_iff :
    ctx.Honest (intelCpuFm064f e) variorumEnableTurbo st (TurboSet e true st) ↔
      ctx.Requires .enableTurbo
        (TurboApplies e.topo e.driver ia32MiscEnable (fun val => val.getLsbD turboModeDisableBit)
          st.machine)
        (TurboIs e true st.machine) := by
  refine (ApiContext.honest_iff_of_zero rfl st _ fun st => rfl).trans
    (ApiContext.requires_congr ?_ ?_)
  · exact setTurboOn_applies_iff (by decide)
  · exact and_iff_right History.clean_refl

theorem disableTurbo_honest_iff :
    ctx.Honest (intelCpuFm064f e) variorumDisableTurbo st (TurboSet e false st) ↔
      ctx.Requires .disableTurbo
        (TurboApplies e.topo e.driver ia32MiscEnable (fun val => !val.getLsbD turboModeDisableBit)
          st.machine)
        (TurboIs e false st.machine) := by
  refine (ApiContext.honest_iff_of_zero rfl st _ fun st => rfl).trans
    (ApiContext.requires_congr ?_ ?_)
  · have hright : ∀ m, TurboIs e false m ↔ SocketsRight e.topo ia32MiscEnable
        (fun val => !val.getLsbD turboModeDisableBit) m := by
      intro m
      simp [TurboIs, SocketsRight]
    rw [← setTurboOff_applies_iff (by decide), ← hright]
    exact Iff.rfl
  · exact and_iff_right History.clean_refl

theorem volta_honest_iff (node : NvmlNode) (st : GpuState Nat) :
    ctx.Honest (volta node) (variorumCapEachGpuPowerLimit watts.toInt) st
        (GpusCapped node.devices 1000 watts st) ↔
      ctx.Requires .capEachGpuPowerLimit (NvidiaApplies node watts st)
        (∀ d < node.devices, HoldsGpuLimit 1000 watts (st.limit d)) := by
  unfold variorumCapEachGpuPowerLimit
  rw [BitVec.ofInt_toInt]
  refine (ApiContext.honest_iff rfl st _ fun ret st' h => ?_).trans
    (ApiContext.requires_congr ?_ ?_)
  · exact (Prod.mk.inj (Option.some.inj h)).1.symm
  · exact volta_applies_iff node watts st
  · exact and_iff_right rfl

theorem amd_honest_iff (node : RsmiNode) (st : GpuState (Nat × RsmiCall)) :
    ctx.Honest (amdGpuInstinct node) (variorumCapEachGpuPowerLimit watts.toInt) st
        (GpusCapped node.devices.val 1000000 watts st) ↔
      ctx.Requires .capEachGpuPowerLimit (AmdApplies node watts st)
        (∀ d < node.devices.val, HoldsGpuLimit 1000000 watts (st.limit d)) := by
  unfold variorumCapEachGpuPowerLimit
  rw [BitVec.ofInt_toInt]
  refine (ApiContext.honest_iff rfl st _ fun ret st' h => ?_).trans
    (ApiContext.requires_congr ?_ ?_)
  · obtain ⟨_, -, heq⟩ := Option.map_eq_some_iff.mp h
    exact (Prod.mk.inj heq).1.symm
  · exact amd_applies_iff node watts st
  · exact and_iff_right rfl

end Honest

/-- **No silent failure of a setting call, exactly.**  For each of the calls: 0 is
returned only with every socket or device set and nothing refused or reported,
if and only if the call cannot return 0, or the loop over the platforms comes
to the platform and nothing can go wrong there, or it does not and everything
was set before. -/
theorem setting_honest_iff (ctx : ApiContext) :
    (∀ e watts st,
      ctx.Honest (intelCpuFm064f e) (variorumCapEachSocketPowerLimit watts.toInt) st
          (PowerCapped e watts st) ↔
        ctx.Requires .capEachSocketPowerLimit
          (CapApplies e msrPkgPowerLimit msrRaplPowerUnit watts st)
          (SocketsHold e.topo msrPkgPowerLimit msrRaplPowerUnit watts st.machine)) ∧
    (∀ e st,
      ctx.Honest (intelCpuFm064f e) variorumEnableTurbo st (TurboSet e true st) ↔
        ctx.Requires .enableTurbo
          (TurboApplies e.topo e.driver ia32MiscEnable
            (fun val => val.getLsbD turboModeDisableBit) st.machine)
          (TurboIs e true st.machine)) ∧
    (∀ e st,
      ctx.Honest (intelCpuFm064f e) variorumDisableTurbo st (TurboSet e false st) ↔
        ctx.Requires .disableTurbo
          (TurboApplies e.topo e.driver ia32MiscEnable
            (fun val => !val.getLsbD turboModeDisableBit) st.machine)
          (TurboIs e false st.machine)) ∧
    (∀ node watts st,
      ctx.Honest (volta node) (variorumCapEachGpuPowerLimit watts.toInt) st
          (GpusCapped node.devices 1000 watts st) ↔
        ctx.Requires .capEachGpuPowerLimit (NvidiaApplies node watts st)
          (∀ d < node.devices, HoldsGpuLimit 1000 watts (st.limit d))) ∧
    (∀ node watts st,
      ctx.Honest (amdGpuInstinct node) (variorumCapEachGpuPowerLimit watts.toInt) st
          (GpusCapped node.devices.val 1000000 watts st) ↔
        ctx.Requires .capEachGpuPowerLimit (AmdApplies node watts st)
          (∀ d < node.devices.val, HoldsGpuLimit 1000000 watts (st.limit d))) :=
  ⟨capPower_honest_iff ctx, enableTurbo_honest_iff ctx, disableTurbo_honest_iff ctx,
    fun node watts => volta_honest_iff ctx watts node,
    fun node watts => amd_honest_iff ctx watts node⟩

/-- A build with one platform, and nothing that fails around it. -/
def loneContext (kind : PlatformKind) : ApiContext where
  build k := decide (k = kind)
  proc := ⟨true, true, true⟩
  enterRet := 0
  exitRet := 0
  before := []
  after := []

/-- The two-socket node, with writes to the limit register of CPU 2, the first of
socket 1, refused. -/
def refusingEnv : MsrEnv := ⟨twoSockets, ⟨fun _ a => a == ⟨.write, 2, msrPkgPowerLimit⟩⟩, false⟩

/-- All registers zero, and no call made yet. -/
def PowerState.cleared : PowerState := ⟨⟨fun _ _ => 0, []⟩, fun _ => 0, none, []⟩

/-- Two devices, the second of which refuses its limit. -/
def refusingGpus : NvmlNode := ⟨twoSockets, 2, 2, fun d => d == 1⟩

/-- A cap of 100 W returns 0 where socket 1, or GPU 1, is left without a limit. -/
theorem capFailure_silent :
    (∃ st', (loneContext .intelCpu).call (intelCpuFm064f refusingEnv)
        (variorumCapEachSocketPowerLimit 100) .cleared = some (0, st') ∧
      ¬ SocketsHold twoSockets msrPkgPowerLimit msrRaplPowerUnit 100 st'.machine) ∧
    (∃ st', (loneContext .nvidiaGpu).call (volta refusingGpus)
        (variorumCapEachGpuPowerLimit 100) ⟨fun _ => 0, []⟩ = some (0, st') ∧
      ¬ HoldsGpuLimit 1000 100 (st'.limit 1)) := by
  constructor
  · refine ⟨capSockets refusingEnv 100 msrPkgPowerLimit msrRaplPowerUnit 2 .cleared, rfl,
      fun hholds => ?_⟩
    have hclear : ((capSockets refusingEnv 100 msrPkgPowerLimit msrRaplPowerUnit 2
        .cleared).machine.msr (twoSockets.cpu 1 0 0) msrPkgPowerLimit).getLsbD 15 = false := by
      decide +kernel
    exact Bool.false_ne_true (hclear.symm.trans (hholds 1 (by decide)).enabled)
  · refine ⟨_, rfl, ?_⟩
    unfold HoldsGpuLimit
    decide

end Variorum
