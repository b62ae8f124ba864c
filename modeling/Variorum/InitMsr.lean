/-
Variorum/InitMsr.lean

The loop of `init_msr`, turn by turn.

`stat_module` gets the loop's index and `kerneltype` by reference, and the loop
body changes both once more: where an msr_safe device cannot be opened it goes
back by one and on with the stock module.  `initStep` is one turn with the index
as the `int` it is, so that a table entry outside of the node is seen
(`InitEnd.outOfRange`), and a descriptor says which module's file of which CPU
it is open on.

The loop ends after at most `2 * n + 1` turns (`initMsrRun_isSome`), with the
status that `initMsr` computes (`initMsrRun_ret`).  Where it does what it is for
is `initMsr_iff`: it uses the index -1 if the first msr_safe device that is no
good does not exist, and returns 0 with devices of both modules if that one
cannot be opened and it is not the first CPU's.
-/
import Mathlib.Order.Basic
import Mathlib.Tactic.Linarith
import Variorum.Lifecycle
import Variorum.Loop

namespace Variorum

open Loop

/-- The file a descriptor is open on: the module and the CPU. -/
abbrev OpenFile := KernelType × Nat

/-- `dev_idx`, `kerneltype` and the table of `core_fd` at the head of the loop. -/
structure InitState where
  devIdx : Int
  kerneltype : KernelType
  descriptor : Nat → Option OpenFile

/-- How `init_msr` ends: it returns, or it uses an index that `core_fd` has no
entry for. -/
inductive InitEnd
  | returned (ret : Int) (descriptor : Nat → Option OpenFile)
  | outOfRange (devIdx : Int)

/-- The file whose name is made from `kerneltype` and `dev_idx`. -/
def MsrFiles.deviceAt (files : MsrFiles) (kerneltype : KernelType) (devIdx : Int) : DeviceFile :=
  if 0 ≤ devIdx then files.device kerneltype devIdx.toNat else .missing

/-- One turn of the loop, for `n` CPUs. -/
def initStep (n : Nat) (files : MsrFiles) (s : InitState) : InitState ⊕ InitEnd :=
  if (n : Int) ≤ s.devIdx then .inr (.returned 0 s.descriptor)
  else
    let file := files.deviceAt s.kerneltype s.devIdx
    let (ret, kerneltype, devIdx) := statModule file s.kerneltype s.devIdx
    if ret < 0 then .inr (.returned (-1) s.descriptor)
    else if devIdx < 0 ∨ (n : Int) ≤ devIdx then .inr (.outOfRange devIdx)
    else if file = .unopenable then
      let descriptor := Function.update s.descriptor devIdx.toNat none
      if kerneltype ≠ .msrSafe then .inr (.returned VariorumError.raplInit.code descriptor)
      -- `dev_idx--` here and `dev_idx++` at the head
      else .inl ⟨devIdx - 1 + 1, .msr, descriptor⟩
    else
      let opened : OpenFile := (s.kerneltype, s.devIdx.toNat)
      .inl ⟨devIdx + 1, kerneltype, Function.update s.descriptor devIdx.toNat (some opened)⟩

/-- After the allowlist has been looked at; nothing is open. -/
def initStart (files : MsrFiles) : InitState :=
  ⟨0, (statModule files.allowlist .unknown 0).2.1, fun _ => none⟩

/-- `init_msr`: as many turns as the loop can take at all. -/
def initMsrRun (n : Nat) (files : MsrFiles) : Option InitEnd :=
  run (initStep n files) (2 * n + 2) (initStart files)

/-- The value returned; none where the process dies over the index. -/
def InitEnd.ret : InitEnd → Option Int
  | returned ret _ => some ret
  | outOfRange _ => none

/-- What `init_msr` is for: a failure is told, and otherwise all descriptors are
open on the devices of one module. -/
def InitEnd.Good (n : Nat) : InitEnd → Prop
  | returned ret descriptor => ret ≠ 0 ∨ ∃ module, ∀ dev < n, descriptor dev = some (module, dev)
  | outOfRange _ => False

/-! ### One turn -/

section Turn

variable {n : Nat} {files : MsrFiles} {descriptor : Nat → Option OpenFile} {dev : Nat}

theorem initStep_of_le (h : n ≤ dev) (kerneltype : KernelType) :
    initStep n files ⟨dev, kerneltype, descriptor⟩ = .inr (.returned 0 descriptor) :=
  if_pos (Nat.cast_le.mpr h)

/-- A turn with the stock module. -/
theorem initStep_msr (h : dev < n) :
    initStep n files ⟨dev, .msr, descriptor⟩
      = match files.stock dev with
        | .missing => .inr (.returned (-1) descriptor)
        | .denied => .inr (.returned (-1) descriptor)
        | .unopenable =>
            .inr (.returned VariorumError.raplInit.code (Function.update descriptor dev none))
        | .usable =>
            .inl ⟨(dev + 1 : Nat), .msr, Function.update descriptor dev (some (.msr, dev))⟩ := by
  have hlt : ¬ (n : Int) ≤ dev := by omega
  have hnonneg : ¬ (dev : Int) < 0 := by omega
  cases hfile : files.stock dev <;>
    simp [initStep, MsrFiles.deviceAt, MsrFiles.device, statModule, hfile, hlt, hnonneg,
      VariorumError.code_neg]

/-- A turn with the msr_safe module. -/
theorem initStep_msrSafe (h : dev < n) :
    initStep n files ⟨dev, .msrSafe, descriptor⟩
      = match files.safe dev with
        | .missing => .inr (.outOfRange (-1))
        | .denied => .inr (.returned (-1) descriptor)
        | .unopenable => .inl ⟨dev, .msr, Function.update descriptor dev none⟩
        | .usable =>
            .inl ⟨(dev + 1 : Nat), .msrSafe,
              Function.update descriptor dev (some (.msrSafe, dev))⟩ := by
  have hlt : ¬ (n : Int) ≤ dev := by omega
  have hnonneg : ¬ (dev : Int) < 0 := by omega
  cases hfile : files.safe dev <;>
    simp [initStep, MsrFiles.deviceAt, MsrFiles.device, statModule, hfile, hlt, hnonneg,
      VariorumError.code_neg]

/-- A turn over a device that can be used. -/
theorem initStep_usable (h : dev < n) {kerneltype : KernelType} (hkt : kerneltype ≠ .unknown)
    (hfile : files.device kerneltype dev = .usable) :
    initStep n files ⟨dev, kerneltype, descriptor⟩
      = .inl ⟨(dev + 1 : Nat), kerneltype,
          Function.update descriptor dev (some (kerneltype, dev))⟩ := by
  cases kerneltype with
  | unknown => exact absurd rfl hkt
  | msr =>
      rw [initStep_msr h, show files.stock dev = .usable from hfile]
  | msrSafe =>
      rw [initStep_msrSafe h, show files.safe dev = .usable from hfile]

/-- Turns left, two for a CPU whose msr_safe device may be tried. -/
def turnsLeft (n : Nat) (s : InitState) : Nat :=
  2 * ((n : Int) - s.devIdx).toNat + if s.kerneltype = .msr then 0 else 1

/-- **Every turn lowers the number of those left.** -/
theorem turnsLeft_lt {s s' : InitState} (h : initStep n files s = .inl s') :
    turnsLeft n s' < turnsLeft n s := by
  obtain ⟨devIdx, kerneltype, descriptor⟩ := s
  unfold initStep at h
  split at h
  · cases h
  · next hlt =>
      have hdev : devIdx < n := Int.not_le.mp hlt
      generalize files.deviceAt kerneltype devIdx = file at h
      cases kerneltype <;> cases file <;> simp [statModule, VariorumError.code_neg] at h
      all_goals
        split at h
        · cases h
        · cases h <;> simp only [turnsLeft, reduceCtorEq, if_true, if_false] <;> omega

theorem initMsrRun_isSome (n : Nat) (files : MsrFiles) : ∃ e, initMsrRun n files = some e := by
  refine run_of_measure (turnsLeft n) (fun s s' => turnsLeft_lt) ?_
  show 2 * ((n : Int) - 0).toNat + _ < 2 * n + 2
  split <;> omega

end Turn

/-! ### Several turns -/

section Turns

variable {n : Nat} {files : MsrFiles} {descriptor : Nat → Option OpenFile} {dev i : Nat}
variable {kerneltype : KernelType} {e : InitEnd}

/-- The table once the devices of the CPUs from `dev` to `i` are open. -/
def openedTo (kerneltype : KernelType) (dev i : Nat) (descriptor : Nat → Option OpenFile) :
    Nat → Option OpenFile :=
  fun d => if dev ≤ d ∧ d < i then some (kerneltype, d) else descriptor d

theorem openedTo_self : openedTo kerneltype dev dev descriptor = descriptor := by
  funext d
  exact if_neg (by omega)

theorem openedTo_succ (h : dev < i) :
    openedTo kerneltype (dev + 1) i (Function.update descriptor dev (some (kerneltype, dev)))
      = openedTo kerneltype dev i descriptor := by
  funext d
  unfold openedTo
  rcases Nat.lt_trichotomy d dev with hd | rfl | hd
  · rw [if_neg (by omega), if_neg (by omega), Function.update_of_ne (by omega)]
  · rw [if_neg (by omega), if_pos ⟨le_rfl, h⟩, Function.update_self]
  · rw [Function.update_of_ne (by omega)]
    exact if_congr (by omega) rfl rfl

/-- **The loop opens the devices that can be used**, and what comes then decides. -/
theorem ends_of_usable (hkt : kerneltype ≠ .unknown) (hi : i ≤ n) (hdev : dev ≤ i)
    (husable : ∀ j, dev ≤ j → j < i → files.device kerneltype j = .usable)
    (h : Ends (initStep n files) ⟨i, kerneltype, openedTo kerneltype dev i descriptor⟩ e) :
    Ends (initStep n files) ⟨dev, kerneltype, descriptor⟩ e := by
  obtain ⟨m, rfl⟩ := Nat.exists_eq_add_of_le hdev
  induction m generalizing dev descriptor with
  | zero => rwa [Nat.add_zero, openedTo_self] at h
  | succ m ih =>
      have harith : dev + (m + 1) = dev + 1 + m := by omega
      rw [harith] at h husable hi
      refine .next (initStep_usable (by omega) hkt (husable dev le_rfl (by omega))) ?_
      refine ih hi (by omega) (fun j hj hlt => husable j (by omega) hlt) ?_
      rwa [openedTo_succ (by omega)]

/-- The first device from `dev` on that is no good, if there is one. -/
theorem exists_first_unusable (file : Nat → DeviceFile) (hdev : dev ≤ n) :
    ∃ i, dev ≤ i ∧ i ≤ n ∧ (∀ j, dev ≤ j → j < i → file j = .usable) ∧
      (i = n ∨ i < n ∧ file i ≠ .usable) := by
  obtain ⟨m, rfl⟩ := Nat.exists_eq_add_of_le hdev
  induction m generalizing dev with
  | zero => exact ⟨dev, le_rfl, le_rfl, fun j hj hlt => by omega, .inl rfl⟩
  | succ m ih =>
      by_cases hfile : file dev = .usable
      · have harith : dev + (m + 1) = dev + 1 + m := by omega
        rw [harith]
        obtain ⟨i, hge, hle, husable, hend⟩ := ih (show dev + 1 ≤ dev + 1 + m by omega)
        refine ⟨i, by omega, hle, fun j hj hlt => ?_, hend⟩
        rcases Nat.eq_or_lt_of_le hj with rfl | hj
        · exact hfile
        · exact husable j hj hlt
      · exact ⟨dev, le_rfl, by omega, fun j hj hlt => by omega, .inr ⟨by omega, hfile⟩⟩

/-- **The stock module.**  All devices are opened, or a failure is told. -/
theorem ends_msr (hdev : dev ≤ n) (descriptor : Nat → Option OpenFile) :
    ((∀ j, dev ≤ j → j < n → files.stock j = .usable) ∧
        Ends (initStep n files) ⟨dev, .msr, descriptor⟩
          (.returned 0 (openedTo .msr dev n descriptor))) ∨
      ((∃ j, dev ≤ j ∧ j < n ∧ files.stock j ≠ .usable) ∧
        ∃ ret table, ret ≠ 0 ∧
          Ends (initStep n files) ⟨dev, .msr, descriptor⟩ (.returned ret table)) := by
  obtain ⟨i, hge, hle, husable, rfl | ⟨hlt, hfile⟩⟩ := exists_first_unusable files.stock hdev
  · refine .inl ⟨husable, ends_of_usable nofun le_rfl hge husable ?_⟩
    exact .done (initStep_of_le le_rfl .msr)
  · refine .inr ⟨⟨i, hge, hlt, hfile⟩, ?_⟩
    have hstep : initStep n files ⟨i, .msr, openedTo .msr dev i descriptor⟩ = _ := initStep_msr hlt
    cases hstock : files.stock i <;> rw [hstock] at hstep
    case usable => exact absurd hstock hfile
    case missing => exact ⟨_, _, by decide, ends_of_usable nofun hle hge husable (.done hstep)⟩
    case denied => exact ⟨_, _, by decide, ends_of_usable nofun hle hge husable (.done hstep)⟩
    case unopenable => exact ⟨_, _, by decide, ends_of_usable nofun hle hge husable (.done hstep)⟩

/-- **The loop ends like `initLoop`**, which goes over the list of CPUs. -/
theorem ends_like_initLoop (hkt : kerneltype ≠ .unknown) (m : Nat)
    (descriptor : Nat → Option OpenFile) (p : Proc) (hdev : dev + m = n) :
    ∃ e, Ends (initStep n files) ⟨dev, kerneltype, descriptor⟩ e ∧
      e.ret = (initLoop files kerneltype (List.range' dev m) p).map Prod.fst := by
  -- by induction on the devices that are left
  induction m generalizing dev kerneltype descriptor p with
  | zero => exact ⟨_, .done (initStep_of_le (by omega) kerneltype), rfl⟩
  | succ m ih =>
      have hlt : dev < n := by omega
      -- the turn with the msr driver, needed here both for itself and for the way out of msr-safe
      have hmsr : ∀ (descriptor : Nat → Option OpenFile) (p : Proc),
          ∃ e, Ends (initStep n files) ⟨dev, .msr, descriptor⟩ e ∧
            e.ret = (initLoop files .msr (List.range' dev (m + 1)) p).map Prod.fst := by
        intro descriptor p
        have hstep : initStep n files ⟨dev, .msr, descriptor⟩ = _ := initStep_msr hlt
        rw [List.range'_succ, initLoop, initTurn_msr]
        cases hstock : files.stock dev <;> rw [hstock] at hstep
        case missing => exact ⟨_, .done hstep, rfl⟩
        case denied => exact ⟨_, .done hstep, rfl⟩
        case unopenable => exact ⟨_, .done hstep, rfl⟩
        case usable =>
          obtain ⟨e, he, hret⟩ := ih (show KernelType.msr ≠ .unknown by decide)
            (Function.update descriptor dev (some (.msr, dev))) (p.openSlot dev)
            (show dev + 1 + m = n by omega)
          exact ⟨e, .next hstep he, hret⟩
      cases kerneltype with
      | unknown => exact absurd rfl hkt
      | msr => exact hmsr descriptor p
      | msrSafe =>
          have hstep : initStep n files ⟨dev, .msrSafe, descriptor⟩ = _ := initStep_msrSafe hlt
          rw [List.range'_succ, initLoop, initTurn_msrSafe]
          cases hsafe : files.safe dev <;> rw [hsafe] at hstep
          case missing => exact ⟨_, .done hstep, rfl⟩
          case denied => exact ⟨_, .done hstep, rfl⟩
          case usable =>
            obtain ⟨e, he, hret⟩ := ih (show KernelType.msrSafe ≠ .unknown by decide)
              (Function.update descriptor dev (some (.msrSafe, dev))) (p.openSlot dev)
              (show dev + 1 + m = n by omega)
            exact ⟨e, .next hstep he, hret⟩
          case unopenable =>
            -- the loop starts the device over with the other driver, where the model tries it at
            -- once
            obtain ⟨e, he, hret⟩ := hmsr (Function.update descriptor dev none) (p.failSlot dev)
            refine ⟨e, .next hstep he, hret.trans ?_⟩
            simp only [List.range'_succ, initLoop, initTurn_msr]
            cases files.stock dev <;> rfl

end Turns

/-! ### The whole loop -/

/-- The allowlist makes `init_msr` start with the msr_safe module: `stat` finds it,
with the permissions asked for. -/
def MsrFiles.UsesSafe (files : MsrFiles) : Prop :=
  files.allowlist = .unopenable ∨ files.allowlist = .usable

/-- What it takes: if the msr_safe module is used, the first of its devices that
is no good exists, and where it cannot be opened it is the first CPU's, or a
stock device from there on cannot be used either. -/
def MsrFiles.InitPre (files : MsrFiles) (n : Nat) : Prop :=
  files.UsesSafe → ∀ i < n, (∀ j < i, files.safe j = .usable) →
    files.safe i ≠ .missing ∧
      (files.safe i = .unopenable → i = 0 ∨ ∃ j, i ≤ j ∧ j < n ∧ files.stock j ≠ .usable)

section Whole

variable {n : Nat} {files : MsrFiles} {e : InitEnd}

theorem initMsrRun_eq_some_iff :
    initMsrRun n files = some e ↔ Ends (initStep n files) (initStart files) e := by
  constructor
  · exact fun h => ⟨_, h⟩
  · intro h
    obtain ⟨e', he'⟩ := initMsrRun_isSome n files
    rw [he', Ends.unique ⟨_, he'⟩ h]

theorem initStart_of_usesSafe (h : files.UsesSafe) :
    initStart files = ⟨0, .msrSafe, fun _ => none⟩ := by
  unfold initStart
  rcases h with h | h <;> rw [h] <;> rfl

theorem initStart_of_not_usesSafe (h : ¬ files.UsesSafe) :
    initStart files = ⟨0, .msr, fun _ => none⟩ := by
  unfold initStart
  cases hlist : files.allowlist with
  | missing => rfl
  | denied => rfl
  | unopenable => exact absurd (.inl hlist) h
  | usable => exact absurd (.inr hlist) h

/-- **`init_msr` returns what `initMsr` computes**, or dies where it does. -/
theorem initMsrRun_ret (n : Nat) (files : MsrFiles) (p : Proc) :
    (initMsrRun n files).map InitEnd.ret = some ((initMsr n files p).map Prod.fst) := by
  have hkt : (statModule files.allowlist .unknown 0).2.1 ≠ .unknown := by
    cases files.allowlist <;> decide
  obtain ⟨e, he, hret⟩ := ends_like_initLoop hkt n (fun _ => none) p (Nat.zero_add n)
  rw [initMsrRun_eq_some_iff.mpr he, Option.map_some, hret, initMsr_eq]

/-- Where the first msr_safe devices can be used, the one after them is all that
matters. -/
theorem initPre_iff_of_first {i : Nat} (hsafe : files.UsesSafe) (hi : i < n)
    (husable : ∀ j < i, files.safe j = .usable) (hfile : files.safe i ≠ .usable) :
    files.InitPre n ↔ files.safe i ≠ .missing ∧
      (files.safe i = .unopenable → i = 0 ∨ ∃ j, i ≤ j ∧ j < n ∧ files.stock j ≠ .usable) := by
  constructor
  · exact fun h => h hsafe i hi husable
  · intro h _ i' hi' husable'
    rcases Nat.lt_trichotomy i' i with hlt | rfl | hgt
    · rw [husable i' hlt]
      exact ⟨nofun, nofun⟩
    · exact h
    · exact absurd (husable' i hgt) hfile

/-- Descriptors of both modules are not those of one. -/
theorem not_good_of_mixed {i : Nat} (hpos : 0 < i) (hi : i < n)
    (descriptor : Nat → Option OpenFile) :
    ¬ (InitEnd.returned 0 (openedTo .msr i n
        (Function.update (openedTo .msrSafe 0 i descriptor) i none))).Good n := by
  rintro (h | ⟨module, hmodule⟩)
  · exact h rfl
  · have hfirst := hmodule 0 (by omega)
    have hlast := hmodule i hi
    rw [openedTo, if_neg (by omega), Function.update_of_ne (by omega), openedTo,
      if_pos ⟨le_rfl, hpos⟩] at hfirst
    rw [openedTo, if_pos ⟨le_rfl, hi⟩] at hlast
    cases hfirst
    cases hlast

theorem good_of_opened (kerneltype : KernelType) (descriptor : Nat → Option OpenFile) :
    (InitEnd.returned 0 (openedTo kerneltype 0 n descriptor)).Good n :=
  .inr ⟨kerneltype, fun dev hdev => if_pos ⟨Nat.zero_le dev, hdev⟩⟩

/-- **`init_msr`.**  For every number of CPUs and every state of their device files: it
ends, and returns what it should without using an index outside of the node, exactly
under the condition.  What goes wrong otherwise is the way back from the msr-safe driver
to the stock one, where the index goes back by one. -/
theorem initMsr_iff (n : Nat) (files : MsrFiles) :
    (∃ e, initMsrRun n files = some e ∧ e.Good n) ↔ files.InitPre n := by
  have hends : ∀ {e}, Ends (initStep n files) (initStart files) e →
      ((∃ e, initMsrRun n files = some e ∧ e.Good n) ↔ e.Good n) := by
    intro e he
    constructor
    · rintro ⟨e', he', hgood⟩
      rwa [← (initMsrRun_eq_some_iff.mp he').unique he]
    · exact fun hgood => ⟨e, initMsrRun_eq_some_iff.mpr he, hgood⟩
  by_cases hsafe : files.UsesSafe
  · rw [initStart_of_usesSafe hsafe] at hends
    obtain ⟨i, -, hle, husable, rfl | ⟨hlt, hfile⟩⟩ :=
      exists_first_unusable files.safe (Nat.zero_le n)
    · -- all devices of msr_safe
      rw [hends (ends_of_usable nofun le_rfl (Nat.zero_le i) husable
        (.done (initStep_of_le le_rfl .msrSafe)))]
      refine iff_of_true (good_of_opened _ _) fun _ j hj _ => ?_
      rw [husable j (Nat.zero_le j) hj]
      exact ⟨nofun, nofun⟩
    · have husable' : ∀ j < i, files.safe j = .usable := fun j => husable j (Nat.zero_le j)
      rw [initPre_iff_of_first hsafe hlt husable' hfile]
      have hstep : initStep n files ⟨i, .msrSafe, openedTo .msrSafe 0 i fun _ => none⟩ = _ :=
        initStep_msrSafe hlt
      have hreach : ∀ {e},
          Ends (initStep n files) ⟨i, .msrSafe, openedTo .msrSafe 0 i fun _ => none⟩ e →
            Ends (initStep n files) ⟨0, .msrSafe, fun _ => none⟩ e :=
        ends_of_usable nofun hle (Nat.zero_le i) husable
      cases hdevice : files.safe i <;> rw [hdevice] at hstep
      case usable => exact absurd hdevice hfile
      case missing =>
        rw [hends (hreach (.done hstep))]
        exact iff_of_false not_false fun h => h.1 rfl
      case denied =>
        rw [hends (hreach (.done hstep))]
        exact iff_of_true (.inl (by decide)) ⟨nofun, nofun⟩
      case unopenable =>
        -- on with the stock module
        rcases ends_msr hle (Function.update (openedTo .msrSafe 0 i fun _ => none) i none) with
          ⟨hstock, he⟩ | ⟨hstock, ret, table, hret, he⟩
        · rw [hends (hreach (.next hstep he))]
          rcases Nat.eq_zero_or_pos i with rfl | hpos
          · exact iff_of_true (good_of_opened _ _) ⟨nofun, fun _ => .inl rfl⟩
          · refine iff_of_false (not_good_of_mixed hpos hlt _) fun h => ?_
            rcases h.2 rfl with rfl | ⟨j, hj, hjn, hne⟩
            · exact absurd hpos (Nat.lt_irrefl 0)
            · exact hne (hstock j hj hjn)
        · rw [hends (hreach (.next hstep he))]
          exact iff_of_true (.inl hret) ⟨nofun, fun _ => .inr hstock⟩
  · rw [initStart_of_not_usesSafe hsafe] at hends
    refine iff_of_true ?_ fun h => absurd h hsafe
    rcases ends_msr (Nat.zero_le n) fun _ => none with ⟨-, he⟩ | ⟨-, ret, table, hret, he⟩
    · exact (hends he).mpr (good_of_opened _ _)
    · exact (hends he).mpr (.inl hret)

/-- The allowlist is there, but not the only CPU's msr_safe device: its descriptor
would go to index -1. -/
theorem initMsr_uses_minus_one :
    ¬ ∃ e, initMsrRun 1 ⟨.usable, fun _ => .missing, fun _ => .usable⟩ = some e ∧ e.Good 1 := by
  rintro ⟨e, he, hgood⟩
  obtain rfl : InitEnd.outOfRange (-1) = e := Option.some.inj he
  exact hgood

end Whole

end Variorum
