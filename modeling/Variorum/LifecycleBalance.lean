/-
Variorum/LifecycleBalance.lean

Whether API calls give back what `variorum_enter` took.

Between two calls nothing should be held: no MSR descriptor open, every
allocation of `variorum_detect_arch` freed once, a `variorum_exit` for every
`variorum_enter` that returned 0 (`Balanced`).  A call falls short when
`variorum_enter` fails after a platform was detected, when the function returns
before `variorum_exit`, and when `variorum_exit` cannot close a device or
returns before it frees.  `balance_iff` says which runs stay balanced, of any
length and on any build for Intel CPUs.

`variorum_print_topology` and `variorum_get_current_version` call neither
function and are left out.
-/
import Variorum.ApiDispatch
import Variorum.Lifecycle
import Variorum.Runs
import Variorum.Topology

namespace Variorum

open Runs

/-! ### How the work of a function ends -/

/-- A loop over these entries comes to a NULL pointer that it calls. -/
def LoopStyle.Dies : LoopStyle → List (Option Int) → Prop
  | .calls, rs => none ∈ rs
  | _, _ => False

/-- A loop over these entries comes to its end. -/
def LoopStyle.Finishes : LoopStyle → List (Option Int) → Prop
  | .skips, rs => ∀ r ∈ rs, r = none ∨ r = some 0
  | .stops, rs => ∀ r ∈ rs, r = some 0
  | .reports, _ => True
  | .calls, rs => none ∉ rs

section Ends

variable (b : Build) (table : PlatformKind → Feature → Option Int)

/-- The entry of the platform that a chain of `#ifdef` picks; `none` for one
behind the end of the table. -/
def Build.entry (ks : List PlatformKind) (f : Feature) : Option (Option Int) :=
  if b.pick ks < maxPlatforms then some ((ks.find? b).bind fun k => table k f) else none

/-- The entries of a feature. -/
def Build.entries (f : Feature) : List (Option Int) := b.platforms.map fun k => table k f

/-- The process dies in the work of the function. -/
def Body.Dies : Body → Prop
  | nothing => False
  | each style f _ => style.Dies (b.entries table f)
  | eachWithCpu style f _ => b.hasCpu = true ∧ style.Dies (b.entries table f)
  | onPrimary ks _ f _ => b.entry table ks f = none
  | utilization =>
      gpuKinds.any b = true ∧ ∀ r, b.entry table gpuKinds .getUtilizationJson ≠ some (some r)

/-- The work of the function comes to `variorum_exit`. -/
def Body.Finishes (proc : ProcFiles) : Body → Prop
  | nothing => True
  | each style f _ => style.Finishes (b.entries table f)
  | eachWithCpu style f _ => b.hasCpu = true ∧ style.Finishes (b.entries table f)
  | onPrimary ks _ f _ => b.entry table ks f = some (some 0)
  | utilization =>
      (gpuKinds.any b = true → b.entry table gpuKinds .getUtilizationJson = some (some 0)) ∧
      proc.statOpens = true ∧ proc.statReads = true ∧ proc.meminfoOpens = true

end Ends

/-- The three ends of a piece of work that leaves the state alone. -/
inductive Ends {σ : Type*} (s : σ) (dies finishes : Prop) : Option (BodyEnd × σ) → Prop
  | died (hdies : dies) (hfinishes : ¬ finishes) : Ends s dies finishes none
  | finished (hdies : ¬ dies) (hfinishes : finishes) :
      Ends s dies finishes (some (.finished, s))
  | returned (hdies : ¬ dies) (hfinishes : ¬ finishes) (ret : Int) :
      Ends s dies finishes (some (.returned ret, s))

section Scripts

variable {σ : Type*} {b : Build} {table : PlatformKind → Feature → Option Int} {s : σ}

/-- The platform table of a build, scripted. -/
def Build.scripted (σ : Type*) (b : Build) (table : PlatformKind → Feature → Option Int) :
    List (Platform σ) :=
  scriptedTable (fun _ s => s) (b.platforms.map table)

theorem marks_unmarked (calls : List Nat) (s : σ) : marks (fun _ s => s) calls s = s := by
  induction calls with
  | nil => rfl
  | cons i calls ih => exact ih

theorem platformLoop_ends (style : LoopStyle) (rs : List (Option Int)) (s : σ) :
    Ends s (style.Dies rs) (style.Finishes rs)
      (platformLoop style (column (fun _ s => s) 0 rs) s) := by
  -- each way to loop has its own empty entries: skipped, taken for the end, or called
  cases style with
  | skips =>
      rw [platformLoop_skips, marks_unmarked]
      by_cases h : ∀ r ∈ rs, r = none ∨ r = some 0
      · rw [if_pos h]
        exact .finished not_false h
      · rw [if_neg h]
        exact .returned not_false h (-1)
  | stops =>
      obtain ⟨e, calls, hrun, -, -, hend⟩ := platformLoop_stops (fun _ s => s) 0 rs s
      rw [hrun, marks_unmarked]
      cases e with
      | finished => exact .finished not_false (hend.mp rfl)
      | returned ret => exact .returned not_false (fun h => by cases hend.mpr h) ret
  | reports =>
      obtain ⟨calls, hrun⟩ := platformLoop_reports (fun _ s => s) 0 rs s
      rw [hrun, marks_unmarked]
      exact .finished not_false trivial
  | calls =>
      rw [platformLoop_calls, marks_unmarked]
      by_cases h : none ∈ rs
      · rw [if_pos h]
        exact .died h (not_not.mpr h)
      · rw [if_neg h]
        exact .finished h h

/-- The platform that a chain of `#ifdef` picks in a scripted table. -/
theorem gPlatform_scripted (σ : Type*) (b : Build)
    (table : PlatformKind → Feature → Option Int) (ks : List PlatformKind) :
    (gPlatform (b.scripted σ table) (b.pick ks) = none ∧ ∀ f, b.entry table ks f = none) ∨
    ∃ platform, gPlatform (b.scripted σ table) (b.pick ks) = some platform ∧
      ∀ f, ∃ r, b.entry table ks f = some r ∧ platform f = r.map fun r _ s => some (r, s) := by
  unfold Build.entry
  by_cases hroom : b.pick ks < maxPlatforms
  swap
  · rw [gPlatform, if_neg hroom]
    exact .inl ⟨rfl, fun f => if_neg hroom⟩
  refine .inr ?_
  simp only [if_pos hroom]
  rcases hfind : ks.find? b with - | k
  · -- none of them is compiled in: the entry behind the last platform
    have hpick : b.pick ks = b.platforms.length := by rw [Build.pick, hfind]
    have hout : (b.scripted σ table)[b.pick ks]? = none := by
      simp [hpick, Build.scripted, scriptedTable]
    rw [gPlatform, if_pos hroom, hout]
    exact ⟨_, rfl, fun f => ⟨none, rfl, rfl⟩⟩
  · have hpick : b.pick ks = b.index k := by rw [Build.pick, hfind]
    have hk : k ∈ b.platforms := Build.mem_platforms.mpr (List.find?_some hfind)
    have hentry : (b.platforms.map table)[b.pick ks]? = some (table k) := by
      rw [hpick, Build.index, List.getElem?_map, List.getElem?_idxOf hk]
      rfl
    exact ⟨_, gPlatform_scriptedTable _ hroom hentry, fun f => ⟨table k f, rfl, rfl⟩⟩

theorem entries_scripted (f : Feature) (args : f.Args) :
    entries (b.scripted σ table) f args = column (fun _ s => s) 0 (b.entries table f) := by
  unfold Build.scripted Build.entries
  rw [entries_scriptedTable, List.map_map]
  rfl

theorem cpuUtilization_ends (proc : ProcFiles) (s : σ) :
    Ends s False (proc.statOpens = true ∧ proc.statReads = true ∧ proc.meminfoOpens = true)
      (some (cpuUtilization proc s)) := by
  unfold cpuUtilization
  obtain ⟨- | -, - | -, - | -⟩ := proc
  case true.true.true => exact .finished not_false (by simp)
  all_goals exact .returned not_false (by simp) (-1)

/-- **How the work of an API function ends** on a scripted table. -/
theorem Body.run_ends (b : Build) (table : PlatformKind → Feature → Option Int)
    (proc : ProcFiles) (body : Body) (s : σ) :
    Ends s (body.Dies b table) (body.Finishes b table proc)
      (body.run b (b.scripted σ table) proc s) := by
  cases body with
  | nothing => exact .finished not_false trivial
  | each style f args =>
      show Ends s _ _ (platformLoop style (Variorum.entries _ f args) s)
      rw [entries_scripted]
      exact platformLoop_ends style (b.entries table f) s
  | eachWithCpu style f args =>
      simp only [Body.run, Body.Dies, Body.Finishes]
      cases b.hasCpu with
      | true =>
          simp only [if_true, true_and]
          rw [entries_scripted]
          exact platformLoop_ends style (b.entries table f) s
      | false =>
          simp only [Bool.false_eq_true, if_false, false_and]
          exact .returned not_false not_false 0
  | onPrimary ks retNull f args =>
      simp only [Body.run, Body.Dies, Body.Finishes]
      -- without a platform of the kind the table has no function to call
      rcases gPlatform_scripted σ b table ks with
        ⟨hout, hnone⟩ | ⟨platform, hin, hsome⟩
      · rw [hout, hnone f]
        exact .died rfl (by rintro ⟨⟩)
      · obtain ⟨r, hr, hfn⟩ := hsome f
        rw [hin, hr]
        simp only [hfn]
        cases r with
        | none => exact .returned (by rintro ⟨⟩) (by rintro ⟨⟩) retNull
        | some r =>
            by_cases hzero : r = 0
            · subst hzero
              exact .finished (by rintro ⟨⟩) rfl
            · simp only [Option.map_some, ne_eq, hzero, not_false_eq_true, if_true]
              exact .returned (by rintro ⟨⟩) (by simpa using hzero) (-1)
  | utilization =>
      simp only [Body.run, Body.Dies, Body.Finishes]
      -- the GPU part comes first, and only where it ends well the CPU part is reached
      cases gpuKinds.any b with
      | false =>
          simp only [Bool.false_eq_true, if_false, false_and, false_implies, true_and]
          exact cpuUtilization_ends proc s
      | true =>
          simp only [if_true, true_and, true_implies]
          rcases gPlatform_scripted σ b table gpuKinds with
            ⟨hout, hnone⟩ | ⟨platform, hin, hsome⟩
          · rw [hout, hnone .getUtilizationJson]
            exact .died (by rintro _ ⟨⟩) (by rintro ⟨⟨⟩, -⟩)
          · obtain ⟨r, hr, hfn⟩ := hsome .getUtilizationJson
            rw [hin, hr]
            simp only [hfn]
            cases r with
            | none => exact .died (by rintro _ ⟨⟩) (by rintro ⟨⟨⟩, -⟩)
            | some r =>
                by_cases hzero : r = 0
                · subst hzero
                  simpa using cpuUtilization_ends proc s
                · simp only [Option.map_some, ne_eq, hzero, not_false_eq_true, if_true]
                  exact .returned (fun h => h r rfl) (by simpa using fun h => absurd h hzero) (-1)

end Scripts

/-! ### A call -/

/-- A call of an API function and what it meets: the system in
`variorum_enter`, the platform table and what its functions return, `/proc`,
and what becomes of each `close` in `variorum_exit`. -/
structure ApiCall where
  body : Body
  sys : System
  table : PlatformKind → Feature → Option Int
  proc : ProcFiles
  closes : Nat → CloseResult

namespace ApiCall

/-- A call on a node with `n` CPUs. -/
def run (b : Build) (n : Nat) (c : ApiCall) (p : Proc) : Option (Int × Proc) :=
  callApi b ⟨variorumEnter b n c.sys, fun p => some (variorumExit b n c.closes p)⟩
    (b.scripted Proc c.table) c.proc c.body p

def step (b : Build) (n : Nat) (p : Proc) (c : ApiCall) : Option Proc :=
  (c.run b n p).map Prod.snd

end ApiCall

/-- Nothing is held: no MSR descriptor is open, every allocation has been freed
once, and every `variorum_enter` that returned 0 has had its
`variorum_exit`. -/
structure Proc.Balanced (p : Proc) : Prop where
  fds : p.fds = ∅
  freed : ∀ x ∈ p.blocks, p.freed x = 1
  paired : p.entered = p.exited

/-- A call that returns leaves the process balanced. -/
def ApiCall.Leaves (b : Build) (n : Nat) (p : Proc) (c : ApiCall) : Prop :=
  ∀ ret q, c.run b n p = some (ret, q) → q.Balanced

/-- The last status that `variorum_set_func_ptrs` assigns is a success. -/
def System.LastSucceeds (sys : System) (b : Build) (n : Nat) : Prop :=
  match b.others.getLast? with
  | some k => sys.set k = 0
  | none => sys.files.moduleFor n ≠ none

/-- `init_msr` comes to the CPU and leaves the `-1` of a failed `open` in its
slot. -/
def MsrFiles.FailsOpen (files : MsrFiles) (dev : Nat) : Prop :=
  files.moduleFor (dev + 1) = none ∧
    ∃ kerneltype, files.moduleFor dev = some kerneltype ∧
      files.device kerneltype dev = .unopenable

/-- `variorum_exit` gives everything back: every device that was opened is
released, and the `close` for the last CPU succeeds. -/
def ApiCall.Closes (n : Nat) (c : ApiCall) : Prop :=
  (∀ dev < n, c.sys.files.opens dev = true → c.closes dev ≠ .failedKept) ∧
  c.closes (n - 1) = .closed ∧ ¬ c.sys.files.FailsOpen (n - 1)

/-- The calls that do: no platform is detected; or all are,
`set_intel_func_ptrs` succeeds, and the process dies in `init_msr`, or the last
of the other platforms succeeds and the process dies in the work of the
function, or the work comes to `variorum_exit`, which gives everything back. -/
def ApiCall.Pre (b : Build) (n : Nat) (c : ApiCall) : Prop :=
  (∀ k, b k = true → c.sys.detect k = false) ∨
  ((∀ k, b k = true → c.sys.detect k = true) ∧ c.sys.set .intelCpu = 0 ∧
    (c.sys.files.Faults n ∨
      (c.sys.LastSucceeds b n ∧
        (c.body.Dies b c.table ∨ (c.body.Finishes b c.table c.proc ∧ c.Closes n)))))

/-- What holds of the process between two balanced calls: no name of a later
descriptor or allocation is in use, and the last CPU's slot holds no failed
`open`. -/
structure Proc.Settled (n : Nat) (p : Proc) : Prop where
  balanced : p.Balanced
  blocks : ∀ x ∈ p.blocks, x.1 ≤ p.serial
  unfreed : ∀ x, x ∉ p.blocks → p.freed x = 0
  slots : ∀ dev x, p.slot dev = .fd x → x.1 ≤ p.serial
  last : p.slot (n - 1) ≠ .failed

theorem Proc.settled_start (n : Nat) : Proc.start.Settled n :=
  { balanced := ⟨rfl, nofun, rfl⟩, blocks := nofun, unfreed := fun _ _ => rfl
    slots := nofun, last := nofun }

/-! ### variorum_enter -/

/-- What `variorum_enter` has taken when it returns 0. -/
structure Proc.Entered (b : Build) (n : Nat) (files : MsrFiles) (p q : Proc) : Prop where
  serial : q.serial = p.serial + 1
  slot : ∀ dev, q.slot dev
    = if dev < n then files.slotAfter (p.serial + 1) dev (p.slot dev) else p.slot dev
  fds : ∀ x, x ∈ q.fds ↔
    x ∈ p.fds ∨ ∃ dev < n, files.opens dev = true ∧ x = (p.serial + 1, dev)
  archId : ∀ k, b k = true → q.archId k = some (p.serial + 1, k)
  blocks : ∀ x, x ∈ q.blocks ↔ x ∈ p.blocks ∨ ∃ k, b k = true ∧ x = (p.serial + 1, k)
  freed : q.freed = p.freed
  entered : q.entered = p.entered + 1
  exited : q.exited = p.exited

section Enter

variable {b : Build} {n : Nat} {sys : System} {p : Proc}

/-- The status that `variorum_set_func_ptrs` returns after `init_msr`. -/
theorem overwritten_others {ret : Int} (hret : ret = 0 ↔ sys.files.moduleFor n ≠ none) :
    Status.overwritten ret (b.others.map sys.set) = 0 ↔ sys.LastSucceeds b n := by
  unfold System.LastSucceeds
  rw [Status.overwritten_eq_last, List.getLast?_map]
  rcases b.others.getLast? with - | k
  · exact hret
  · exact Iff.rfl

theorem enter_of_faults (hb : b .intelCpu = true)
    (hdetect : ∀ k, b k = true → sys.detect k = true) (hset : sys.set .intelCpu = 0)
    (hfault : sys.files.Faults n) : variorumEnter b n sys p = none := by
  obtain ⟨q, hrun, -⟩ := variorumEnter_of_detected n p hdetect
  rw [hrun]
  simp [variorumSetFuncPtrs, hb, hset, initMsr_of_faults hfault]

/-- With the platforms detected, what `init_msr` leaves and the status of the
last platform. -/
theorem enter_of_live (hb : b .intelCpu = true)
    (hdetect : ∀ k, b k = true → sys.detect k = true) (hset : sys.set .intelCpu = 0)
    (hlive : ¬ sys.files.Faults n) :
    ∃ err q, variorumEnter b n sys p = some (err, q) ∧ (err = 0 ↔ sys.LastSucceeds b n) ∧
      (err = 0 → p.Entered b n sys.files q) ∧ q.freed = p.freed ∧
      (p.serial + 1, PlatformKind.intelCpu) ∈ q.blocks := by
  obtain ⟨q, hrun, harch, hblocks, hframe⟩ := variorumEnter_of_detected n p hdetect
  obtain ⟨ret, hret, hinit⟩ := initMsr_spec (p := q) hlive
  obtain ⟨q', hfold, hslot, hfds, hframe'⟩ := sys.files.foldl_turn_spec n q
  rw [hfold] at hinit
  have hserial : q.serial = p.serial + 1 := by rw [hframe]
  have hslots : q.slot = p.slot := by rw [hframe]
  have hfds' : q.fds = p.fds := by rw [hframe]
  have hblocks' : q'.blocks = q.blocks := by rw [hframe']
  have hptrs : variorumSetFuncPtrs b n sys q
      = some (Status.overwritten ret (b.others.map sys.set), q') := by
    simp [variorumSetFuncPtrs, hb, hset, hinit]
  rw [hrun, hptrs]
  -- the counter of the calls that entered is the last thing set, and only on success
  refine ⟨_, if Status.overwritten ret (b.others.map sys.set) = 0 then
    { q' with entered := q'.entered + 1 } else q', rfl, overwritten_others hret, fun herr => ?_,
    ?_, ?_⟩
  · rw [if_pos herr]
    exact
      { serial := by show q'.serial = _; rw [hframe', hserial]
        slot := fun dev => by show q'.slot dev = _; rw [hslot, hserial, hslots]
        fds := fun x => by show x ∈ q'.fds ↔ _; rw [hfds, hserial, hfds']
        archId := fun k hk => by show q'.archId k = _; rw [hframe']; exact harch k hk
        blocks := fun x => by show x ∈ q'.blocks ↔ _; rw [hblocks', hblocks]
        freed := by show q'.freed = _; rw [hframe', hframe]
        entered := by show q'.entered + 1 = _; rw [hframe', hframe]
        exited := by show q'.exited = _; rw [hframe', hframe] }
  · split <;> (show q'.freed = _; rw [hframe', hframe])
  · have hmem : (p.serial + 1, PlatformKind.intelCpu) ∈ q'.blocks := by
      rw [hblocks', hblocks]
      exact .inr ⟨.intelCpu, hb, rfl⟩
    split <;> exact hmem

theorem enter_of_set_fails (hb : b .intelCpu = true)
    (hdetect : ∀ k, b k = true → sys.detect k = true) (hset : sys.set .intelCpu ≠ 0) :
    ∃ err q, variorumEnter b n sys p = some (err, q) ∧ err ≠ 0 ∧ q.freed = p.freed ∧
      (p.serial + 1, PlatformKind.intelCpu) ∈ q.blocks := by
  obtain ⟨q, hrun, -, hblocks, hframe⟩ := variorumEnter_of_detected n p hdetect
  have hptrs : variorumSetFuncPtrs b n sys q = some (sys.set .intelCpu, q) := by
    simp [variorumSetFuncPtrs, hb, hset]
  refine ⟨sys.set .intelCpu, q, ?_, hset, ?_, ?_⟩
  · rw [hrun, hptrs]
    simp [hset]
  · rw [hframe]
  · exact (hblocks _).mpr (.inr ⟨.intelCpu, hb, rfl⟩)

end Enter

/-! ### variorum_exit -/

/-- The status of `variorum_exit` on a build for Intel CPUs. -/
def exitStatus (n : Nat) (closes : Nat → CloseResult) (p : Proc) : Int :=
  Status.overwritten 0 ((List.range n).map fun dev => closeRet closes dev (p.slot dev))

theorem exitStatus_eq {n : Nat} (hn : 0 < n) (closes : Nat → CloseResult) (p : Proc) :
    exitStatus n closes p = closeRet closes (n - 1) (p.slot (n - 1)) := by
  obtain ⟨m, rfl⟩ := Nat.exists_eq_succ_of_ne_zero (Nat.ne_of_gt hn)
  unfold exitStatus
  rw [List.range_succ, List.map_append, List.map_singleton, Status.overwritten_concat]
  rfl

/-- **`variorum_exit`** frees nothing unless the last `close` succeeded. -/
theorem variorumExit_spec {b : Build} (hb : b .intelCpu = true) (n : Nat)
    (closes : Nat → CloseResult) {p : Proc} {serial : Nat}
    (harch : ∀ k, b k = true → p.archId k = some (serial, k)) :
    ∃ q, variorumExit b n closes p = (exitStatus n closes p, q) ∧
      (∀ x, x ∈ q.fds ↔ x ∈ p.fds ∧ ¬ p.Releases n closes x) ∧
      (∀ dev, q.slot dev = p.slot dev ∨ q.slot dev = .stale) ∧
      (∀ x, q.freed x = p.freed x
        + if exitStatus n closes p = 0 ∧ x.1 = serial ∧ b x.2 = true then 1 else 0) ∧
      q = { p with
            slot := q.slot
            fds := q.fds
            freed := q.freed
            exited := p.exited + 1 } := by
  obtain ⟨q, hrun, hfds, hslot, hframe⟩ :=
    finalizeMsr_spec n closes { p with exited := p.exited + 1 }
  have harchq : ∀ k ∈ b.platforms, q.archId k = some (serial, k) := by
    intro k hk
    rw [hframe]
    exact harch k (Build.mem_platforms.mp hk)
  obtain ⟨q', hfold, hfreed, hframe'⟩ := foldl_free_spec b.nodup_platforms harchq
  have hfreedq : q.freed = p.freed := by rw [hframe]
  -- the identifiers are freed only after every device was closed without an error
  by_cases hzero : exitStatus n closes p = 0
  · refine ⟨q', ?_, ?_, ?_, fun x => ?_, ?_⟩
    · simp only [variorumExit, hb, if_true, hrun, hfold]
      exact if_neg (not_not.mpr hzero)
    · rw [hframe']
      exact hfds
    · rw [hframe']
      exact hslot
    · rw [hfreed, hfreedq]
      simp only [hzero, true_and, Build.mem_platforms]
    · rw [hframe', hframe]
  · refine ⟨q, ?_, hfds, hslot, fun x => ?_, ?_⟩
    · simp only [variorumExit, hb, if_true, hrun]
      exact if_pos hzero
    · rw [hfreedq]
      simp [hzero]
    · rw [hframe]

/-! ### What a call leaves -/

section Call

variable {b : Build} {n : Nat} {c : ApiCall} {p q : Proc}

theorem run_of_enter_none (h : variorumEnter b n c.sys p = none) : c.run b n p = none := by
  simp only [ApiCall.run, callApi, h]

theorem run_of_enter_fails {err : Int} (herr : err ≠ 0)
    (h : variorumEnter b n c.sys p = some (err, q)) : c.run b n p = some (-1, q) := by
  simp only [ApiCall.run, callApi, h, if_pos herr]

/-- After `variorum_enter` the end of the work decides. -/
theorem run_of_enter (h : variorumEnter b n c.sys p = some (0, q)) :
    (c.body.Dies b c.table ∧ ¬ c.body.Finishes b c.table c.proc ∧ c.run b n p = none) ∨
    (¬ c.body.Dies b c.table ∧ c.body.Finishes b c.table c.proc ∧
      ∃ ret, c.run b n p = some (ret, (variorumExit b n c.closes q).2)) ∨
    (¬ c.body.Dies b c.table ∧ ¬ c.body.Finishes b c.table c.proc ∧
      ∃ ret, c.run b n p = some (ret, q)) := by
  have hends := Body.run_ends b c.table c.proc c.body q
  simp only [ApiCall.run, callApi, h, ne_eq, not_true_eq_false, if_false]
  generalize c.body.run b (b.scripted Proc c.table) c.proc q = out at hends
  cases hends with
  | died hdies hfinishes => exact .inl ⟨hdies, hfinishes, rfl⟩
  | finished hdies hfinishes =>
      refine .inr (.inl ⟨hdies, hfinishes, ?_⟩)
      by_cases herr : (variorumExit b n c.closes q).1 = 0
      · exact ⟨_, if_neg (not_not.mpr herr)⟩
      · exact ⟨_, if_pos herr⟩
  | returned hdies hfinishes ret => exact .inr (.inr ⟨hdies, hfinishes, ret, rfl⟩)

/-- Nothing of this call is in use before it. -/
theorem Proc.Settled.unused (h : p.Settled n) (k : PlatformKind) :
    p.freed (p.serial + 1, k) = 0 := by
  refine h.unfreed _ fun hmem => ?_
  exact absurd (h.blocks _ hmem) (Nat.not_succ_le_self p.serial)

/-- An allocation of this call that has not been freed is a leak. -/
theorem not_balanced_of_unfreed (hp : p.Settled n) {k : PlatformKind}
    (hmem : (p.serial + 1, k) ∈ q.blocks)
    (hfreed : q.freed (p.serial + 1, k) = p.freed (p.serial + 1, k)) : ¬ q.Balanced := by
  intro hq
  have hone := hq.freed _ hmem
  rw [hfreed, hp.unused] at hone
  cases hone

theorem MsrFiles.slotAfter_of_opens {files : MsrFiles} {serial dev : Nat} {old : Slot}
    (h : files.opens dev = true) : files.slotAfter serial dev old = .fd (serial, dev) := by
  unfold opens at h
  unfold slotAfter
  obtain ⟨k, hk⟩ := Option.isSome_iff_exists.mp h
  rw [hk]

/-- A slot of this call names a device that was opened, or holds what it held,
or the `-1` of a failed `open`. -/
theorem MsrFiles.slotAfter_of_not_opens {files : MsrFiles} {dev : Nat} (serial : Nat)
    (old : Slot) (h : files.opens dev = false) :
    (files.FailsOpen dev ∧ files.slotAfter serial dev old = .failed) ∨
    (¬ files.FailsOpen dev ∧ files.slotAfter serial dev old = old) := by
  unfold opens at h
  have hnone : files.moduleFor (dev + 1) = none := by
    simpa using h
  unfold slotAfter FailsOpen
  rw [hnone]
  rcases files.moduleFor dev with - | k
  · simp
  · by_cases hopen : files.device k dev = .unopenable <;> simp [hopen]

/-- The descriptors of this call are the ones that are open. -/
theorem Proc.Entered.fds_iff (hp : p.Settled n) (he : p.Entered b n c.sys.files q)
    (x : Nat × Nat) :
    x ∈ q.fds ↔ ∃ dev < n, c.sys.files.opens dev = true ∧ x = (p.serial + 1, dev) := by
  rw [he.fds, hp.balanced.fds]
  simp

/-- A slot with a descriptor of this call is that of its CPU. -/
theorem Proc.Entered.slot_eq (hp : p.Settled n) (he : p.Entered b n c.sys.files q)
    {d dev : Nat} (h : q.slot d = .fd (p.serial + 1, dev)) : d = dev := by
  have hold : p.slot d ≠ .fd (p.serial + 1, dev) :=
    fun hd => absurd (hp.slots d _ hd) (Nat.not_succ_le_self p.serial)
  rw [he.slot] at h
  by_cases hlt : d < n
  · rw [if_pos hlt] at h
    cases hopens : c.sys.files.opens d with
    | true =>
        rw [MsrFiles.slotAfter_of_opens hopens] at h
        exact congrArg Prod.snd (Slot.fd.inj h)
    | false =>
        rcases MsrFiles.slotAfter_of_not_opens (p.serial + 1) (p.slot d) hopens with
          ⟨-, hs⟩ | ⟨-, hs⟩ <;> rw [hs] at h
        · cases h
        · exact absurd h hold
  · rw [if_neg hlt] at h
    exact absurd h hold

/-- The `close` for the last CPU finds a failed `open` or does as it likes. -/
theorem Proc.Entered.last_iff (hn : 0 < n) (hp : p.Settled n)
    (he : p.Entered b n c.sys.files q) :
    exitStatus n c.closes q = 0 ↔
      c.closes (n - 1) = .closed ∧ ¬ c.sys.files.FailsOpen (n - 1) := by
  rw [exitStatus_eq hn, he.slot, if_pos (by omega)]
  have hret : ∀ s, s ≠ Slot.failed → (closeRet c.closes (n - 1) s = 0 ↔
      c.closes (n - 1) = .closed) := by
    intro s hs
    rcases s with - | - | x
    · simp [closeRet]
    · exact absurd rfl hs
    · simp [closeRet]
  cases hopens : c.sys.files.opens (n - 1) with
  | true =>
      have hnot : ¬ c.sys.files.FailsOpen (n - 1) := by
        intro hfails
        rw [MsrFiles.opens, hfails.1] at hopens
        cases hopens
      rw [MsrFiles.slotAfter_of_opens hopens, hret (.fd _) nofun]
      exact (and_iff_left hnot).symm
  | false =>
      rcases MsrFiles.slotAfter_of_not_opens (p.serial + 1) (p.slot (n - 1)) hopens with
        ⟨hfails, hs⟩ | ⟨hfails, hs⟩ <;> rw [hs]
      · simp [closeRet, hfails]
      · rw [hret _ hp.last]
        exact (and_iff_left hfails).symm

/-- **A whole call**: with `variorum_exit` reached, the process is balanced
exactly when everything is given back. -/
theorem Proc.Entered.balanced_iff (hn : 0 < n) (hb : b .intelCpu = true) (hp : p.Settled n)
    (he : p.Entered b n c.sys.files q) :
    (variorumExit b n c.closes q).2.Balanced ↔ c.Closes n := by
  obtain ⟨q', hrun, hfds, -, hfreed, hframe⟩ := variorumExit_spec hb n c.closes he.archId
  have hblocks : q'.blocks = q.blocks := by rw [hframe]
  rw [hrun]
  constructor
  · intro hq
    -- the exit that gives an error back leaves the platform unfreed
    have hlast : exitStatus n c.closes q = 0 := by
      by_contra hne
      refine not_balanced_of_unfreed (k := .intelCpu) hp ?_ ?_ hq
      · rw [hblocks, he.blocks]
        exact .inr ⟨.intelCpu, hb, rfl⟩
      · rw [hfreed, he.freed]
        simp [hne]
    refine ⟨fun dev hlt hopens hkept => ?_, (he.last_iff hn hp).mp hlast⟩
    -- a descriptor that was not closed is still among the open ones
    have hopen : (p.serial + 1, dev) ∈ q'.fds := by
      rw [hfds, he.fds_iff hp]
      refine ⟨⟨dev, hlt, hopens, rfl⟩, ?_⟩
      rintro ⟨d, -, hd, hreleased⟩
      obtain rfl := he.slot_eq hp hd
      exact hreleased hkept
    rw [hq.fds] at hopen
    cases hopen
  · rintro ⟨hreleased, hlast⟩
    have hzero := (he.last_iff hn hp).mpr hlast
    refine ⟨?_, fun x hx => ?_, ?_⟩
    · refine Finset.eq_empty_of_forall_notMem fun x hx => ?_
      obtain ⟨hmem, hnot⟩ := (hfds x).mp hx
      obtain ⟨dev, hlt, hopens, rfl⟩ := (he.fds_iff hp x).mp hmem
      refine hnot ⟨dev, hlt, ?_, hreleased dev hlt hopens⟩
      rw [he.slot, if_pos hlt, MsrFiles.slotAfter_of_opens hopens]
    · rw [hfreed, he.freed]
      rw [hblocks, he.blocks] at hx
      rcases hx with hx | ⟨k, hk, rfl⟩
      · have hne : x.1 ≠ p.serial + 1 := Nat.ne_of_lt (Nat.lt_succ_of_le (hp.blocks x hx))
        rw [hp.balanced.freed x hx]
        simp [hne]
      · rw [hp.unused]
        simp [hzero, hk]
    · show q'.entered = q'.exited
      rw [hframe]
      show q.entered = q.exited + 1
      rw [he.entered, he.exited, hp.balanced.paired]

/-- A balanced process after `variorum_exit` is ready for the next call. -/
theorem Proc.Entered.settled (hn : 0 < n) (hb : b .intelCpu = true) (hp : p.Settled n)
    (he : p.Entered b n c.sys.files q) (hcloses : c.Closes n) :
    (variorumExit b n c.closes q).2.Settled n := by
  have hbalanced := (he.balanced_iff hn hb hp).mpr hcloses
  obtain ⟨q', hrun, -, hslot, hfreed, hframe⟩ := variorumExit_spec hb n c.closes he.archId
  have hblocks : q'.blocks = q.blocks := by rw [hframe]
  have hserial : q'.serial = p.serial + 1 := by
    rw [hframe]
    exact he.serial
  -- every slot holds what it held, or something of this call
  have hslots : ∀ dev, q'.slot dev = .stale ∨ q'.slot dev = p.slot dev ∨
      q'.slot dev = .fd (p.serial + 1, dev) ∨
      (c.sys.files.FailsOpen dev ∧ q'.slot dev = .failed) := by
    intro dev
    rcases hslot dev with hd | hd
    · rw [hd, he.slot]
      by_cases hlt : dev < n
      · rw [if_pos hlt]
        cases hopens : c.sys.files.opens dev with
        | true => exact .inr (.inr (.inl (MsrFiles.slotAfter_of_opens hopens)))
        | false =>
            rcases MsrFiles.slotAfter_of_not_opens _ _ hopens with ⟨hfails, hs⟩ | ⟨-, hs⟩
            · exact .inr (.inr (.inr ⟨hfails, hs⟩))
            · exact .inr (.inl hs)
      · rw [if_neg hlt]
        exact .inr (.inl rfl)
    · exact .inl hd
  rw [hrun] at hbalanced ⊢
  refine ⟨hbalanced, fun x hx => ?_, fun x hx => ?_, fun dev x hx => ?_, fun hfailed => ?_⟩
  · rw [hserial]
    rw [hblocks, he.blocks] at hx
    rcases hx with hx | ⟨k, -, rfl⟩
    · exact Nat.le_succ_of_le (hp.blocks x hx)
    · exact le_rfl
  · rw [hblocks, he.blocks, not_or] at hx
    rw [hfreed, he.freed, hp.unfreed x hx.1]
    have hnot : ¬ (x.1 = p.serial + 1 ∧ b x.2 = true) :=
      fun h => hx.2 ⟨x.2, h.2, Prod.ext h.1 rfl⟩
    rw [if_neg (fun h => hnot h.2)]
  · rw [hserial]
    rcases hslots dev with h | h | h | ⟨-, h⟩ <;> rw [h] at hx
    · cases hx
    · exact Nat.le_succ_of_le (hp.slots dev x hx)
    · obtain rfl := Slot.fd.inj hx
      exact le_rfl
    · cases hx
  · rcases hslots (n - 1) with h | h | h | ⟨hfails, -⟩
    · rw [h] at hfailed
      cases hfailed
    · exact hp.last (h.symm.trans hfailed)
    · rw [h] at hfailed
      cases hfailed
    · exact hcloses.2.2 hfails

/-- Where no platform is detected nothing is taken. -/
theorem settled_of_undetected (hp : p.Settled n)
    (hnone : ∀ k, b k = true → c.sys.detect k = false)
    (hblocks : ∀ x, x ∈ q.blocks ↔
      x ∈ p.blocks ∨ ∃ k, b k = true ∧ c.sys.detect k ∧ x = (p.serial + 1, k))
    (hframe : q = { p with serial := p.serial + 1, archId := q.archId, blocks := q.blocks }) :
    q.Settled n := by
  have hsame : q.blocks = p.blocks := by
    refine Finset.ext fun x => (hblocks x).trans (or_iff_left ?_)
    rintro ⟨k, hk, hdetect, -⟩
    rw [hnone k hk] at hdetect
    cases hdetect
  rw [hframe, hsame]
  exact
    { balanced := ⟨hp.balanced.fds, hp.balanced.freed, hp.balanced.paired⟩
      blocks := fun x hx => Nat.le_succ_of_le (hp.blocks x hx)
      unfreed := hp.unfreed
      slots := fun dev x hx => Nat.le_succ_of_le (hp.slots dev x hx)
      last := hp.last }

/-- A call that does not return leaves nothing to say. -/
theorem leaves_of_none (h : c.run b n p = none) : c.Leaves b n p := by
  intro ret q hrun
  rw [h] at hrun
  cases hrun

theorem not_leaves_of_run {ret : Int} (h : c.run b n p = some (ret, q)) (hq : ¬ q.Balanced) :
    ¬ c.Leaves b n p :=
  fun hleaves => hq (hleaves ret q h)

/-- A platform is not detected: what was allocated for the others is lost. -/
theorem leaves_iff_of_undetected (hp : p.Settled n)
    (hfound : ∃ k, b k = true ∧ c.sys.detect k = false) :
    (c.Leaves b n p ↔ ∀ k, b k = true → c.sys.detect k = false) ∧
    (c.Leaves b n p → ∀ ret q, c.run b n p = some (ret, q) → q.Settled n) := by
  obtain ⟨err, q, herr, henter, hblocks, hframe⟩ := variorumEnter_of_undetected n p hfound
  have hrun := run_of_enter_fails (c := c) herr henter
  by_cases hnone : ∀ k, b k = true → c.sys.detect k = false
  · have hsettled := settled_of_undetected hp hnone hblocks hframe
    have hall : ∀ ret q', c.run b n p = some (ret, q') → q'.Settled n := by
      intro ret q' hrun'
      rw [hrun] at hrun'
      obtain rfl := congrArg Prod.snd (Option.some.inj hrun')
      exact hsettled
    exact ⟨iff_of_true (fun ret q' h => (hall ret q' h).balanced) hnone, fun _ => hall⟩
  · have hleaves : ¬ c.Leaves b n p := by
      obtain ⟨k, hk⟩ := not_forall.mp hnone
      obtain ⟨hk, hdetect⟩ := Classical.not_imp.mp hk
      have hmem : (p.serial + 1, k) ∈ q.blocks :=
        (hblocks _).mpr (.inr ⟨k, hk, by simpa using hdetect, rfl⟩)
      exact not_leaves_of_run hrun (not_balanced_of_unfreed hp hmem (by rw [hframe]))
    exact ⟨iff_of_false hleaves hnone, fun h => absurd h hleaves⟩

/-- `variorum_enter` has succeeded: the work has to come to `variorum_exit`, and
that to give everything back. -/
theorem leaves_iff_of_entered (hn : 0 < n) (hb : b .intelCpu = true) (hp : p.Settled n)
    (henter : variorumEnter b n c.sys p = some (0, q)) (he : p.Entered b n c.sys.files q) :
    (c.Leaves b n p ↔
      c.body.Dies b c.table ∨ (c.body.Finishes b c.table c.proc ∧ c.Closes n)) ∧
    (c.Leaves b n p → ∀ ret q, c.run b n p = some (ret, q) → q.Settled n) := by
  rcases run_of_enter henter with ⟨hdies, -, hrun⟩ | ⟨hdies, hfinishes, ret, hrun⟩ |
    ⟨hdies, hfinishes, ret, hrun⟩
  · refine ⟨iff_of_true (leaves_of_none hrun) (.inl hdies), fun _ ret q' hrun' => ?_⟩
    rw [hrun] at hrun'
    cases hrun'
  · have hleaves : c.Leaves b n p ↔ c.Closes n := by
      rw [← he.balanced_iff hn hb hp]
      refine ⟨fun h => h ret _ hrun, fun h ret' q' hrun' => ?_⟩
      rw [hrun] at hrun'
      obtain rfl := congrArg Prod.snd (Option.some.inj hrun')
      exact h
    refine ⟨hleaves.trans ⟨fun h => .inr ⟨hfinishes, h⟩, fun h => (h.resolve_left hdies).2⟩, ?_⟩
    intro h ret' q' hrun'
    rw [hrun] at hrun'
    obtain rfl := congrArg Prod.snd (Option.some.inj hrun')
    exact he.settled hn hb hp (hleaves.mp h)
  · -- the function has returned before `variorum_exit`
    have hleaves : ¬ c.Leaves b n p := by
      have hmem : (p.serial + 1, PlatformKind.intelCpu) ∈ q.blocks :=
        (he.blocks _).mpr (.inr ⟨.intelCpu, hb, rfl⟩)
      exact not_leaves_of_run hrun (not_balanced_of_unfreed hp hmem (by rw [he.freed]))
    exact ⟨iff_of_false hleaves (fun h => h.elim hdies (fun h => hfinishes h.1)),
      fun h => absurd h hleaves⟩

/-- **One call** from a settled process: it leaves the process balanced exactly
when it meets the condition, and then settled. -/
theorem leaves_iff (hn : 0 < n) (hb : b .intelCpu = true) (hp : p.Settled n) :
    (c.Leaves b n p ↔ c.Pre b n) ∧
    (c.Leaves b n p → ∀ ret q, c.run b n p = some (ret, q) → q.Settled n) := by
  unfold ApiCall.Pre
  -- a platform that is not identified ends the call before anything is allocated for Intel
  by_cases hfound : ∃ k, b k = true ∧ c.sys.detect k = false
  · have hnot : ¬ ∀ k, b k = true → c.sys.detect k = true := by
      obtain ⟨k, hk, hfalse⟩ := hfound
      intro h
      rw [h k hk] at hfalse
      cases hfalse
    obtain ⟨hiff, hsettled⟩ := leaves_iff_of_undetected hp hfound
    exact ⟨hiff.trans (or_iff_left fun h => hnot h.1).symm, hsettled⟩
  have hdetect : ∀ k, b k = true → c.sys.detect k = true := by
    intro k hk
    by_contra hne
    exact hfound ⟨k, hk, Bool.eq_false_iff.mpr hne⟩
  have hsome : ¬ ∀ k, b k = true → c.sys.detect k = false :=
    fun h => hfound ⟨.intelCpu, hb, h .intelCpu hb⟩
  rw [or_iff_right hsome, and_iff_right hdetect]
  by_cases hset : c.sys.set .intelCpu = 0
  · rw [and_iff_right hset]
    -- a call that dies in init_msr leaves nothing to be compared
    by_cases hfault : c.sys.files.Faults n
    · have hrun := run_of_enter_none (enter_of_faults (p := p) hb hdetect hset hfault)
      refine ⟨iff_of_true (leaves_of_none hrun) (.inl hfault), fun _ ret q hrun' => ?_⟩
      rw [hrun] at hrun'
      cases hrun'
    · obtain ⟨err, q, henter, herr, hentered, hfreed, hmem⟩ :=
        enter_of_live (p := p) hb hdetect hset hfault
      rw [or_iff_right hfault]
      -- a call that fails in variorum_enter has no exit that could free what it took
      by_cases hzero : err = 0
      · subst hzero
        rw [and_iff_right (herr.mp rfl)]
        exact leaves_iff_of_entered hn hb hp henter (hentered rfl)
      · have hleaves := not_leaves_of_run (run_of_enter_fails hzero henter)
          (not_balanced_of_unfreed hp hmem (by rw [hfreed]))
        exact ⟨iff_of_false hleaves (fun h => hzero (herr.mpr h.1)), fun h => absurd h hleaves⟩
  · obtain ⟨err, q, henter, herr, hfreed, hmem⟩ := enter_of_set_fails (p := p) hb hdetect hset
    have hleaves := not_leaves_of_run (run_of_enter_fails herr henter)
      (not_balanced_of_unfreed hp hmem (by rw [hfreed]))
    exact ⟨iff_of_false hleaves (fun h => hset h.1), fun h => absurd h hleaves⟩

end Call

/-! ### Runs -/

/-- A build for Intel CPUs and whatever else. -/
def Build.withIntel (b : Build) : Build := fun k => k = .intelCpu || b k

/-- **Enter and exit balance.**  For every build for Intel CPUs, every node and
every sequence of calls, with any outcomes: each call of the run leaves the
process balanced if and only if each meets the condition. -/
theorem balance_iff (b : Build) (t : Topology) (calls : List ApiCall) :
    Along (ApiCall.step b.withIntel t.nthreads)
        (fun p c => c.Leaves b.withIntel t.nthreads p) .start calls ↔
      Along (ApiCall.step b.withIntel t.nthreads)
        (fun _ c => c.Pre b.withIntel t.nthreads) .start calls := by
  refine along_iff_of_inv (Proc.Settled t.nthreads) ?_
    (fun hp => (leaves_iff t.nthreads_pos rfl hp).1) (Proc.settled_start t.nthreads)
  intro p c q hp hleaves hstep
  obtain ⟨⟨ret, q'⟩, hrun, rfl⟩ := Option.map_eq_some_iff.mp hstep
  exact (leaves_iff t.nthreads_pos rfl hp).2 hleaves ret q' hrun

/-- A node with one CPU. -/
def oneCpu : Topology :=
  { nsockets := 1, ncores := 1, nthreads := 1
    nsockets_pos := by decide, ncores_pos := by decide, nthreads_pos := by decide
    nsockets_dvd := by decide, ncores_dvd := by decide, nthreads_lt := by decide }

/-- `variorum_cap_each_socket_power_limit(100)` on a platform without the
feature, where everything else succeeds. -/
def capWithoutFeature : ApiCall :=
  { body := variorumCapEachSocketPowerLimit 100
    sys :=
      { detect := fun _ => true
        set := fun _ => 0
        files := { allowlist := .usable, safe := fun _ => .usable, stock := fun _ => .usable } }
    table := fun _ _ => none
    proc := ⟨true, true, true⟩
    closes := fun _ => .closed }

/-- The call returns 0 before `variorum_exit`, with the MSR descriptor open. -/
theorem capWithoutFeature_leaks :
    ¬ Along (ApiCall.step (Build.withIntel fun _ => false) oneCpu.nthreads)
      (fun p c => c.Leaves (Build.withIntel fun _ => false) oneCpu.nthreads p) .start
      [capWithoutFeature] := by
  rintro ⟨hleaves, -⟩
  exact absurd (hleaves 0 _ rfl).fds (by decide)

end Variorum
