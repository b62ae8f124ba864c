/-
Variorum/LifecycleStatus.lean

Which failures `variorum_enter` and `variorum_exit` report.

Detection reports any failure, and so does `set_intel_func_ptrs`.  From
`init_msr` on, every platform compiled in assigns `err` again, so what
`variorum_enter` returns is the status of the last of them.  In the same way
`finalize_msr` returns the status of the last `close`.  And a call may not
return at all: `init_msr` can store through a NULL pointer, and the table of
platforms has two entries.  `lifecycle_iff` says for every build, every number
of CPUs and every pattern of failures whether the calls return and their value
can be trusted.
-/
import Variorum.Lifecycle

namespace Variorum

open Status

/-- Every step of `variorum_enter` succeeds. -/
structure System.StepsSucceed (sys : System) (b : Build) (n : Nat) : Prop where
  detect : ∀ k, b k = true → sys.detect k = true
  set : ∀ k, b k = true → sys.set k = 0
  initMsr : b .intelCpu = true → ∀ p, ∃ q, initMsr n sys.files p = some (0, q)

/-- `variorum_enter` returns, with 0 if and only if every step succeeded. -/
def EnterReports (b : Build) (n : Nat) (sys : System) (p : Proc) : Prop :=
  ∃ err q, enterTable b n sys p = some (err, q) ∧ (err = 0 ↔ sys.StepsSucceed b n)

/-- `variorum_exit` returns, with 0 if and only if every `close` succeeded. -/
def ExitReports (b : Build) (n : Nat) (closes : Nat → CloseResult) (p : Proc) : Prop :=
  ∃ err q, exitTable b n closes p = some (err, q) ∧
    (err = 0 ↔ (b .intelCpu = true → ∀ dev < n, closeRet closes dev (p.slot dev) = 0))

/-- No status of `variorum_enter` is lost: the platforms have entries in the table, and one
of them is not detected, or `set_intel_func_ptrs` fails, or `init_msr` does not end the
process and then no other platform is compiled in, or the last of them fails, or nothing
fails at all. -/
def System.StatusKept (sys : System) (b : Build) (n : Nat) : Prop :=
  b.platforms.length ≤ maxPlatforms ∧
  ((∃ k, b k = true ∧ sys.detect k = false) ∨
    (b .intelCpu = true ∧ sys.set .intelCpu ≠ 0) ∨
    ((b .intelCpu = true → ¬ sys.files.Faults n) ∧
      ((∀ k ∈ b.others.getLast?, sys.set k ≠ 0) ∨
        ((b .intelCpu = true → sys.files.moduleFor n ≠ none) ∧ ∀ k ∈ b.others, sys.set k = 0))))

/-- No status of `variorum_exit` is lost: the platforms have entries in the table, and no MSR
device is closed, the last `close` fails, or none fails. -/
def CloseStatusKept (b : Build) (n : Nat) (closes : Nat → CloseResult) (p : Proc) : Prop :=
  b.platforms.length ≤ maxPlatforms ∧
  (b .intelCpu = false ∨ n = 0 ∨ closeRet closes (n - 1) (p.slot (n - 1)) ≠ 0 ∨
    ∀ dev < n, closeRet closes dev (p.slot dev) = 0)

/-- A call of `variorum_enter` that returns reports if its 0 means success. -/
def ZeroMeansSuccess (b : Build) (n : Nat) (sys : System) (p : Proc) : Prop :=
  (∃ q, variorumEnter b n sys p = some (0, q)) ↔ sys.StepsSucceed b n

variable {b : Build} {n : Nat} {sys : System} {closes : Nat → CloseResult} {p : Proc}

theorem Build.mem_others {k : PlatformKind} : k ∈ b.others ↔ b k = true ∧ k ≠ .intelCpu := by
  unfold Build.others
  rw [List.mem_filter, and_comm]
  refine and_congr_right fun _ => ?_
  cases k <;> decide

/-- `init_msr` succeeds when the devices of all CPUs can be opened. -/
theorem initMsr_zero_iff (p : Proc) :
    (∃ q, initMsr n sys.files p = some (0, q)) ↔
      ¬ sys.files.Faults n ∧ sys.files.moduleFor n ≠ none := by
  by_cases hfault : sys.files.Faults n
  · rw [initMsr_of_faults hfault]
    simp [hfault]
  · obtain ⟨ret, hret, hrun⟩ := initMsr_spec (p := p) hfault
    rw [hrun, ← hret]
    simp [hfault]

/-! ### variorum_enter -/

/-- Once the platforms are detected, the status is that of
`variorum_set_func_ptrs`. -/
theorem variorumEnter_status (n : Nat) (p : Proc) (h : ∀ k, b k = true → sys.detect k = true) :
    ∃ q, ∀ err, (∃ q', variorumEnter b n sys p = some (err, q')) ↔
      ∃ q', variorumSetFuncPtrs b n sys q = some (err, q') := by
  obtain ⟨q, hrun, -⟩ := variorumEnter_of_detected n p h
  refine ⟨q, fun err => ?_⟩
  simp only [hrun, Option.map_eq_some_iff, Prod.mk.injEq]
  constructor
  · rintro ⟨q', ⟨err', q''⟩, hset, rfl, -⟩
    exact ⟨q'', hset⟩
  · rintro ⟨q', hset⟩
    exact ⟨_, ⟨err, q'⟩, hset, rfl, rfl⟩

/-- What a run of assignments to `err` comes to, told in terms of the last of the
other platforms. -/
theorem assigned_iff (b : Build) (sys : System) (rs : List Int) :
    ((∃ r ∈ (rs ++ b.others.map sys.set).getLast?, r ≠ 0) ∨
        ∀ r ∈ rs ++ b.others.map sys.set, r = 0) ↔
      (∃ k ∈ b.others.getLast?, sys.set k ≠ 0) ∨
      (b.others = [] ∧ ∃ r ∈ rs.getLast?, r ≠ 0) ∨
      ((∀ r ∈ rs, r = 0) ∧ ∀ k ∈ b.others, sys.set k = 0) := by
  have hall : (∀ r ∈ rs ++ b.others.map sys.set, r = 0) ↔
      (∀ r ∈ rs, r = 0) ∧ ∀ k ∈ b.others, sys.set k = 0 := by
    simp only [List.mem_append, or_imp, forall_and, List.forall_mem_map]
  rw [hall, List.getLast?_append, List.getLast?_map]
  rcases hlast : b.others.getLast? with - | k
  · obtain hnil := List.getLast?_eq_none_iff.mp hlast
    simp [hnil]
  · have hne : b.others ≠ [] := by
      rintro hnil
      rw [hnil] at hlast
      cases hlast
    simp [hne]

/-- On a build without Intel CPUs every assignment is one of the other
platforms'. -/
theorem zeroMeansSuccess_of_not_intel (hdetect : ∀ k, b k = true → sys.detect k = true)
    (hintel : b .intelCpu = false) :
    ZeroMeansSuccess b n sys p ↔ (∃ k ∈ b.others.getLast?, sys.set k ≠ 0) ∨
      ∀ k ∈ b.others, sys.set k = 0 := by
  obtain ⟨q, hrun⟩ := variorumEnter_status n p hdetect
  have hsteps : sys.StepsSucceed b n ↔ ∀ r ∈ b.others.map sys.set, r = 0 := by
    rw [List.forall_mem_map]
    constructor
    · exact fun h k hk => h.set k (Build.mem_others.mp hk).1
    · intro h
      refine ⟨hdetect, fun k hk => h k (Build.mem_others.mpr ⟨hk, ?_⟩), fun hb => ?_⟩
      · rintro rfl
        rw [hintel] at hk
        cases hk
      · rw [hintel] at hb
        cases hb
  have hzero : (∃ q, variorumEnter b n sys p = some (0, q)) ↔
      overwritten 0 (b.others.map sys.set) = 0 := by
    rw [hrun]
    simp [variorumSetFuncPtrs, hintel]
  have hassigned := assigned_iff b sys []
  rw [List.nil_append] at hassigned
  unfold ZeroMeansSuccess
  rw [hzero, hsteps]
  refine (faithful_iff _).trans (hassigned.trans ?_)
  simp

/-- On a build for Intel CPUs `init_msr` makes the first of them. -/
theorem zeroMeansSuccess_of_intel (hdetect : ∀ k, b k = true → sys.detect k = true)
    (hintel : b .intelCpu = true) (hset : sys.set .intelCpu = 0) (hlive : ¬ sys.files.Faults n) :
    ZeroMeansSuccess b n sys p ↔ (∃ k ∈ b.others.getLast?, sys.set k ≠ 0) ∨
      (b.others = [] ∧ sys.files.moduleFor n = none) ∨
      (sys.files.moduleFor n ≠ none ∧ ∀ k ∈ b.others, sys.set k = 0) := by
  obtain ⟨q, hrun⟩ := variorumEnter_status n p hdetect
  obtain ⟨ret, hret, hinit⟩ := initMsr_spec (p := q) hlive
  have hsteps : sys.StepsSucceed b n ↔ ∀ r ∈ [ret] ++ b.others.map sys.set, r = 0 := by
    simp only [List.mem_append, or_imp, forall_and, List.forall_mem_map, List.mem_singleton,
      forall_eq]
    constructor
    · intro h
      refine ⟨?_, fun k hk => h.set k (Build.mem_others.mp hk).1⟩
      exact hret.mpr ((initMsr_zero_iff q).mp (h.initMsr hintel q)).2
    · rintro ⟨hzero, hothers⟩
      refine ⟨hdetect, fun k hk => ?_, fun _ p => (initMsr_zero_iff p).mpr ⟨hlive, hret.mp hzero⟩⟩
      by_cases hk' : k = .intelCpu
      · rw [hk', hset]
      · exact hothers k (Build.mem_others.mpr ⟨hk, hk'⟩)
  have hzero : (∃ q, variorumEnter b n sys p = some (0, q)) ↔
      overwritten 0 ([ret] ++ b.others.map sys.set) = 0 := by
    rw [hrun]
    simp [variorumSetFuncPtrs, hintel, hset, hinit, overwritten]
  unfold ZeroMeansSuccess
  rw [hzero, hsteps]
  refine (faithful_iff _).trans ((assigned_iff b sys [ret]).trans ?_)
  simp [hret]

/-- What a call that returns has to do to report. -/
theorem enterReports_of_returns (hroom : b.platforms.length ≤ maxPlatforms) {err : Int} {q : Proc}
    (hrun : variorumEnter b n sys p = some (err, q)) :
    EnterReports b n sys p ↔ ZeroMeansSuccess b n sys p := by
  have htable : enterTable b n sys p = some (err, q) := (if_pos hroom).trans hrun
  have hzero : (∃ q', variorumEnter b n sys p = some (0, q')) ↔ err = 0 := by
    rw [hrun]
    constructor
    · rintro ⟨q', hq'⟩
      exact congrArg Prod.fst (Option.some.inj hq')
    · rintro rfl
      exact ⟨q, rfl⟩
  unfold ZeroMeansSuccess
  rw [hzero]
  constructor
  · rintro ⟨err', q', hq', hiff⟩
    obtain ⟨rfl, -⟩ := Prod.mk.inj (Option.some.inj (htable.symm.trans hq'))
    exact hiff
  · exact fun hiff => ⟨err, q, htable, hiff⟩

/-- A call that returns a failure after a step that failed reports. -/
theorem enterReports_of_failure (hroom : b.platforms.length ≤ maxPlatforms) {err : Int} {q : Proc}
    (hrun : variorumEnter b n sys p = some (err, q)) (herr : err ≠ 0)
    (hsteps : ¬ sys.StepsSucceed b n) : EnterReports b n sys p :=
  ⟨err, q, (if_pos hroom).trans hrun, iff_of_false herr hsteps⟩

/-- **`variorum_enter`** returns and reports its failures exactly when none of them is
overwritten and the process does not die. -/
theorem enterReports_iff : EnterReports b n sys p ↔ sys.StatusKept b n := by
  unfold System.StatusKept
  by_cases hroom : b.platforms.length ≤ maxPlatforms
  swap
  -- the table has no room for the platforms, so there is no successful or failed call to report
  · refine iff_of_false ?_ fun h => hroom h.1
    rintro ⟨err, q, hq, -⟩
    rw [enterTable, if_neg hroom] at hq
    cases hq
  rw [and_iff_right hroom]
  -- a platform that is not identified: its status is returned before anything else is set up
  by_cases hfound : ∃ k, b k = true ∧ sys.detect k = false
  · obtain ⟨err, q, herr, hrun, -⟩ := variorumEnter_of_undetected n p hfound
    refine iff_of_true (enterReports_of_failure hroom hrun herr fun hsteps => ?_) (.inl hfound)
    obtain ⟨k, hk, hfalse⟩ := hfound
    exact absurd (hsteps.detect k hk) (by rw [hfalse]; decide)
  rw [or_iff_right hfound]
  have hdetect : ∀ k, b k = true → sys.detect k = true := by
    intro k hk
    by_contra hne
    exact hfound ⟨k, hk, Bool.eq_false_iff.mpr hne⟩
  obtain ⟨q, hstatus⟩ := variorumEnter_status n p hdetect
  -- of the platforms besides Intel only the status of the last one is still there at the end
  have hlastOr : (∀ k ∈ b.others.getLast?, sys.set k ≠ 0) ↔
      (∃ k ∈ b.others.getLast?, sys.set k ≠ 0) ∨ b.others = [] := by
    rcases hlast : b.others.getLast? with - | k
    · simp [List.getLast?_eq_none_iff.mp hlast]
    · have hne : b.others ≠ [] := by
        rintro hnil
        rw [hnil] at hlast
        cases hlast
      simp [hne]
  have hnone : b.others = [] → ∀ k ∈ b.others, sys.set k = 0 := by
    intro hnil k hk
    rw [hnil] at hk
    cases hk
  rw [hlastOr]
  -- only the Intel part opens devices, and only there the call can die
  cases hintel : b .intelCpu with
  | false =>
      have hset : ∃ q', variorumSetFuncPtrs b n sys q
          = some (overwritten 0 (b.others.map sys.set), q') :=
        ⟨q, by simp [variorumSetFuncPtrs, hintel]⟩
      obtain ⟨q', hrun⟩ := (hstatus _).mpr hset
      rw [enterReports_of_returns hroom hrun, zeroMeansSuccess_of_not_intel hdetect hintel]
      simp only [Bool.false_eq_true, false_and, false_or, false_implies, true_and]
      constructor
      · rintro (h | h)
        · exact .inl (.inl h)
        · exact .inr h
      · rintro ((h | hnil) | h)
        · exact .inl h
        · exact .inr (hnone hnil)
        · exact .inr h
  | true =>
      simp only [true_and, true_implies]
      by_cases hset : sys.set .intelCpu = 0
      swap
      · -- `set_intel_func_ptrs` fails, and its status is returned at once
        obtain ⟨q', hrun⟩ := (hstatus _).mpr
          ⟨q, (by simp [variorumSetFuncPtrs, hintel, hset] :
            variorumSetFuncPtrs b n sys q = some (sys.set .intelCpu, q))⟩
        exact iff_of_true (enterReports_of_failure hroom hrun hset fun hsteps =>
          hset (hsteps.set .intelCpu hintel)) (.inl hset)
      by_cases hfault : sys.files.Faults n
      · -- the process dies in `init_msr`
        refine iff_of_false ?_ (by simp [hset, hfault])
        rintro ⟨err, q', hq', -⟩
        rw [enterTable, if_pos hroom] at hq'
        obtain ⟨q'', hq''⟩ := (hstatus err).mp ⟨q', hq'⟩
        simp [variorumSetFuncPtrs, hintel, hset, initMsr_of_faults hfault] at hq''
      · obtain ⟨ret, hret, hinit⟩ := initMsr_spec (p := q) hfault
        obtain ⟨q', hrun⟩ := (hstatus _).mpr
          ⟨(List.range n).foldl sys.files.turn q,
            (by simp [variorumSetFuncPtrs, hintel, hset, hinit] :
              variorumSetFuncPtrs b n sys q = some (overwritten ret (b.others.map sys.set), _))⟩
        rw [enterReports_of_returns hroom hrun,
          zeroMeansSuccess_of_intel hdetect hintel hset hfault]
        simp only [hset, hfault, not_false_eq_true, true_and, ne_eq, not_true_eq_false, false_or]
        constructor
        · rintro (h | ⟨hnil, -⟩ | h)
          · exact .inl (.inl h)
          · exact .inl (.inr hnil)
          · exact .inr h
        · rintro ((h | hnil) | h)
          · exact .inl h
          · by_cases hmodule : sys.files.moduleFor n = none
            · exact .inr (.inl ⟨hnil, hmodule⟩)
            · exact .inr (.inr ⟨hmodule, hnone hnil⟩)
          · exact .inr (.inr h)

/-! ### variorum_exit -/

theorem variorumExit_fst :
    (variorumExit b n closes p).1
      = if b .intelCpu = true then
          overwritten 0 ((List.range n).map fun dev => closeRet closes dev (p.slot dev))
        else 0 := by
  unfold variorumExit
  cases b .intelCpu with
  | false => rfl
  | true =>
      obtain ⟨q, hrun, -⟩ := finalizeMsr_spec n closes { p with exited := p.exited + 1 }
      simp only [if_true, hrun]
      split <;> rfl

/-- **`variorum_exit`** reports its failures exactly when none of them is
overwritten. -/
theorem exitReports_iff : ExitReports b n closes p ↔ CloseStatusKept b n closes p := by
  unfold ExitReports CloseStatusKept
  by_cases hroom : b.platforms.length ≤ maxPlatforms
  swap
  · refine iff_of_false ?_ fun h => hroom h.1
    rintro ⟨err, q, hq, -⟩
    rw [exitTable, if_neg hroom] at hq
    cases hq
  rw [and_iff_right hroom, exitTable, if_pos hroom]
  have hstatus : (∃ err q, some (variorumExit b n closes p) = some (err, q) ∧
      (err = 0 ↔ (b .intelCpu = true → ∀ dev < n, closeRet closes dev (p.slot dev) = 0))) ↔
      ((variorumExit b n closes p).1 = 0 ↔
        (b .intelCpu = true → ∀ dev < n, closeRet closes dev (p.slot dev) = 0)) := by
    constructor
    · rintro ⟨err, q, hq, hiff⟩
      rwa [Option.some.inj hq]
    · exact fun hiff => ⟨_, _, rfl, hiff⟩
  rw [hstatus, variorumExit_fst]
  cases hintel : b .intelCpu with
  | false => simp
  | true =>
      -- the loop over the devices keeps the status of the last one that it closed
      have hfaithful :=
        faithful_iff ((List.range n).map fun dev => closeRet closes dev (p.slot dev))
      simp only [Faithful, List.forall_mem_map, List.mem_range, List.getLast?_map] at hfaithful
      simp only [if_true, true_implies, reduceCtorEq, false_or]
      rw [hfaithful]
      cases n with
      | zero => simp
      | succ n => simp [List.range_succ]

/-- **The lifecycle calls and their failures.**  For every build, number of CPUs
and pattern of failing steps: `variorum_enter` returns, and returns 0 exactly when every step
succeeded, if and only if no status is overwritten and the process does not die, and so
does `variorum_exit`. -/
theorem lifecycle_iff (b : Build) (n : Nat) (sys : System) (closes : Nat → CloseResult) (p : Proc) :
    (EnterReports b n sys p ↔ sys.StatusKept b n) ∧
    (ExitReports b n closes p ↔ CloseStatusKept b n closes p) :=
  ⟨enterReports_iff, exitReports_iff⟩

/-- A node on which every platform is detected and set up, without MSR devices. -/
def noMsrSystem : System :=
  { detect := fun _ => true
    set := fun _ => 0
    files := { allowlist := .missing, safe := fun _ => .missing, stock := fun _ => .missing } }

/-- `init_msr` fails and `variorum_enter` returns 0, since
`set_nvidia_func_ptrs` comes after it; the first of two `close` fails and
`variorum_exit` returns 0. -/
theorem lifecycle_loses_failure :
    ¬ EnterReports (fun k => k = .intelCpu ∨ k = .nvidiaGpu) 1 noMsrSystem .start ∧
    ¬ ExitReports (fun k => k = .intelCpu) 2
      (fun dev => if dev = 0 then .failedReleased else .closed) .start := by
  constructor
  · rintro ⟨err, q, hq, hiff⟩
    obtain ⟨rfl, -⟩ := Prod.mk.inj (Option.some.inj hq)
    obtain ⟨q, hq⟩ := (hiff.mp rfl).initMsr rfl .start
    cases hq
  · rintro ⟨err, q, hq, hiff⟩
    obtain ⟨rfl, -⟩ := Prod.mk.inj (Option.some.inj hq)
    exact absurd (hiff.mp rfl rfl 0 (by decide)) (by decide)

end Variorum
