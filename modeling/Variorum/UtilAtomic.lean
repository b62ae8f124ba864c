/-
Variorum/UtilAtomic.lean

Failed calls of `variorum_get_utilization_json`.

A call can fail in `variorum_enter`, in the query of the GPUs, at the first line of
`/proc/stat`, at `/proc/meminfo` and in `variorum_exit`.  It compares the counters
with those in the global variables, overwrites these as soon as it has read the
line, and sets the flag and the caller's string just before `variorum_exit`.

So a call that fails at `/proc/meminfo` has already put its counters in the place
of those of the last report, and one that fails in `variorum_exit` is a report with
an error code.  The calls of a run are all or nothing exactly where neither happens
(`sampling_iff`).
-/
import Variorum.CpuUtil

namespace Variorum

open CString
open Json (Object setReal)
open UtilJson
open CpuUtil

namespace UtilAtomic

/-! ### The function -/

/-- What a call meets: the results of `variorum_enter`, of the query of the GPUs in a build
with them, and of `variorum_exit`, and what is found in between. -/
structure SampleCall where
  enter : Int
  gpu : Option Int
  exit : Int
  ts : Int
  host : HostObject
  stat : Option (List Char)
  mem : Option MemInfo

def SampleCall.input (c : SampleCall) : UtilInput := ⟨c.ts, c.host.fields, c.stat, c.mem⟩

/-- What is left behind a call: its return value, what it has stored for the caller, and the
globals. -/
structure Sampled where
  ret : Int
  out : Option Object
  globals : UtilGlobals

/-- The whole of `variorum_get_utilization_json`, with every place where it can fail. -/
def variorumGetUtilizationJson (c : SampleCall) (g : UtilGlobals) : Sampled :=
  if c.enter ≠ 0 then ⟨-1, none, g⟩
  else if c.gpu.getD 0 ≠ 0 then ⟨-1, none, g⟩
  else
    match CpuUtil.variorumGetUtilizationJson c.input g with
    | (ret, none, g') => ⟨ret, none, g'⟩
    | (_, some host, g') => if c.exit ≠ 0 then ⟨-1, some host, g'⟩ else ⟨c.exit, some host, g'⟩

/-! ### What is asked of a call -/

/-- The counters that a report is about. -/
structure CpuCounts where
  sum : BitVec 64
  user : BitVec 64
  system : BitVec 64
  idle : BitVec 64
  deriving DecidableEq

/-- The counts before the first report. -/
def CpuCounts.zero : CpuCounts := ⟨0, 0, 0, 0⟩

/-- The counters in the first line of `/proc/stat`, as far as it fits the buffer. -/
def countsOf (str : List Char) : CpuCounts :=
  let fields := (strtok ' ' str).tail.map word
  { sum := fields.sum
    user := fields.getD 0 0 + fields.getD 1 0
    system := fields.getD 2 0
    idle := fields.getD 3 0 + fields.getD 4 0 }

/-- Those that a call finds, if it can open and read the file. -/
def SampleCall.counts (c : SampleCall) : Option CpuCounts :=
  (c.stat.bind (fgets 100)).map countsOf

/-- The percentages of the change from `p` to `s`; zeros in the first report. -/
def change : Option CpuCounts → CpuCounts → Utilization
  | none, _ => ⟨some 0, some 0, some 0⟩
  | some p, s =>
      { userUtil := (quotient (s.user - p.user) (s.sum - p.sum)).map (· * 100)
        sysUtil := (quotient (s.system - p.system) (s.sum - p.sum)).map (· * 100)
        cpuUtil := (quotient (s.idle - p.idle) (s.sum - p.sum)).map fun x => (1 - x) * 100 }

/-- They are in the object of the host. -/
structure Reports (host : Object) (u : Utilization) : Prop where
  total : cpuValue host totalUtil = u.cpuUtil.map .real
  user : cpuValue host userUtil = u.userUtil.map .real
  system : cpuValue host systemUtil = u.sysUtil.map .real

/-- A process between two calls: its globals, and the counters of the last call that
returned 0. -/
structure SampleTrace where
  globals : UtilGlobals
  last : Option CpuCounts

def SampleTrace.start : SampleTrace := ⟨.start, none⟩

/-- A call in a run. -/
def step (t : SampleTrace) (c : SampleCall) : Option SampleTrace :=
  let r := variorumGetUtilizationJson c t.globals
  some ⟨r.globals, if r.ret = 0 then c.counts else t.last⟩

/-- A call that returns -1 leaves the globals and the caller's string as they were, and one
that returns 0 reports the change since the last one that did. -/
structure AllOrNothing (t : SampleTrace) (c : SampleCall) : Prop where
  failed : (variorumGetUtilizationJson c t.globals).ret = -1 →
    (variorumGetUtilizationJson c t.globals).out = none ∧
      (variorumGetUtilizationJson c t.globals).globals = t.globals
  reported : (variorumGetUtilizationJson c t.globals).ret = 0 →
    ∃ host s, (variorumGetUtilizationJson c t.globals).out = some host ∧ c.counts = some s ∧
      Reports host (change t.last s)

/-- A call that finds counters can open `/proc/meminfo`, unless the counters are those of
the last report, and then `variorum_exit` succeeds. -/
def Uninterrupted (t : SampleTrace) (c : SampleCall) : Prop :=
  c.enter = 0 → c.gpu.getD 0 = 0 → ∀ s, c.counts = some s →
    (c.mem = none → s = t.last.getD .zero) ∧ (c.mem.isSome → c.exit = 0)

/-! ### A call -/

section Call

variable {c : SampleCall} {g : UtilGlobals} {t t' : SampleTrace} {s : CpuCounts} {mem : MemInfo}

/-- The globals with these counters. -/
def globalsWith (s : CpuCounts) (state : Bool) : UtilGlobals where
  lastSum := s.sum
  lastUserTime := s.user
  lastSysTime := s.system
  lastIdle := s.idle
  state := state

theorem globalsWith_inj {p s : CpuCounts} {b b' : Bool} (h : globalsWith p b = globalsWith s b') :
    p = s ∧ b = b' := by
  obtain ⟨hsum, huser, hsystem, hidle, hstate⟩ := UtilGlobals.mk.inj h
  cases p
  cases s
  exact ⟨CpuCounts.mk.injEq .. ▸ ⟨hsum, huser, hsystem, hidle⟩, hstate⟩

/-- What the loop over the tokens finds. -/
theorem readStat_counts (str : List Char) :
    (readStat str).sum = (countsOf str).sum ∧ (readStat str).sumUserTime = (countsOf str).user ∧
      (readStat str).sysTime = (countsOf str).system ∧
      (readStat str).sumIdle = (countsOf str).idle := by
  have hreads := readStat_reads str
  exact ⟨hreads.sum, hreads.sumUserTime, hreads.sysTime, hreads.sumIdle⟩

/-- The percentages that a call takes from the globals. -/
def found (g : UtilGlobals) (s : CpuCounts) : Utilization :=
  change (if g.state then some ⟨g.lastSum, g.lastUserTime, g.lastSysTime, g.lastIdle⟩ else none) s

theorem utilization_readStat (g : UtilGlobals) (str : List Char) :
    utilization g (readStat str) = found g (countsOf str) := by
  obtain ⟨hsum, huser, hsystem, hidle⟩ := readStat_counts str
  rw [utilization, hsum, huser, hsystem, hidle, found]
  split <;> rfl

/-- The object of the host behind a call that has found these counters. -/
def hostWith (c : SampleCall) (s : CpuCounts) (mem : MemInfo) (g : UtilGlobals) : Object :=
  setReal memoryUtil (memUtil g mem)
    (inObject cpuKey (setUtilization (found g s))
      (setIfNone timestampKey (.integer c.ts) c.host.fields))

/-! What a call does, by the place where it ends. -/

theorem call_of_enter (h : c.enter ≠ 0) (g : UtilGlobals) :
    variorumGetUtilizationJson c g = ⟨-1, none, g⟩ := if_pos h

theorem call_of_gpu (h : c.gpu.getD 0 ≠ 0) (g : UtilGlobals) :
    variorumGetUtilizationJson c g = ⟨-1, none, g⟩ := by
  rw [variorumGetUtilizationJson, if_pos h, ite_self]

theorem call_of_no_counts (hcounts : c.counts = none) (g : UtilGlobals) :
    variorumGetUtilizationJson c g = ⟨-1, none, g⟩ := by
  have hstat : c.input.stat.bind (fgets 100) = none := Option.map_eq_none_iff.mp hcounts
  have hcall : CpuUtil.variorumGetUtilizationJson c.input g = (-1, none, g) := by
    rw [CpuUtil.variorumGetUtilizationJson, hstat]
  rw [variorumGetUtilizationJson, hcall]
  simp

theorem call_of_no_mem (henter : c.enter = 0) (hgpu : c.gpu.getD 0 = 0)
    (hcounts : c.counts = some s) (hmem : c.mem = none) (g : UtilGlobals) :
    variorumGetUtilizationJson c g = ⟨-1, none, globalsWith s g.state⟩ := by
  obtain ⟨str, hstat, rfl⟩ := Option.map_eq_some_iff.mp hcounts
  have hstat : c.input.stat.bind (fgets 100) = some str := hstat
  have hmem : c.input.mem = none := hmem
  obtain ⟨hsum, huser, hsystem, hidle⟩ := readStat_counts str
  have hcall : CpuUtil.variorumGetUtilizationJson c.input g
      = (-1, none, globalsWith (countsOf str) g.state) := by
    rw [CpuUtil.variorumGetUtilizationJson, hstat, hmem]
    simp only [hsum, huser, hsystem, hidle]
    rfl
  rw [variorumGetUtilizationJson, if_neg (not_not.mpr henter), if_neg (not_not.mpr hgpu), hcall]

theorem call_of_mem (henter : c.enter = 0) (hgpu : c.gpu.getD 0 = 0)
    (hcounts : c.counts = some s) (hmem : c.mem = some mem) (g : UtilGlobals) :
    variorumGetUtilizationJson c g
      = ⟨if c.exit = 0 then 0 else -1, some (hostWith c s mem g), globalsWith s true⟩ := by
  obtain ⟨str, hstat, rfl⟩ := Option.map_eq_some_iff.mp hcounts
  have hstat : c.input.stat.bind (fgets 100) = some str := hstat
  have hmem : c.input.mem = some mem := hmem
  obtain ⟨hsum, huser, hsystem, hidle⟩ := readStat_counts str
  have hcall : CpuUtil.variorumGetUtilizationJson c.input g
      = (0, some (hostWith c (countsOf str) mem g), globalsWith (countsOf str) true) := by
    rw [CpuUtil.variorumGetUtilizationJson, hstat, hmem]
    simp only [hsum, huser, hsystem, hidle, utilization_readStat]
    rfl
  rw [variorumGetUtilizationJson, if_neg (not_not.mpr henter), if_neg (not_not.mpr hgpu), hcall]
  by_cases hexit : c.exit = 0
  · simp [hexit]
  · simp [hexit]

/-- The percentages are in the object. -/
theorem reports_hostWith (c : SampleCall) (s : CpuCounts) (mem : MemInfo) (g : UtilGlobals) :
    Reports (hostWith c s mem g) (found g s) := by
  have hvalue : ∀ key, cpuValue (hostWith c s mem g) key
      = Fields.get key (setUtilization (found g s) []) := cpuValue_stored c.host c.ts _ _
  obtain ⟨htotal, huser, hsystem⟩ := get_setUtilization (found g s)
  exact ⟨(hvalue _).trans htotal, (hvalue _).trans huser, (hvalue _).trans hsystem⟩

end Call

/-! ### A run -/

section Run

variable {c : SampleCall} {t t' : SampleTrace} {s : CpuCounts}

/-- The globals between two calls: those of the last report. -/
def HoldsLastReport (t : SampleTrace) : Prop :=
  t.globals = globalsWith (t.last.getD .zero) t.last.isSome

theorem HoldsLastReport.start : HoldsLastReport .start := rfl

/-- So a call compares its counters with those of the last report. -/
theorem HoldsLastReport.found (h : HoldsLastReport t) (s : CpuCounts) :
    found t.globals s = change t.last s := by
  rw [UtilAtomic.found, show t.globals = _ from h]
  cases t.last <;> rfl

/-- A call ends before it has found counters, or it meets no obstacle up to there. -/
theorem call_cases (c : SampleCall) :
    (∀ g, variorumGetUtilizationJson c g = ⟨-1, none, g⟩) ∧
        (c.enter ≠ 0 ∨ c.gpu.getD 0 ≠ 0 ∨ c.counts = none) ∨
      c.enter = 0 ∧ c.gpu.getD 0 = 0 ∧ ∃ s, c.counts = some s := by
  by_cases henter : c.enter = 0
  · by_cases hgpu : c.gpu.getD 0 = 0
    · cases hcounts : c.counts with
      | none => exact .inl ⟨call_of_no_counts hcounts, .inr (.inr rfl)⟩
      | some s => exact .inr ⟨henter, hgpu, s, rfl⟩
    · exact .inl ⟨call_of_gpu hgpu, .inr (.inl hgpu)⟩
  · exact .inl ⟨call_of_enter henter, .inl henter⟩

/-- **A call is all or nothing** exactly where it is not interrupted. -/
theorem allOrNothing_iff (h : HoldsLastReport t) : AllOrNothing t c ↔ Uninterrupted t c := by
  rcases call_cases c with ⟨hcall, hends⟩ | ⟨henter, hgpu, s, hcounts⟩
  · refine iff_of_true ⟨fun _ => ?_, fun hret => ?_⟩ fun henter hgpu s hcounts => ?_
    · rw [hcall]
      exact ⟨rfl, rfl⟩
    · rw [hcall] at hret
      cases hret
    · rcases hends with hne | hne | hnone
      · exact absurd henter hne
      · exact absurd hgpu hne
      · cases hnone.symm.trans hcounts
  · have hthis : Uninterrupted t c ↔
        (c.mem = none → s = t.last.getD .zero) ∧ (c.mem.isSome → c.exit = 0) := by
      refine ⟨fun hun => hun henter hgpu s hcounts, fun hun _ _ s' hs' => ?_⟩
      obtain rfl := Option.some.inj (hcounts.symm.trans hs')
      exact hun
    rw [hthis]
    cases hmem : c.mem with
    | none =>
        -- the counters have been overwritten, the flag and the string have not
        have hcall := call_of_no_mem henter hgpu hcounts hmem t.globals
        constructor
        · intro hall
          obtain ⟨-, hsame⟩ := hall.failed (by rw [hcall])
          rw [hcall, show t.globals = _ from h] at hsame
          exact ⟨fun _ => (globalsWith_inj hsame).1, nofun⟩
        · rintro ⟨hsame, -⟩
          refine ⟨fun _ => ?_, fun hret => ?_⟩
          · rw [hcall, show t.globals = _ from h, hsame rfl]
            exact ⟨rfl, rfl⟩
          · rw [hcall] at hret
            cases hret
    | some mem =>
        have hcall := call_of_mem henter hgpu hcounts hmem t.globals
        constructor
        · intro hall
          refine ⟨nofun, fun _ => ?_⟩
          by_contra hexit
          obtain ⟨hout, -⟩ := hall.failed (by rw [hcall, if_neg hexit])
          rw [hcall] at hout
          cases hout
        · rintro ⟨-, hexit⟩
          rw [if_pos (hexit rfl)] at hcall
          refine ⟨fun hret => ?_, fun _ => ⟨_, s, by rw [hcall], hcounts, ?_⟩⟩
          · rw [hcall] at hret
            cases hret
          · rw [← h.found s]
            exact reports_hostWith c s mem t.globals

theorem HoldsLastReport.step (h : HoldsLastReport t) (hun : Uninterrupted t c)
    (hstep : step t c = some t') :
    HoldsLastReport t' := by
  have ht' := Option.some.inj hstep
  rcases call_cases c with ⟨hcall, -⟩ | ⟨henter, hgpu, s, hcounts⟩
  · simp only [hcall] at ht'
    exact ht' ▸ h
  · obtain ⟨hsame, hexit⟩ := hun henter hgpu s hcounts
    cases hmem : c.mem with
    | none =>
        simp only [call_of_no_mem henter hgpu hcounts hmem, hsame hmem] at ht'
        obtain rfl := ht'
        show globalsWith _ t.globals.state = globalsWith _ _
        rw [show t.globals = _ from h]
        rfl
    | some mem =>
        have hexit : c.exit = 0 := hexit (hmem ▸ rfl)
        simp only [call_of_mem henter hgpu hcounts hmem, hexit, if_true, hcounts] at ht'
        obtain rfl := ht'
        rfl

/-- **Runs of calls, exactly.**  Every call of a run is all or nothing exactly where
none is interrupted behind the counters: these are in the place of those of the last
report before `/proc/meminfo` is opened, and the report is made before `variorum_exit`
can fail. -/
theorem sampling_iff (calls : List SampleCall) :
    Runs.Along step AllOrNothing .start calls ↔ Runs.Along step Uninterrupted .start calls :=
  Runs.along_iff_of_inv HoldsLastReport
    (fun h hall hstep => h.step ((allOrNothing_iff h).mp hall) hstep)
    allOrNothing_iff HoldsLastReport.start

/-- A call of a build without GPUs that finds ten seconds of a processor. -/
def callAt (mem : Option MemInfo) (exit : Int) : SampleCall where
  enter := 0
  gpu := none
  exit := exit
  ts := 0
  host := ⟨[], HostObject.fresh_nil⟩
  stat := some (statLine tenSeconds ++ ['\n'])
  mem := mem

/-- A first call that cannot open `/proc/meminfo`, or whose `variorum_exit` fails. -/
theorem not_sampling_first :
    ¬ Runs.Along step AllOrNothing .start [callAt none 0] ∧
      ¬ Runs.Along step AllOrNothing .start [callAt (some ⟨1, 2⟩) (-1)] := by
  have hcounts : ∀ mem exit, ∃ s, (callAt mem exit).counts = some s ∧ s ≠ .zero := by
    intro mem exit
    refine ⟨countsOf ((statLine tenSeconds ++ ['\n']).take 99), ?_, by decide⟩
    rw [SampleCall.counts]
    exact congrArg (Option.map countsOf) (fgets_append (newline_notMem_statLine tenSeconds) [])
  constructor
  · intro h
    obtain ⟨s, hs, hne⟩ := hcounts none 0
    exact hne (((allOrNothing_iff HoldsLastReport.start).mp h.1 rfl rfl s hs).1 rfl)
  · intro h
    obtain ⟨s, hs, -⟩ := hcounts (some ⟨1, 2⟩) (-1)
    exact absurd (((allOrNothing_iff HoldsLastReport.start).mp h.1 rfl rfl s hs).2 rfl) (by decide)

end Run

end UtilAtomic

end Variorum
