/-
Variorum/FrequencyJson.lean

The frequencies of cores and sockets: `get_clocks_data_json`.

The function adds up the frequencies of the threads of each core, divides the sum
by 2, and averages the quotients over the cores of each socket.  So what it stores
for a core is half the number of threads times their mean (`coreReal_eq`), and the
means are right on nodes with two threads per core and no others
(`frequencyMeans_iff`), if the batches can name all their CPUs.

A double is a rational number here, or `none` if it is not finite; a quotient by 0
is not finite, and nothing is subtracted.
-/
import Variorum.Loop
import Variorum.SocketRatio
import Variorum.UtilJsonSpec

namespace Variorum

open CString History
open Json (Object setReal)
open PowerJson (socketKey)
open UtilJson (cpuKey inObject)

namespace FrequencyJson

/-! ### Doubles -/

/-- The sum of two doubles. -/
def add : Option ℚ → Option ℚ → Option ℚ := Option.map₂ (· + ·)

/-- The quotient of a double by a count. -/
def divBy (x : Option ℚ) (n : Nat) : Option ℚ := x.map (· / n)

/-! ### The keys -/

/-- `core_%d_avg_freq_mhz`. -/
def coreAvgKey (j : Nat) : List Char := "core_".toList ++ decimal j ++ "_avg_freq_mhz".toList

def coreKey : List Char := "core".toList
def cpuAvgKey : List Char := "cpu_avg_freq_mhz".toList

/-! ### The function -/

/-- The storage functions and the reads of `get_clocks_data_json`. -/
def readClocks (e : MsrEnv) (msrs : FeatureMsrs) (st : FeatureState) : Option FeatureState := do
  let st ← initBatch e.topo CLOCKS_DATA (3 * e.topo.nthreads)
    [.thread msrs.aperf, .thread msrs.mperf, .thread msrs.tsc] st
  let st ← initBatch e.topo PERF_DATA (2 * e.topo.nsockets) [.socket msrs.perfStatus] st
  let (_, st) ← st.read e CLOCKS_DATA
  let (_, st) ← st.read e PERF_DATA
  return st

/-- The frequency of a thread. -/
def frequency (ratio : Int) (aperf mperf : BitVec 64) : Option ℚ :=
  if mperf = 0 then none else some (ratio * ((aperf.toNat : ℚ) / mperf.toNat))

/-- `max_non_turbo_ratio * (*cd->aperf[idx] / (double)(*cd->mperf[idx]))`. -/
def threadFrequency (st : FeatureState) (ratio idx : Int) : Option (Option ℚ) := do
  let aperf ← st.peek CLOCKS_DATA 0 idx
  let mperf ← st.peek CLOCKS_DATA 1 idx
  return frequency ratio aperf mperf

/-- `core_freq_index`. -/
def coreFreqIndex (t : Topology) (i j : Nat) : Nat := i * (t.ncores / t.nsockets) + j

/-- The loop over the threads of a core. -/
def threadLoop (t : Topology) (st : FeatureState) (ratio : Int) (i j : Nat)
    (coreFrequencies : Nat → Option ℚ) : Option (Nat → Option ℚ) :=
  (List.range (t.nthreads / t.ncores)).foldlM
    (fun coreFrequencies k => do
      let freq ← threadFrequency st ratio (clocksIdx t i j k)
      return Function.update coreFrequencies (coreFreqIndex t i j)
        (add (coreFrequencies (coreFreqIndex t i j)) freq)) coreFrequencies

/-- The variables of the loop over the cores of a socket. -/
structure CoreLoop where
  coreFrequencies : Nat → Option ℚ
  socketAverageFreq : Option ℚ
  coreObj : Object

/-- The body of the loop over the cores: the sum over the threads, divided by two. -/
def coreTurn (t : Topology) (st : FeatureState) (ratio : Int) (i : Nat) (s : CoreLoop) (j : Nat) :
    Option CoreLoop := do
  let index := coreFreqIndex t i j
  let coreFrequencies ← threadLoop t st ratio i j s.coreFrequencies
  let coreFrequencies :=
    Function.update coreFrequencies index (divBy (coreFrequencies index) 2)
  return {
    coreFrequencies := coreFrequencies
    socketAverageFreq := add s.socketAverageFreq (coreFrequencies index)
    coreObj := setReal (snprintf 24 (coreAvgKey j)) (coreFrequencies index) s.coreObj }

/-- The body of the loop over the sockets; `make_socket_obj` finds the object of the
socket or makes it. -/
def socketTurn (t : Topology) (st : FeatureState) (ratio : Int)
    (s : (Nat → Option ℚ) × Object) (i : Nat) : Option ((Nat → Option ℚ) × Object) := do
  let cores ← (List.range (t.ncores / t.nsockets)).foldlM (coreTurn t st ratio i) ⟨s.1, some 0, []⟩
  let socketAverageFreq := divBy cores.socketAverageFreq (t.ncores / t.nsockets)
  let cpuObj := setReal cpuAvgKey socketAverageFreq (Fields.set coreKey (.object cores.coreObj) [])
  return (cores.coreFrequencies,
    inObject (snprintf 16 (socketKey i)) (Fields.set cpuKey (.object cpuObj)) s.2)

/-- `get_clocks_data_json`: its return value and `output`. -/
def getClocksDataJson (e : MsrEnv) (msrs : FeatureMsrs) (domain : CtlDomain) (output : Object)
    (st : FeatureState) : Option (Int × Object × FeatureState) := do
  let (err, ratio, st) ← getMaxNonTurboRatio e msrs st
  if err ≠ 0 then return (-1, output, st)
  let st ← readClocks e msrs st
  match domain with
  | .core =>
      let (_, output) ← (List.range e.topo.nsockets).foldlM (socketTurn e.topo st ratio)
        (fun _ => some 0, output)
      return (0, output, st)
  | .socket | .other => return (0, output, st)

/-! ### What is asked of it -/

/-- The arithmetic mean. -/
def mean (xs : List ℚ) : ℚ := xs.sum / xs.length

/-- The frequency of a thread by its own counters. -/
def freq (t : Topology) (msrs : FeatureMsrs) (contents : Nat → Nat → BitVec 64) (i j k : Nat) : ℚ :=
  RatioCall.maxNonTurbo.ratio t msrs contents 0 * 100 *
    (((contents (t.cpu i j k) msrs.aperf.toNat).toNat : ℚ) /
      (contents (t.cpu i j k) msrs.mperf.toNat).toNat)

/-- The mean over the threads of a core. -/
def coreMean (t : Topology) (msrs : FeatureMsrs) (contents : Nat → Nat → BitVec 64) (i j : Nat) :
    ℚ :=
  mean ((List.range t.threadsPerCore).map (freq t msrs contents i j))

/-- The mean over the cores of a socket. -/
def socketMean (t : Topology) (msrs : FeatureMsrs) (contents : Nat → Nat → BitVec 64) (i : Nat) :
    ℚ :=
  mean ((List.range t.coresPerSocket).map (coreMean t msrs contents i))

/-- The object `CPU` of a socket. -/
def cpuObject (output : Object) (i : Nat) : Option Json :=
  (Fields.get (socketKey i) output).bind (Json.get cpuKey)

/-- The value stored for a core. -/
def coreValue (output : Object) (i j : Nat) : Option Json :=
  ((cpuObject output i).bind (Json.get coreKey)).bind (Json.get (coreAvgKey j))

/-- The value stored for a socket. -/
def socketValue (output : Object) (i : Nat) : Option Json :=
  (cpuObject output i).bind (Json.get cpuAvgKey)

/-- The batches of the function are unused, or loaded as it loads them. -/
structure ClocksKept (t : Topology) (msrs : FeatureMsrs) (st : FeatureState) : Prop where
  platform : st.BatchKept t PLATFORM_INFO [.socket msrs.platformInfo]
  clocks : st.BatchKept t CLOCKS_DATA [.thread msrs.aperf, .thread msrs.mperf, .thread msrs.tsc]
  perf : st.BatchKept t PERF_DATA [.socket msrs.perfStatus]

/-- Where something is stored for a socket already, it is an object. -/
def SocketObjects (t : Topology) (output : Object) : Prop :=
  ∀ i < t.nsockets, ∀ v, Fields.get (snprintf 16 (socketKey i)) output = some v →
    ∃ l, v = .object l

/-- On a node with these registers, whatever the process has done before: a call comes
to its end, and if nothing was refused and it returns 0, every value is the mean that it
should be. -/
def MeansRight (t : Topology) (msrs : FeatureMsrs) (contents : Nat → Nat → BitVec 64) : Prop :=
  ∀ e : MsrEnv, e.topo = t → ∀ st output, ClocksKept t msrs st → SocketObjects t output →
    ∃ ret output' st',
      getClocksDataJson e msrs .core output (st.found contents) = some (ret, output', st') ∧
      ((st.found contents).msr.machine.Clean e.driver st'.msr.machine → ret = 0 →
        ∀ i < t.nsockets,
          (∀ j < t.coresPerSocket,
            coreValue output' i j = some (.real (coreMean t msrs contents i j))) ∧
          socketValue output' i = some (.real (socketMean t msrs contents i)))

/-- No MPERF is 0, so every thread has run since its counters were reset. -/
def Running (t : Topology) (msrs : FeatureMsrs) (contents : Nat → Nat → BitVec 64) : Prop :=
  ∀ cpu < t.nthreads, contents cpu msrs.mperf.toNat ≠ 0

/-- This is so on a node of this topology whatever its registers hold. -/
def FrequencyMeans (t : Topology) : Prop :=
  ∀ msrs contents, Running t msrs contents → MeansRight t msrs contents

/-- The sockets that are compared have the same ratio, if there are several. -/
def RatioFound (t : Topology) (msrs : FeatureMsrs) (contents : Nat → Nat → BitVec 64) : Prop :=
  t.nsockets = 1 ∨
    RatioCall.maxNonTurbo.second t msrs contents = RatioCall.maxNonTurbo.ratio t msrs contents 0

/-! ### The loops -/

/-- What the loops make of the frequencies `F` for a core. -/
def coreReal (t : Topology) (F : Nat → Nat → Nat → Option ℚ) (i j : Nat) : Option ℚ :=
  divBy (((List.range t.threadsPerCore).map (F i j)).foldl add (some 0)) 2

/-- The sum over the first `n` cores of a socket. -/
def coreSum (t : Topology) (F : Nat → Nat → Nat → Option ℚ) (i n : Nat) : Option ℚ :=
  ((List.range n).map (coreReal t F i)).foldl add (some 0)

/-- The object of the first `n` cores of a socket. -/
def coreObject (t : Topology) (F : Nat → Nat → Nat → Option ℚ) (i n : Nat) : Object :=
  (List.range n).foldl
    (fun obj j => setReal (snprintf 24 (coreAvgKey j)) (coreReal t F i j) obj) []

/-- The object `CPU` of a socket. -/
def cpuFields (t : Topology) (F : Nat → Nat → Nat → Option ℚ) (i : Nat) : Object :=
  setReal cpuAvgKey (divBy (coreSum t F i t.coresPerSocket) t.coresPerSocket)
    (Fields.set coreKey (.object (coreObject t F i t.coresPerSocket)) [])

/-- The output after the first `n` sockets. -/
def outputOf (t : Topology) (F : Nat → Nat → Nat → Option ℚ) (output : Object) (n : Nat) :
    Object :=
  (List.range n).foldl (fun out i =>
    inObject (snprintf 16 (socketKey i)) (Fields.set cpuKey (.object (cpuFields t F i))) out) output

section Loops

variable {t : Topology} {st : FeatureState} {ratio : Int} {F : Nat → Nat → Nat → Option ℚ}
variable {i j : Nat}

/-- Every thread has the frequency that `F` says. -/
def Frequencies (t : Topology) (st : FeatureState) (ratio : Int)
    (F : Nat → Nat → Nat → Option ℚ) : Prop :=
  ∀ i j k, t.Valid i j k → threadFrequency st ratio (clocksIdx t i j k) = some (F i j k)

/-- The loop over the threads adds to the entry of the core. -/
theorem threadLoop_eq (hF : Frequencies t st ratio F) (hi : i < t.nsockets)
    (hj : j < t.coresPerSocket) (freqs : Nat → Option ℚ) :
    threadLoop t st ratio i j freqs
      = some (Function.update freqs (coreFreqIndex t i j)
          (((List.range t.threadsPerCore).map (F i j)).foldl add
            (freqs (coreFreqIndex t i j)))) := by
  let index := coreFreqIndex t i j
  obtain ⟨freqs', hloop, rfl⟩ := Loop.foldlM_range (n := t.threadsPerCore) (s := freqs)
    (f := fun freqs k => do
      let freq ← threadFrequency st ratio (clocksIdx t i j k)
      return Function.update freqs index (add (freqs index) freq))
    (fun k freqs' => freqs'
      = Function.update freqs index (((List.range k).map (F i j)).foldl add (freqs index)))
    (Function.update_eq_self index freqs).symm (by
      rintro k hk freqs' rfl
      refine ⟨_, by rw [hF i j k ⟨hi, hj, hk⟩]; rfl, ?_⟩
      rw [Function.update_self, Function.update_idem, List.range_succ, List.map_append,
        List.foldl_append]
      rfl)
  exact hloop

/-- Before turn `j` of the loop over the cores the entries from there on are 0. -/
structure BeforeCore (t : Topology) (F : Nat → Nat → Nat → Option ℚ) (i j : Nat) (s : CoreLoop) :
    Prop where
  rest : ∀ m, coreFreqIndex t i j ≤ m → s.coreFrequencies m = some 0
  sum : s.socketAverageFreq = coreSum t F i j
  obj : s.coreObj = coreObject t F i j

theorem BeforeCore.turn (hF : Frequencies t st ratio F) (hi : i < t.nsockets)
    (hj : j < t.coresPerSocket) {s : CoreLoop} (h : BeforeCore t F i j s) :
    ∃ s', coreTurn t st ratio i s j = some s' ∧ BeforeCore t F i (j + 1) s' := by
  have hentry : s.coreFrequencies (coreFreqIndex t i j) = some 0 := h.rest _ (Nat.le_refl _)
  have hturn : coreTurn t st ratio i s j = some
      { coreFrequencies :=
          Function.update s.coreFrequencies (coreFreqIndex t i j) (coreReal t F i j)
        socketAverageFreq := add s.socketAverageFreq (coreReal t F i j)
        coreObj := setReal (snprintf 24 (coreAvgKey j)) (coreReal t F i j) s.coreObj } := by
    rw [coreTurn, threadLoop_eq hF hi hj, hentry]
    simp only [Option.bind_eq_bind, Option.bind_some, Function.update_self,
      Function.update_idem]
    rfl
  refine ⟨_, hturn, ⟨fun m hm => ?_, ?_, ?_⟩⟩
  · have hnext : coreFreqIndex t i (j + 1) = coreFreqIndex t i j + 1 := rfl
    rw [hnext] at hm
    show Function.update s.coreFrequencies (coreFreqIndex t i j) _ m = some 0
    rw [Function.update_of_ne (by omega)]
    exact h.rest m (by omega)
  · show add s.socketAverageFreq _ = _
    rw [h.sum, coreSum, coreSum, List.range_succ, List.map_append, List.foldl_append]
    rfl
  · show setReal _ _ s.coreObj = _
    rw [h.obj, coreObject, coreObject, List.range_succ, List.foldl_append]
    rfl

/-- Before turn `i` of the loop over the sockets. -/
structure BeforeSocket (t : Topology) (F : Nat → Nat → Nat → Option ℚ) (output : Object) (i : Nat)
    (s : (Nat → Option ℚ) × Object) : Prop where
  rest : ∀ m, coreFreqIndex t i 0 ≤ m → s.1 m = some 0
  output : s.2 = outputOf t F output i

theorem BeforeSocket.turn (hF : Frequencies t st ratio F) (hi : i < t.nsockets) {output : Object}
    {s : (Nat → Option ℚ) × Object} (h : BeforeSocket t F output i s) :
    ∃ s', socketTurn t st ratio s i = some s' ∧ BeforeSocket t F output (i + 1) s' := by
  obtain ⟨cores, hcores, hafter⟩ := Loop.foldlM_range (n := t.coresPerSocket)
    (s := ⟨s.1, some 0, []⟩) (f := coreTurn t st ratio i) (BeforeCore t F i) ⟨h.rest, rfl, rfl⟩
    fun j hj s hs => hs.turn hF hi hj
  have hturn : socketTurn t st ratio s i = some (cores.coreFrequencies,
      inObject (snprintf 16 (socketKey i))
        (Fields.set cpuKey (.object (cpuFields t F i))) s.2) := by
    have hcores' : (List.range (t.ncores / t.nsockets)).foldlM (coreTurn t st ratio i)
        ⟨s.1, some 0, []⟩ = some cores := hcores
    rw [socketTurn, hcores']
    simp only [Option.bind_eq_bind, Option.bind_some, hafter.sum, hafter.obj]
    rfl
  refine ⟨_, hturn, ⟨fun m hm => ?_, ?_⟩⟩
  · have hnext : coreFreqIndex t (i + 1) 0 = coreFreqIndex t i t.coresPerSocket :=
      Nat.succ_mul i _
    exact hafter.rest m (hnext ▸ hm)
  · show inObject _ _ s.2 = _
    rw [h.output, outputOf, outputOf, List.range_succ, List.foldl_append]
    rfl

/-- **The loops** make the output of the frequencies. -/
theorem socketLoop_eq (hF : Frequencies t st ratio F) (output : Object) :
    ∃ freqs, (List.range t.nsockets).foldlM (socketTurn t st ratio) (fun _ => some 0, output)
      = some (freqs, outputOf t F output t.nsockets) := by
  obtain ⟨s, hloop, hafter⟩ := Loop.foldlM_range (n := t.nsockets) (s := (fun _ => some 0, output))
    (f := socketTurn t st ratio) (BeforeSocket t F output) ⟨fun _ _ => rfl, rfl⟩
    fun i hi s hs => hs.turn hF hi
  refine ⟨s.1, ?_⟩
  rw [hloop, ← hafter.output]

end Loops

/-! ### The reads -/

section Reads

variable {e : MsrEnv} {t : Topology} {msrs : FeatureMsrs} {st : FeatureState}

theorem ClocksKept.found (h : ClocksKept t msrs st) (contents : Nat → Nat → BitVec 64) :
    ClocksKept t msrs (st.found contents) :=
  ⟨h.platform.found contents, h.clocks.found contents, h.perf.found contents⟩

/-- **The reads.**  Every thread has counters in the tables, and if nothing was refused
these are its registers, as batches see them. -/
theorem readClocks_spec (hclocks : st.BatchKept e.topo CLOCKS_DATA
      [.thread msrs.aperf, .thread msrs.mperf, .thread msrs.tsc])
    (hperf : st.BatchKept e.topo PERF_DATA [.socket msrs.perfStatus])
    (hroom : 3 * e.topo.nthreads < 2 ^ 32) :
    ∃ st', readClocks e msrs st = some st' ∧ st.msr.machine.log <+: st'.msr.machine.log ∧
      ∀ cpu : Nat, cpu < e.topo.nthreads → ∃ aperf mperf,
        st'.peek CLOCKS_DATA 0 cpu = some aperf ∧ st'.peek CLOCKS_DATA 1 cpu = some mperf ∧
        (st.msr.machine.Clean e.driver st'.msr.machine →
          aperf = narrowed st.msr.machine.msr cpu msrs.aperf.toNat ∧
            mperf = narrowed st.msr.machine.msr cpu msrs.mperf.toNat) := by
  have hne : CLOCKS_DATA ≠ PERF_DATA := by decide
  obtain ⟨st₁, hinit₁, hloaded₁, hreads₁⟩ := hclocks.init (by decide) (clocks_room hroom)
  have hkept := hperf.of_sameAt (hreads₁.sameBut.sameAt hne.symm)
  obtain ⟨st₂, hinit₂, hloaded₂, hreads₂⟩ := hkept.init (by decide) perf_room
  have hclocks₂ := hloaded₁.of_sameBut hreads₂.sameBut hne
  obtain ⟨err₃, st₃, hread₃, hloaded₃, hreads₃, hvalues⟩ :=
    hclocks₂.readValues (by decide) (List.cons_ne_nil _ _)
  have hperf₃ := hloaded₂.of_sameBut hreads₃.sameBut hne.symm
  obtain ⟨err₄, st₄, hread₄, -, hreads₄, -⟩ :=
    hperf₃.readValues (by decide) (List.cons_ne_nil _ _)
  have hgrows₂ := hreads₁.grows.trans hreads₂.grows
  have hgrows₃ := hgrows₂.trans hreads₃.grows
  -- the last read is of another batch, so it leaves the tables of the first
  have hframe := fun n i => (hreads₄.sameBut.sameAt hne).peek n i
  refine ⟨st₄, ?_, hgrows₃.trans hreads₄.grows, fun cpu hcpu => ?_⟩
  · simp only [readClocks, hinit₁, hinit₂, hread₃, hread₄, Option.bind_eq_bind, Option.bind_some]
    rfl
  · obtain ⟨aperf, haperf⟩ := hloaded₃.peek (n := 0) rfl hcpu
    obtain ⟨mperf, hmperf⟩ := hloaded₃.peek (n := 1) rfl hcpu
    refine ⟨aperf, mperf, (hframe 0 cpu).trans haperf, (hframe 1 cpu).trans hmperf,
      fun hclean => ?_⟩
    obtain ⟨hclean₃, -⟩ := (clean_trans_iff hgrows₃ hreads₄.grows).mp hclean
    obtain ⟨-, hclean₃⟩ := (clean_trans_iff hgrows₂ hreads₃.grows).mp hclean₃
    have hentry := fun n load hload => (hvalues hclean₃).2 n load hload cpu
    have haperf' := hentry 0 _ rfl hcpu
    have hmperf' := hentry 1 _ rfl hcpu
    rw [haperf, hreads₂.contents, hreads₁.contents] at haperf'
    rw [hmperf, hreads₂.contents, hreads₁.contents] at hmperf'
    exact ⟨Option.some.inj haperf', Option.some.inj hmperf'⟩

theorem threadFrequency_eq {ratio idx : Int} {aperf mperf : BitVec 64}
    (haperf : st.peek CLOCKS_DATA 0 idx = some aperf)
    (hmperf : st.peek CLOCKS_DATA 1 idx = some mperf) :
    threadFrequency st ratio idx = some (frequency ratio aperf mperf) := by
  rw [threadFrequency, haperf, hmperf]
  rfl

/-- The frequency of a thread as the function finds it. -/
def seen (t : Topology) (msrs : FeatureMsrs) (contents : Nat → Nat → BitVec 64) (i j k : Nat) :
    Option ℚ :=
  frequency (RatioCall.maxNonTurbo.ratio t msrs contents 0 * 100)
    (narrowed contents (t.cpu i j k) msrs.aperf.toNat)
    (narrowed contents (t.cpu i j k) msrs.mperf.toNat)

/-- **The function.**  If it returns 0 and nothing was refused, the output is made of the
frequencies as it finds them. -/
theorem getClocksDataJson_spec (hst : ClocksKept e.topo msrs st)
    (hroom : 3 * e.topo.nthreads < 2 ^ 32) (output : Object) :
    ∃ ret output' st', getClocksDataJson e msrs .core output st = some (ret, output', st') ∧
      st.msr.machine.log <+: st'.msr.machine.log ∧
      (st.msr.machine.Clean e.driver st'.msr.machine →
        (ret = 0 ↔ RatioFound e.topo msrs st.msr.machine.msr) ∧
        (ret = 0 → output' = outputOf e.topo (seen e.topo msrs st.msr.machine.msr) output
          e.topo.nsockets)) := by
  obtain ⟨err, ratio, st₁, hratio, -, hreads₁, hret⟩ :=
    RatioCall.maxNonTurbo.run_spec hst.platform
  have hrun₁ : getMaxNonTurboRatio e msrs st = some (err, ratio, st₁) := hratio
  by_cases herr : err = 0
  · have hclocks := hst.clocks.of_sameAt (hreads₁.sameBut.sameAt (by decide))
    have hperf := hst.perf.of_sameAt (hreads₁.sameBut.sameAt (by decide))
    obtain ⟨st₂, hrun₂, hgrows₂, hcounters⟩ := readClocks_spec hclocks hperf hroom
    -- whatever was read, each thread has some frequency
    obtain ⟨F, hF⟩ : ∃ F, Frequencies e.topo st₂ ratio F := by
      refine ⟨fun i j k => (threadFrequency st₂ ratio (clocksIdx e.topo i j k)).getD none, ?_⟩
      intro i j k hv
      obtain ⟨aperf, mperf, haperf, hmperf, -⟩ := hcounters _ hv.cpu_lt
      simp only [clocksIdx_eq hv, threadFrequency_eq haperf hmperf, Option.getD_some]
    obtain ⟨freqs, hloop⟩ := socketLoop_eq hF output
    refine ⟨0, outputOf e.topo F output e.topo.nsockets, st₂, ?_, hreads₁.grows.trans hgrows₂,
      fun hclean => ?_⟩
    · rw [getClocksDataJson, hrun₁]
      simp only [Option.bind_eq_bind, Option.bind_some, herr, hrun₂, hloop]
      rfl
    obtain ⟨hclean₁, hclean₂⟩ := (clean_trans_iff hreads₁.grows hgrows₂).mp hclean
    have hpair := hret hclean₁
    split at hpair
    · next htell =>
        refine ⟨iff_of_true rfl htell, fun _ => ?_⟩
        have hseen : Frequencies e.topo st₂ ratio (seen e.topo msrs st.msr.machine.msr) := by
          intro i j k hv
          obtain ⟨aperf, mperf, haperf, hmperf, hvalues⟩ := hcounters _ hv.cpu_lt
          obtain ⟨rfl, rfl⟩ := hvalues hclean₂
          rw [clocksIdx_eq hv, threadFrequency_eq haperf hmperf, (Prod.mk.inj hpair).2,
            hreads₁.contents]
          rfl
        obtain ⟨freqs', hloop'⟩ := socketLoop_eq hseen output
        exact (Prod.mk.inj (Option.some.inj (hloop.symm.trans hloop'))).2
    · have hinval : err = VariorumError.inval.code := (Prod.mk.inj hpair).1
      exact absurd (hinval.symm.trans herr) VariorumError.inval.code_ne_zero
  · refine ⟨-1, output, st₁, ?_, hreads₁.grows, fun hclean => ⟨?_, fun h => by cases h⟩⟩
    · rw [getClocksDataJson, hrun₁]
      simp only [Option.bind_eq_bind, Option.bind_some]
      rw [if_pos herr]
      rfl
    · have hpair := hret hclean
      split at hpair
      · exact absurd (Prod.mk.inj hpair).1 herr
      · next htell => exact iff_of_false (by decide) htell

/-- Without room for the tables there is no telling. -/
theorem getClocksDataJson_of_gt (hst : ClocksKept e.topo msrs st)
    (hunused : st.Unused CLOCKS_DATA) (hroom : 2 ^ 32 ≤ 3 * e.topo.nthreads)
    (hnever : ∀ n a, e.driver.fails n a = false)
    (htell : RatioFound e.topo msrs st.msr.machine.msr) (output : Object) :
    getClocksDataJson e msrs .core output st = none := by
  obtain ⟨err, ratio, st₁, hratio, -, hreads₁, hret⟩ :=
    RatioCall.maxNonTurbo.run_spec hst.platform
  have hrun₁ : getMaxNonTurboRatio e msrs st = some (err, ratio, st₁) := hratio
  have hpair := (hret (clean_of_never hnever hreads₁.grows)).trans (if_pos htell)
  have hstill : st₁.Unused CLOCKS_DATA := hunused.of_sameBut hreads₁.sameBut (by decide)
  have hinit : initBatch e.topo CLOCKS_DATA (3 * e.topo.nthreads)
      [.thread msrs.aperf, .thread msrs.mperf, .thread msrs.tsc] st₁ = none := by
    apply initBatch_of_gt hstill (by decide)
    have hlt := e.topo.nthreads_lt
    show _ < e.topo.nthreads + (e.topo.nthreads + (e.topo.nthreads + 0))
    omega
  rw [getClocksDataJson, hrun₁]
  simp only [Option.bind_eq_bind, Option.bind_some, (Prod.mk.inj hpair).1, readClocks, hinit]
  rfl

end Reads

/-! ### The output -/

section Output

variable {t : Topology} {F : Nat → Nat → Nat → Option ℚ} {output : Object} {i j n : Nat}
variable {x : Nat → ℚ} {f : Nat → ℚ} {y c : ℚ}

theorem foldl_add (xs : List ℚ) (a : ℚ) :
    (xs.map some).foldl add (some a) = some (a + xs.sum) := by
  induction xs generalizing a with
  | nil => rw [List.sum_nil, add_zero]; rfl
  | cons x xs ih =>
      show (xs.map some).foldl add (some (a + x)) = _
      rw [ih, List.sum_cons, add_assoc]

theorem mean_mul_length {xs : List ℚ} (h : xs ≠ []) : mean xs * xs.length = xs.sum := by
  have hpos : (xs.length : ℚ) ≠ 0 := Nat.cast_ne_zero.mpr (List.length_pos_of_ne_nil h).ne'
  exact div_mul_cancel₀ _ hpos

theorem mean_range_const (hn : 0 < n) (hx : ∀ k < n, x k = c) :
    mean ((List.range n).map x) = c := by
  have hmap : (List.range n).map x = List.replicate n c := by
    rw [List.map_congr_left fun k hk => hx k (List.mem_range.mp hk), List.map_const',
      List.length_range]
  have hpos : (n : ℚ) ≠ 0 := Nat.cast_ne_zero.mpr hn.ne'
  rw [mean, hmap, List.sum_replicate, List.length_replicate, nsmul_eq_mul,
    mul_div_cancel_left₀ _ hpos]

theorem mean_range_two (x : Nat → ℚ) : mean ((List.range 2).map x) = (x 0 + x 1) / 2 := by
  simp [mean, List.range_succ]

/-- **What is stored for a core**: half the number of its threads times their mean. -/
theorem coreReal_eq (hf : ∀ k < t.threadsPerCore, F i j k = some (f k)) :
    coreReal t F i j = some ((t.threadsPerCore : ℚ) / 2
      * mean ((List.range t.threadsPerCore).map f)) := by
  have hmap : (List.range t.threadsPerCore).map (F i j)
      = ((List.range t.threadsPerCore).map f).map some := by
    rw [List.map_map]
    exact List.map_congr_left fun k hk => hf k (List.mem_range.mp hk)
  have hne : (List.range t.threadsPerCore).map f ≠ [] := by
    apply List.ne_nil_of_length_pos
    rw [List.length_map, List.length_range]
    exact t.threadsPerCore_pos
  have hsum := mean_mul_length hne
  rw [List.length_map, List.length_range] at hsum
  rw [coreReal, hmap, foldl_add, ← hsum, zero_add]
  show some (_ / 2) = _
  congr 1
  ring

theorem coreSum_eq (hx : ∀ j < n, coreReal t F i j = some (x j)) :
    coreSum t F i n = some ((List.range n).map x).sum := by
  have hmap : (List.range n).map (coreReal t F i) = ((List.range n).map x).map some := by
    rw [List.map_map]
    exact List.map_congr_left fun j hj => hx j (List.mem_range.mp hj)
  rw [coreSum, hmap, foldl_add, zero_add]

/-! The keys. -/

theorem coreAvgKey_injective : Function.Injective coreAvgKey := fun _ _ h =>
  decimal_injective (List.append_cancel_left (List.append_cancel_right h))

theorem length_coreAvgKey (j : Nat) : (coreAvgKey j).length = 5 + (decimal j).length + 13 := by
  show ("core_".toList ++ decimal j ++ "_avg_freq_mhz".toList).length = _
  rw [List.length_append, List.length_append]
  rfl

/-- The keys of a hundred thousand cores fit the buffer. -/
theorem snprintf_coreAvgKey (hj : j < 10 ^ 5) : snprintf 24 (coreAvgKey j) = coreAvgKey j := by
  have hlen := (decimal_length_le_iff (by decide)).mpr hj
  apply snprintf_of_lt
  rw [length_coreAvgKey]
  omega

theorem get_coreObject (hx : ∀ j < n, coreReal t F i j = some (x j)) (hn : n ≤ 10 ^ 5)
    (hj : j < n) : Fields.get (coreAvgKey j) (coreObject t F i n) = some (.real (x j)) := by
  induction n with
  | zero => exact absurd hj (Nat.not_lt_zero j)
  | succ n ih =>
      have hturn : coreObject t F i (n + 1)
          = Fields.set (coreAvgKey n) (.real (x n)) (coreObject t F i n) := by
        rw [coreObject, List.range_succ, List.foldl_append]
        show setReal (snprintf 24 (coreAvgKey n)) (coreReal t F i n) (coreObject t F i n) = _
        rw [hx n (Nat.lt_succ_self n), snprintf_coreAvgKey hn]
        rfl
      rw [hturn]
      rcases Nat.lt_succ_iff_lt_or_eq.mp hj with hlt | rfl
      · rw [Fields.get_set_of_ne fun h => hlt.ne' (coreAvgKey_injective h)]
        exact ih (fun j hj => hx j (Nat.lt_succ_of_lt hj)) (Nat.le_of_succ_le hn) hlt
      · exact Fields.get_set_self

theorem outputOf_succ : outputOf t F output (n + 1)
    = inObject (snprintf 16 (socketKey n)) (Fields.set cpuKey (.object (cpuFields t F n)))
        (outputOf t F output n) := by
  rw [outputOf, List.range_succ, List.foldl_append]
  rfl

theorem get_outputOf_of_le (hni : n ≤ i) (hi : i < 10 ^ 8) :
    Fields.get (socketKey i) (outputOf t F output n) = Fields.get (socketKey i) output := by
  induction n with
  | zero => rfl
  | succ n ih =>
      have hkey : snprintf 16 (socketKey n) ≠ socketKey i := by
        rw [PowerJson.snprintf_socketKey (w := 8) (by omega) (by decide)]
        intro h
        exact absurd (PowerJson.socketKey_injective h) (by omega)
      rw [outputOf_succ, UtilJson.get_inObject_of_ne hkey]
      exact ih (Nat.le_of_succ_le hni)

/-- The object of the CPU is made anew for each socket. -/
theorem cpuObject_outputOf (hobj : SocketObjects t output) (hn : n ≤ t.nsockets)
    (hfit : n ≤ 10 ^ 8) (hi : i < n) :
    cpuObject (outputOf t F output n) i = some (.object (cpuFields t F i)) := by
  induction n with
  | zero => exact absurd hi (Nat.not_lt_zero i)
  | succ n ih =>
      have hkey := PowerJson.snprintf_socketKey (w := 8) hfit (by decide)
      rw [cpuObject, outputOf_succ, hkey]
      rcases Nat.lt_succ_iff_lt_or_eq.mp hi with hlt | rfl
      · rw [UtilJson.get_inObject_of_ne fun h => hlt.ne' (PowerJson.socketKey_injective h)]
        exact ih (Nat.le_of_succ_le hn) (Nat.le_of_succ_le hfit) hlt
      · rw [UtilJson.get_inObject_self, get_outputOf_of_le (Nat.le_refl i) hfit]
        obtain ⟨l, hl⟩ : ∃ l, (Fields.get (socketKey i) output).getD (.object []) = .object l := by
          cases hget : Fields.get (socketKey i) output with
          | none => exact ⟨[], rfl⟩
          | some v => exact hobj i hn v (hkey.symm ▸ hget)
        rw [hl]
        exact Fields.get_set_self

/-- The values of a socket. -/
theorem values_outputOf (hobj : SocketObjects t output) (hsockets : t.nsockets ≤ 10 ^ 8)
    (hcores : t.coresPerSocket ≤ 10 ^ 5) (hi : i < t.nsockets)
    (hx : ∀ j < t.coresPerSocket, coreReal t F i j = some (x j)) :
    (∀ j < t.coresPerSocket,
      coreValue (outputOf t F output t.nsockets) i j = some (.real (x j))) ∧
      socketValue (outputOf t F output t.nsockets) i
        = some (.real (mean ((List.range t.coresPerSocket).map x))) := by
  have hcpu := cpuObject_outputOf (F := F) hobj (Nat.le_refl _) hsockets hi
  have hfields : cpuFields t F i
      = Fields.set cpuAvgKey (.real (mean ((List.range t.coresPerSocket).map x)))
          (Fields.set coreKey (.object (coreObject t F i t.coresPerSocket)) []) := by
    rw [cpuFields, coreSum_eq hx, mean, List.length_map, List.length_range]
    rfl
  constructor
  · intro j hj
    rw [coreValue, hcpu]
    show (Fields.get coreKey (cpuFields t F i)).bind (Json.get (coreAvgKey j)) = _
    rw [hfields, Fields.get_set_of_ne (by decide), Fields.get_set_self]
    exact get_coreObject hx hcores hj
  · rw [socketValue, hcpu]
    show Fields.get cpuAvgKey (cpuFields t F i) = _
    rw [hfields, Fields.get_set_self]

/-! Where all cores have the same frequency, no other one is found. -/

/-- Every value of a core is `c`. -/
def HoldsOnly (c : ℚ) (out : Object) : Prop :=
  ∀ k l, Fields.get k out = some (.object l) → ∀ cpu, Fields.get cpuKey l = some (.object cpu) →
    ∀ core, Fields.get coreKey cpu = some (.object core) →
      ∀ a y, Fields.get a core = some (.real y) → y = c

theorem coreObject_only (hx : ∀ j < n, coreReal t F i j = some c) {a : List Char}
    (h : Fields.get a (coreObject t F i n) = some (.real y)) : y = c := by
  induction n with
  | zero => cases h
  | succ n ih =>
      have hturn : coreObject t F i (n + 1)
          = Fields.set (snprintf 24 (coreAvgKey n)) (.real c) (coreObject t F i n) := by
        rw [coreObject, List.range_succ, List.foldl_append]
        show setReal (snprintf 24 (coreAvgKey n)) (coreReal t F i n) (coreObject t F i n) = _
        rw [hx n (Nat.lt_succ_self n)]
        rfl
      rw [hturn] at h
      by_cases hkey : snprintf 24 (coreAvgKey n) = a
      · rw [hkey, Fields.get_set_self] at h
        exact (Json.real.inj (Option.some.inj h)).symm
      · rw [Fields.get_set_of_ne hkey] at h
        exact ih (fun j hj => hx j (Nat.lt_succ_of_lt hj)) h

theorem get_coreKey_cpuFields (t : Topology) (F : Nat → Nat → Nat → Option ℚ) (i : Nat) :
    Fields.get coreKey (cpuFields t F i) = some (.object (coreObject t F i t.coresPerSocket)) := by
  unfold cpuFields setReal
  split
  · rw [Fields.get_set_of_ne (by decide), Fields.get_set_self]
  · rw [Fields.get_set_self]

theorem outputOf_only (hx : ∀ i < n, ∀ j < t.coresPerSocket, coreReal t F i j = some c) :
    HoldsOnly c (outputOf t F [] n) := by
  induction n with
  | zero =>
      intro k l hl
      cases hl
  | succ n ih =>
      have hbefore := ih fun i hi => hx i (Nat.lt_succ_of_lt hi)
      intro k l hl cpu hcpu core hcore a y hy
      rw [outputOf_succ] at hl
      by_cases hkey : snprintf 16 (socketKey n) = k
      · rw [hkey, UtilJson.get_inObject_self] at hl
        -- the object that was there, or none, has the new one under its key
        cases hd : (Fields.get k (outputOf t F [] n)).getD (.object []) with
        | object l₀ =>
            rw [hd] at hl
            obtain rfl := Json.object.inj (Option.some.inj hl)
            rw [Fields.get_set_self] at hcpu
            obtain rfl := Json.object.inj (Option.some.inj hcpu)
            rw [get_coreKey_cpuFields] at hcore
            obtain rfl := Json.object.inj (Option.some.inj hcore)
            exact coreObject_only (hx n (Nat.lt_succ_self n)) hy
        | real x => rw [hd] at hl; cases hl
        | integer x => rw [hd] at hl; cases hl
      · rw [UtilJson.get_inObject_of_ne hkey] at hl
        exact hbefore k l hl cpu hcpu core hcore a y hy

theorem HoldsOnly.coreValue {out : Object} (h : HoldsOnly c out)
    (hvalue : coreValue out i j = some (.real y)) : y = c := by
  obtain ⟨core, hcore, hy⟩ := Option.bind_eq_some_iff.mp hvalue
  obtain ⟨cpu, hcpu, hcore⟩ := Option.bind_eq_some_iff.mp hcore
  obtain ⟨socket, hsocket, hcpu⟩ := Option.bind_eq_some_iff.mp hcpu
  cases core with
  | object core =>
      cases cpu with
      | object cpu =>
          cases socket with
          | object l => exact h _ l hsocket cpu hcpu core hcore _ y hy
          | _ => cases hcpu
      | _ => cases hcore
  | _ => cases hy

end Output

/-! ### For which topologies it is right -/

section Topologies

variable {t : Topology} {msrs : FeatureMsrs} {contents : Nat → Nat → BitVec 64} {c : ℚ}

theorem ClocksKept.start (t : Topology) (msrs : FeatureMsrs) : ClocksKept t msrs .start :=
  ⟨.inl ⟨rfl, rfl⟩, .inl ⟨rfl, rfl⟩, .inl ⟨rfl, rfl⟩⟩

/-- The first call of a process that finds a ratio is defined, and its values are
right. -/
theorem first_of_meansRight (h : MeansRight t msrs contents) (htell : RatioFound t msrs contents) :
    3 * t.nthreads < 2 ^ 32 ∧ ∀ i < t.nsockets, ∀ j < t.coresPerSocket,
      coreValue (outputOf t (seen t msrs contents) [] t.nsockets) i j
        = some (.real (coreMean t msrs contents i j)) := by
  let e : MsrEnv := ⟨t, ⟨fun _ _ => false⟩, true⟩
  have hstart := (ClocksKept.start t msrs).found contents
  have hobj : SocketObjects t [] := fun i _ v hv => by cases hv
  obtain ⟨ret', output', st', hrun', hright⟩ := h e rfl .start [] (.start t msrs) hobj
  have hroom : 3 * t.nthreads < 2 ^ 32 := by
    by_contra hmany
    -- the batch has the room of the wrapped product, and the call is undefined
    have hnone := getClocksDataJson_of_gt (e := e) hstart ⟨rfl, rfl⟩ (Nat.not_lt.mp hmany)
      (fun _ _ => rfl) htell []
    cases hrun'.symm.trans hnone
  obtain ⟨ret, output, st, hrun, hgrows, hret⟩ := getClocksDataJson_spec (e := e) hstart hroom []
  obtain ⟨rfl, rfl, rfl⟩ : ret' = ret ∧ output' = output ∧ st' = st := by
    simpa using hrun'.symm.trans hrun
  have hclean : (FeatureState.start.found contents).msr.machine.Clean e.driver st'.msr.machine :=
    clean_of_never (fun _ _ => rfl) hgrows
  obtain ⟨hzero, hout⟩ := hret hclean
  have hzero : ret' = 0 := hzero.mpr htell
  have hout : output' = outputOf t (seen t msrs contents) [] t.nsockets := hout hzero
  exact ⟨hroom, fun i hi j hj => hout ▸ (hright hclean hzero i hi).1 j hj⟩

/-- No two threads of a node share an entry of a batch, so a thread is seen with its own
counters. -/
theorem seen_eq (hfew : t.nthreads ≤ 2 ^ 16) (hrunning : Running t msrs contents) {i j k : Nat}
    (hv : t.Valid i j k) : seen t msrs contents i j k = some (freq t msrs contents i j k) := by
  rw [seen, narrowed_eq hfew hv.cpu_lt, frequency, if_neg (hrunning _ hv.cpu_lt)]
  push_cast
  rfl

/-- The values that such a node gets. -/
theorem values_seen (hfew : t.nthreads ≤ 2 ^ 16) (hrunning : Running t msrs contents)
    {output : Object} (hobj : SocketObjects t output) {i : Nat} (hi : i < t.nsockets) :
    let core (j : Nat) : ℚ := t.threadsPerCore / 2 * coreMean t msrs contents i j
    (∀ j < t.coresPerSocket,
      coreValue (outputOf t (seen t msrs contents) output t.nsockets) i j
        = some (.real (core j))) ∧
      socketValue (outputOf t (seen t msrs contents) output t.nsockets) i
        = some (.real (mean ((List.range t.coresPerSocket).map core))) := by
  have hcores := t.ncores_le
  have hsockets := t.nsockets_le
  have hper : t.coresPerSocket ≤ t.ncores := Nat.div_le_self _ _
  apply values_outputOf hobj (by omega) (by omega) hi
  intro j hj
  exact coreReal_eq fun k hk => seen_eq hfew hrunning ⟨hi, hj, hk⟩

/-- **The values, exactly**, on a node whose CPUs batches can name: they are right where
no ratio is found, where cores have two threads, and where all frequencies are 0. -/
theorem meansRight_iff (hfew : t.nthreads ≤ 2 ^ 16) (hrunning : Running t msrs contents) :
    MeansRight t msrs contents ↔ ¬ RatioFound t msrs contents ∨ t.threadsPerCore = 2 ∨
      ∀ i < t.nsockets, ∀ j < t.coresPerSocket, coreMean t msrs contents i j = 0 := by
  constructor
  · intro h
    by_cases htell : RatioFound t msrs contents
    · obtain ⟨-, hvalues⟩ := first_of_meansRight h htell
      have hobj : SocketObjects t [] := fun i _ v hv => by cases hv
      refine .inr ?_
      by_contra hnot
      obtain ⟨htwo, hmean⟩ := not_or.mp hnot
      refine hmean fun i hi j hj => ?_
      -- what is stored is threads / 2 times the mean, and has to be the mean
      have hvalue := (values_seen hfew hrunning hobj hi).1 j hj
      have heq := Json.real.inj (Option.some.inj (hvalue.symm.trans (hvalues i hi j hj)))
      have hfactor : (t.threadsPerCore : ℚ) / 2 - 1 ≠ 0 := by
        intro hfactor
        have htwo' : (t.threadsPerCore : ℚ) = 2 := by linarith
        exact htwo (by exact_mod_cast htwo')
      have hprod : ((t.threadsPerCore : ℚ) / 2 - 1) * coreMean t msrs contents i j = 0 := by
        linarith
      exact (mul_eq_zero.mp hprod).resolve_left hfactor
    · exact .inl htell
  · rintro hcases e rfl st output hst hobj
    obtain ⟨ret, output', st', hrun, -, hret⟩ :=
      getClocksDataJson_spec (hst.found contents) (by omega) output
    refine ⟨ret, output', st', hrun, fun hclean hzero i hi => ?_⟩
    obtain ⟨htell, hout⟩ := hret hclean
    have hout : output' = outputOf e.topo (seen e.topo msrs contents) output e.topo.nsockets :=
      hout hzero
    have hcases := hcases.resolve_left (not_not.mpr (htell.mp hzero))
    have hcore : ∀ j < e.topo.coresPerSocket,
        (e.topo.threadsPerCore : ℚ) / 2 * coreMean e.topo msrs contents i j
          = coreMean e.topo msrs contents i j := by
      intro j hj
      rcases hcases with htwo | hmean
      · rw [htwo]
        norm_num
      · rw [hmean i hi j hj, mul_zero]
    obtain ⟨hcores, hsocket⟩ := values_seen hfew hrunning hobj hi
    rw [hout, hsocket, socketMean]
    exact ⟨fun j hj => (hcores j hj).trans (congrArg (some ∘ Json.real) (hcore j hj)),
      by rw [List.map_congr_left fun j hj => hcore j (List.mem_range.mp hj)]⟩

/-- Where all threads have the same frequency, the means have to be what the function
makes of it. -/
theorem coreMean_of_means (h : MeansRight t msrs contents) (htell : RatioFound t msrs contents)
    (hseen : ∀ i j k, t.Valid i j k → seen t msrs contents i j k = some c) {i j : Nat}
    (hi : i < t.nsockets) (hj : j < t.coresPerSocket) :
    coreMean t msrs contents i j = t.threadsPerCore / 2 * c := by
  refine HoldsOnly.coreValue (outputOf_only fun i hi j hj => ?_)
    ((first_of_meansRight h htell).2 i hi j hj)
  have hpos := t.threadsPerCore_pos
  rw [coreReal_eq fun k hk => hseen i j k ⟨hi, hj, hk⟩,
    mean_range_const hpos fun _ _ => rfl]

/-- The registers where APERF of this CPU is ahead of its MPERF. -/
def aheadAt (cpu : Nat) : Nat → Nat → BitVec 64 := fun c a =>
  if c = cpu ∧ a = fm064fFeatureMsrs.aperf.toNat then 512 else 256

theorem aheadAt_of_ne (cpu c : Nat) {a : Nat} (h : a ≠ fm064fFeatureMsrs.aperf.toNat) :
    aheadAt cpu c a = 256 := if_neg fun hc => h hc.2

theorem ratio_aheadAt (t : Topology) (cpu i : Nat) :
    RatioCall.maxNonTurbo.ratio t fm064fFeatureMsrs (aheadAt cpu) i = 1 := by
  rw [RatioCall.ratio, aheadAt_of_ne _ _ (by decide)]
  rfl

theorem freq_aheadAt (t : Topology) (cpu i j k : Nat) :
    freq t fm064fFeatureMsrs (aheadAt cpu) i j k = if t.cpu i j k = cpu then 200 else 100 := by
  have hmperf : (aheadAt cpu (t.cpu i j k) fm064fFeatureMsrs.mperf.toNat).toNat = 256 := by
    rw [aheadAt_of_ne _ _ (by decide)]
    rfl
  have haperf : (aheadAt cpu (t.cpu i j k) fm064fFeatureMsrs.aperf.toNat).toNat
      = if t.cpu i j k = cpu then 512 else 256 := by
    simp only [aheadAt, and_true]
    split <;> rfl
  rw [freq, ratio_aheadAt, hmperf, haperf]
  split <;> norm_num

/-- A CPU that no batch can name is not seen to be ahead. -/
theorem coreMean_aheadAt (h : FrequencyMeans t) {cpu : Nat} (hcpu : 2 ^ 16 ≤ cpu) {i j : Nat}
    (hi : i < t.nsockets) (hj : j < t.coresPerSocket) :
    coreMean t fm064fFeatureMsrs (aheadAt cpu) i j = t.threadsPerCore / 2 * 100 := by
  have hrunning : Running t fm064fFeatureMsrs (aheadAt cpu) := by
    intro c _
    rw [aheadAt_of_ne _ _ (by decide)]
    decide
  refine coreMean_of_means (h _ _ hrunning) (.inr ?_) ?_ hi hj
  · rw [ratio_aheadAt, RatioCall.second, aheadAt_of_ne _ _ (by decide)]
    rfl
  · intro i j k _
    have hne : t.cpu i j k % 2 ^ 16 ≠ cpu := ((Nat.mod_lt _ (by decide)).trans_le hcpu).ne
    have haperf : narrowed (aheadAt cpu) (t.cpu i j k) fm064fFeatureMsrs.aperf.toNat = 256 :=
      if_neg fun h => hne h.1
    have hmperf : narrowed (aheadAt cpu) (t.cpu i j k) fm064fFeatureMsrs.mperf.toNat = 256 :=
      aheadAt_of_ne _ _ (by decide)
    have hnat : (256 : BitVec 64).toNat = 256 := rfl
    rw [seen, ratio_aheadAt, haperf, hmperf, frequency, if_neg (by decide), hnat]
    norm_num

theorem two_of_frequencyMeans (h : FrequencyMeans t) : t.threadsPerCore = 2 := by
  have hlt := t.nthreads_lt
  -- no CPU has this number
  have hmean : coreMean t fm064fFeatureMsrs (aheadAt (2 ^ 31)) 0 0 = _ :=
    coreMean_aheadAt h (by decide) t.nsockets_pos t.coresPerSocket_pos
  have hconst : coreMean t fm064fFeatureMsrs (aheadAt (2 ^ 31)) 0 0 = 100 := by
    apply mean_range_const t.threadsPerCore_pos
    intro k hk
    have hcpu := (show t.Valid 0 0 k from ⟨t.nsockets_pos, t.coresPerSocket_pos, hk⟩).cpu_lt
    rw [freq_aheadAt, if_neg (by omega)]
  rw [hconst] at hmean
  have htwo : (t.threadsPerCore : ℚ) = 2 := by linarith
  exact_mod_cast htwo

theorem few_of_frequencyMeans (h : FrequencyMeans t) : t.nthreads ≤ 2 ^ 16 := by
  by_contra hmany
  obtain ⟨i, j, k, hv, hcpu⟩ := Topology.exists_cpu (t := t) (Nat.not_le.mp hmany)
  have htwo := two_of_frequencyMeans h
  -- CPU 2^16 is ahead of the others, but its operations in the batch name CPU 0
  let f := freq t fm064fFeatureMsrs (aheadAt (2 ^ 16)) i j
  have hmean : (f 0 + f 1) / 2 = 100 := by
    have hmean := coreMean_aheadAt h (Nat.le_refl _) hv.1 hv.2.1
    rw [coreMean, htwo, mean_range_two] at hmean
    rw [hmean]
    norm_num
  have hle : ∀ k, 100 ≤ f k := by
    intro k
    show 100 ≤ freq t fm064fFeatureMsrs (aheadAt (2 ^ 16)) i j k
    rw [freq_aheadAt]
    split <;> norm_num
  have hahead : f k = 200 := by
    show freq t fm064fFeatureMsrs (aheadAt (2 ^ 16)) i j k = 200
    rw [freq_aheadAt, if_pos hcpu]
  have hk : k < 2 := htwo ▸ hv.2.2
  obtain rfl | rfl : k = 0 ∨ k = 1 := by omega
  · linarith [hle 1]
  · linarith [hle 0]

/-- **The means, exactly**: the entry of a core is the mean over its threads, for all
counters and in any state that calls have left, on nodes with two threads per core whose
CPUs batches can name.  The code divides by two, whatever the number of threads. -/
theorem frequencyMeans_iff (t : Topology) :
    FrequencyMeans t ↔ t.threadsPerCore = 2 ∧ t.nthreads ≤ 2 ^ 16 :=
  ⟨fun h => ⟨two_of_frequencyMeans h, few_of_frequencyMeans h⟩,
    fun ⟨htwo, hfew⟩ _ _ hrunning => (meansRight_iff hfew hrunning).mpr (.inr (.inl htwo))⟩

/-- Three cores of one thread each are stored with half their frequencies. -/
theorem not_frequencyMeans_three : ¬ FrequencyMeans threeSockets := fun h =>
  absurd (two_of_frequencyMeans h) (by decide)

end Topologies

end FrequencyJson

end Variorum
