/-
Variorum/Perfmon.lean

The general-purpose performance counters: which of their pointer tables exist
when `print_perfmon_counter_data` looks through them.

The number of counters is what CPUID reports, eight bits.  `init_pmc` and
`init_perfevtsel` allocate and load tables for 1 to 8 counters and for no other
number, and the storage functions drop what they answer.  The first call of
`print_perfmon_counter_data` programs counters 1 and 2 whatever the number is.

Each table that is looked through exists exactly when there are at least two
counters, at most eight, and as many operations as counters on all threads can
be numbered (`pmcSafe_iff`).  Otherwise already the first call dereferences a
table that is not there, or loads outside the batch (`printPerfmon_stuck`).
-/
import Variorum.KeptBatch

namespace Variorum

/-! ### The tables -/

/-- The members of `enum variorum_data_type_e` used below. -/
def COUNTERS_DATA : Nat := 4
def COUNTERS_CTRL : Nat := 5

/-- The counters for which the switches over `avail` have a case, the last one
first. -/
def counters (avail : BitVec 8) : List Nat :=
  if avail.toNat ≤ 8 then (List.range avail.toNat).reverse else []

/-- The loads of the two init functions. -/
def counterLoads (avail : BitVec 8) (msrs : Nat → BitVec 32) : List BatchLoad :=
  (counters avail).map fun k => .thread (msrs k)

/-- The position of the table of counter `k`; a counter without a table has none. -/
def counterTable (avail : BitVec 8) (k : Nat) : Nat :=
  if k < avail.toNat then avail.toNat - 1 - k else avail.toNat

/-- What `init_pmc` and `init_perfevtsel` have in common.  Without counters the
members of the static struct are left NULL. -/
def initCounters (t : Topology) (b : Nat) (avail : BitVec 8) (msrs : Nat → BitVec 32)
    (st : FeatureState) : Option (Int × FeatureState) :=
  if avail.toNat < 1 then
    some (-1, { st with tables := Function.update st.tables b (some []) })
  else
    (initBatch t b (avail.toNat * t.nthreads) (counterLoads avail msrs) st).map fun st => (0, st)

/-- `init_pmc`: a batch with one load for each counter. -/
def initPmc (t : Topology) (avail : BitVec 8) (pmcs : Nat → BitVec 32) (st : FeatureState) :
    Option (Int × FeatureState) :=
  initCounters t COUNTERS_DATA avail pmcs st

/-- `init_perfevtsel`: a batch with one load for each event selector. -/
def initPerfevtsel (t : Topology) (avail : BitVec 8) (evtsels : Nat → BitVec 32)
    (st : FeatureState) : Option (Int × FeatureState) :=
  initCounters t COUNTERS_CTRL avail evtsels st

/-- `pmc_storage`: what `init_pmc` answers is dropped. -/
def pmcStorage (t : Topology) (avail : BitVec 8) (pmcs : Nat → BitVec 32) (st : FeatureState) :
    Option FeatureState :=
  match st.tables COUNTERS_DATA with
  | some _ => some st
  | none => (initPmc t avail pmcs st).map fun (_, st) => st

/-- `perfevtsel_storage`: the batch is made in the first call, whatever comes of it. -/
def perfevtselStorage (t : Topology) (avail : BitVec 8) (evtsels : Nat → BitVec 32)
    (st : FeatureState) : Option FeatureState :=
  match st.tables COUNTERS_CTRL with
  | some _ => some st
  | none => (initPerfevtsel t avail evtsels st).map fun (_, st) => st

/-! ### Programming and printing -/

section Source

variable (e : MsrEnv) (avail : BitVec 8) (evtsels pmcs : Nat → BitVec 32)

/-- `set_pmc_ctrl_flags`: one event selector of one thread, put together from four
fields. -/
def setPmcCtrlFlags (cmask flags umask eventsel : BitVec 64) (pmcnum thread : Nat)
    (st : FeatureState) : Option FeatureState := do
  let st ← perfevtselStorage e.topo avail evtsels st
  if 1 ≤ pmcnum ∧ pmcnum ≤ 8 then
    st.poke COUNTERS_CTRL (counterTable avail (pmcnum - 1)) thread
      (cmask <<< 24 ||| flags <<< 16 ||| umask <<< 8 ||| eventsel)
  else some st

/-- `set_all_pmc_ctrl`: one event selector on all threads. -/
def setAllPmcCtrl (cmask flags umask eventsel : BitVec 64) (pmcnum : Nat) (st : FeatureState) :
    Option FeatureState :=
  Runs.exec (fun st i => setPmcCtrlFlags e avail evtsels cmask flags umask eventsel pmcnum i st)
    st (List.range e.topo.nthreads)

/-- `clear_all_pmc`: zeros for all counters of all threads, and one write of the batch. -/
def clearAllPmc (st : FeatureState) : Option FeatureState := do
  let st ← pmcStorage e.topo avail pmcs st
  let st ← Runs.exec
    (fun st (p : Nat × Nat) => st.poke COUNTERS_DATA (counterTable avail p.2) p.1 0) st
    ((List.range e.topo.nthreads).flatMap fun i => (counters avail).map fun k => (i, k))
  let (_, st) ← st.write e COUNTERS_DATA
  return st

/-- `enable_pmc`: the event selectors are written and the counters cleared; without
counters this is an error. -/
def enablePmc (st : FeatureState) : Option (Int × FeatureState) :=
  if avail = 0 then some (-1, st)
  else do
    let st ← perfevtselStorage e.topo avail evtsels st
    let (_, st) ← st.write e COUNTERS_CTRL
    let st ← clearAllPmc e avail pmcs st
    return (0, st)

/-- What `print_perfmon_counter_data` does on its first call before it reads the
counts, with the answer of `enable_pmc`. -/
def startPmc (st : FeatureState) : Option (Int × FeatureState) := do
  let st ← setAllPmcCtrl e avail evtsels 0x0 0x67 0x00 0xC4 1 st
  let st ← setAllPmcCtrl e avail evtsels 0x0 0x67 0x00 0xC4 2 st
  let (ret, st) ← enablePmc e avail evtsels pmcs st
  let st ← pmcStorage e.topo avail pmcs st
  return (ret, st)

/-- A line of counts. -/
structure PmcRow where
  thread : Nat
  counts : List (BitVec 64)
  deriving DecidableEq

/-- `*p->pmc0[i]` and so on. -/
def printPmcRow (st : FeatureState) (i : Nat) : Option PmcRow := do
  let counts ← (counters avail).reverse.mapM fun k =>
    st.peek COUNTERS_DATA (counterTable avail k) i
  return ⟨i, counts⟩

/-- The `if (p == NULL && !init)` block: the answer of `enable_pmc` is dropped. -/
def startPmcOnce (started : Bool) (st : FeatureState) : Option FeatureState :=
  if started then some st else (startPmc e avail evtsels pmcs st).map fun (_, st) => st

/-- `print_perfmon_counter_data`: the lines below the header. -/
def printPerfmonCounterData (started : Bool) (st : FeatureState) :
    Option (List PmcRow × FeatureState) := do
  let st ← startPmcOnce e avail evtsels pmcs started st
  let (_, st) ← st.read e COUNTERS_DATA
  if counters avail = [] then return ([], st)
  let rows ← (List.range e.topo.nthreads).mapM (printPmcRow avail st)
  return (rows, st)

/-- What is kept between calls. -/
structure PerfmonState where
  started : Bool
  kept : FeatureState

/-- A call that finds these registers. -/
def PerfmonState.print (s : PerfmonState) (contents : Nat → Nat → BitVec 64) :
    Option PerfmonState :=
  (printPerfmonCounterData e avail evtsels pmcs s.started (s.kept.found contents)).map
    fun (_, st) => ⟨true, st⟩

end Source

/-- No call dereferences a table that is not there, however often the counters are
printed and whatever the registers hold; and where no table was loaded, the first
call reports an error. -/
structure PmcSafe (t : Topology) (avail : BitVec 8) : Prop where
  runs : ∀ e : MsrEnv, e.topo = t → ∀ evtsels pmcs st, st.Unused COUNTERS_DATA →
    st.Unused COUNTERS_CTRL → ∀ contents : List (Nat → Nat → BitVec 64),
      ∃ s', Runs.exec (PerfmonState.print e avail evtsels pmcs) ⟨false, st⟩ contents = some s'
  reports : counters avail = [] → ∀ e : MsrEnv, e.topo = t → ∀ evtsels pmcs st,
    st.Unused COUNTERS_DATA → st.Unused COUNTERS_CTRL →
      ∃ ret st', startPmc e avail evtsels pmcs st = some (ret, st') ∧ ret ≠ 0

/-! ### Loading -/

section Loading

variable {t : Topology} {b k : Nat} {avail : BitVec 8} {msrs : Nat → BitVec 32}
variable {st : FeatureState}

theorem counters_of_le (h : avail.toNat ≤ 8) :
    counters avail = (List.range avail.toNat).reverse := if_pos h

theorem counters_ne_nil (hpos : 1 ≤ avail.toNat) (h : avail.toNat ≤ 8) : counters avail ≠ [] := by
  apply List.ne_nil_of_length_pos
  rw [counters_of_le h, List.length_reverse, List.length_range]
  exact hpos

theorem counterLoads_ne_nil (hpos : 1 ≤ avail.toNat) (h : avail.toNat ≤ 8) :
    counterLoads avail msrs ≠ [] := by
  rw [counterLoads, ne_eq, List.map_eq_nil_iff]
  exact counters_ne_nil hpos h

/-- A counter with a table. -/
theorem counterLoads_getElem? (h : avail.toNat ≤ 8) (hk : k < avail.toNat) :
    (counterLoads avail msrs)[counterTable avail k]? = some (.thread (msrs k)) := by
  have hlt : avail.toNat - 1 - k < (List.range avail.toNat).length := by
    rw [List.length_range]
    omega
  have hback : avail.toNat - 1 - (avail.toNat - 1 - k) = k := by omega
  rw [counterLoads, counterTable, if_pos hk, List.getElem?_map, counters_of_le h,
    List.getElem?_reverse hlt, List.length_range, hback, List.getElem?_range hk]
  rfl

/-- Where there is no such counter, its table is not among those loaded. -/
theorem counterLoads_length_le (h : avail.toNat ≤ k ∨ 8 < avail.toNat) :
    (counterLoads avail msrs).length ≤ counterTable avail k := by
  rw [counterLoads, List.length_map]
  rcases h with hk | hmany
  · rw [counterTable, if_neg (Nat.not_lt.mpr hk), counters]
    split <;> simp
  · rw [counters, if_neg (Nat.not_le.mpr hmany)]
    exact Nat.zero_le _

theorem counterLoads_sum (h : avail.toNat ≤ 8) :
    ((counterLoads avail msrs).map fun load => load.count t).sum = avail.toNat * t.nthreads := by
  have hcount : ((counterLoads avail msrs).map fun load => load.count t)
      = List.replicate avail.toNat t.nthreads := by
    rw [counterLoads, List.map_map, counters_of_le h]
    apply List.eq_replicate_iff.mpr
    refine ⟨by simp, fun n hn => ?_⟩
    obtain ⟨k, -, rfl⟩ := List.mem_map.mp hn
    rfl
  rw [hcount, List.sum_replicate_nat]

/-- Unused, or loaded as the init functions load. -/
def CountersKept (t : Topology) (b : Nat) (avail : BitVec 8) (msrs : Nat → BitVec 32)
    (st : FeatureState) : Prop :=
  st.Unused b ∨ st.Loaded t b (counterLoads avail msrs)

theorem CountersKept.of_sameBut {b' : Nat} {st' : FeatureState}
    (h : CountersKept t b avail msrs st) (hsame : st.SameBut b' st') (hne : b ≠ b') :
    CountersKept t b avail msrs st' :=
  h.imp (·.of_sameBut hsame hne) (·.of_sameBut hsame hne)

/-- The two storage functions, over their batch and their registers. -/
def counterStorage (t : Topology) (b : Nat) (avail : BitVec 8) (msrs : Nat → BitVec 32)
    (st : FeatureState) : Option FeatureState :=
  match st.tables b with
  | some _ => some st
  | none => (initCounters t b avail msrs st).map fun (_, st) => st

theorem pmcStorage_eq : pmcStorage t avail msrs st = counterStorage t COUNTERS_DATA avail msrs st :=
  rfl

theorem perfevtselStorage_eq :
    perfevtselStorage t avail msrs st = counterStorage t COUNTERS_CTRL avail msrs st := rfl

/-- With a counter or more they are the block that loads. -/
theorem counterStorage_eq (hpos : 1 ≤ avail.toNat) :
    counterStorage t b avail msrs st
      = initBatch t b (avail.toNat * t.nthreads) (counterLoads avail msrs) st := by
  cases hvals : st.tables b with
  | some vals => rw [counterStorage, initBatch, hvals]
  | none =>
      rw [counterStorage, hvals, initCounters, if_neg (Nat.not_lt.mpr hpos)]
      cases initBatch t b (avail.toNat * t.nthreads) (counterLoads avail msrs) st <;> rfl

/-- **Loading with room.**  Nine counters and more load nothing. -/
theorem counterStorage_loaded (hst : CountersKept t b avail msrs st) (hb : b + 1 < 2 ^ 31)
    (hpos : 1 ≤ avail.toNat) (hfit : avail.toNat ≤ 8 → avail.toNat * t.nthreads < 2 ^ 32) :
    ∃ st', counterStorage t b avail msrs st = some st' ∧
      st'.Loaded t b (counterLoads avail msrs) ∧ st.SameBut b st' := by
  rw [counterStorage_eq hpos]
  rcases hst with hunused | ⟨ops, hloaded⟩
  · have hroom : ((counterLoads avail msrs).map fun load => load.count t).sum
        ≤ avail.toNat * t.nthreads % 2 ^ 32 := by
      by_cases hle : avail.toNat ≤ 8
      · rw [counterLoads_sum hle, Nat.mod_eq_of_lt (hfit hle)]
      · rw [counterLoads, counters, if_neg hle]
        exact Nat.zero_le _
    obtain ⟨st', hrun, hholds⟩ := initBatch_holds hunused hb (counterLoads avail msrs) hroom
    exact ⟨st', hrun, ⟨_, hholds⟩, (initBatch_sameBut hrun).1⟩
  · exact ⟨st, hloaded.init _ _, ⟨ops, hloaded⟩, .refl b st⟩

/-- **Loading without room.**  Where the size wraps, the loads store behind the batch. -/
theorem counterStorage_of_gt (hst : st.Unused b) (hb : b + 1 < 2 ^ 31) (hpos : 1 ≤ avail.toNat)
    (hle : avail.toNat ≤ 8) (hfull : 2 ^ 32 ≤ avail.toNat * t.nthreads) :
    counterStorage t b avail msrs st = none := by
  rw [counterStorage_eq hpos]
  apply initBatch_of_gt hst hb
  rw [counterLoads_sum hle]
  exact (Nat.mod_lt _ (by decide)).trans_le hfull

/-- **Nothing to load.**  With no counters the tables are there, and empty. -/
theorem counterStorage_zero (hst : st.Unused b) :
    counterStorage t b 0 msrs st
      = some { st with tables := Function.update st.tables b (some []) } := by
  rw [counterStorage, hst.2]
  rfl

end Loading

/-! ### Calls with two to eight counters -/

section Calls

variable {e : MsrEnv} {avail : BitVec 8} {evtsels pmcs : Nat → BitVec 32} {st : FeatureState}
variable {cmask flags umask eventsel : BitVec 64} {pmcnum thread : Nat}

/-- The batches of both kinds are as their storage functions leave them. -/
structure PerfmonKept (t : Topology) (avail : BitVec 8) (evtsels pmcs : Nat → BitVec 32)
    (st : FeatureState) : Prop where
  ctrl : CountersKept t COUNTERS_CTRL avail evtsels st
  data : CountersKept t COUNTERS_DATA avail pmcs st

/-- Both batches are loaded, with one load for each counter. -/
structure PerfmonLoaded (t : Topology) (avail : BitVec 8) (evtsels pmcs : Nat → BitVec 32)
    (st : FeatureState) : Prop where
  ctrl : st.Loaded t COUNTERS_CTRL (counterLoads avail evtsels)
  data : st.Loaded t COUNTERS_DATA (counterLoads avail pmcs)

theorem PerfmonLoaded.kept (h : PerfmonLoaded e.topo avail evtsels pmcs st) :
    PerfmonKept e.topo avail evtsels pmcs st := ⟨.inr h.ctrl, .inr h.data⟩

/-- The two batches have different numbers. -/
theorem data_ne_ctrl : COUNTERS_DATA ≠ COUNTERS_CTRL := by decide

/-- A counter number that the switch knows. -/
theorem setPmcCtrlFlags_eq {st₁ : FeatureState} (hpmc : 1 ≤ pmcnum ∧ pmcnum ≤ 8)
    (hstore : counterStorage e.topo COUNTERS_CTRL avail evtsels st = some st₁) :
    setPmcCtrlFlags e avail evtsels cmask flags umask eventsel pmcnum thread st
      = st₁.poke COUNTERS_CTRL (counterTable avail (pmcnum - 1)) thread
          (cmask <<< 24 ||| flags <<< 16 ||| umask <<< 8 ||| eventsel) := by
  rw [setPmcCtrlFlags, perfevtselStorage_eq, hstore]
  exact if_pos hpmc

/-- **Programming one counter of one thread.** -/
theorem setPmcCtrlFlags_kept (hst : PerfmonKept e.topo avail evtsels pmcs st)
    (hle : avail.toNat ≤ 8) (hfit : avail.toNat * e.topo.nthreads < 2 ^ 32)
    (hpmc : 1 ≤ pmcnum ∧ pmcnum ≤ avail.toNat) (hthread : thread < e.topo.nthreads) :
    ∃ st', setPmcCtrlFlags e avail evtsels cmask flags umask eventsel pmcnum thread st = some st' ∧
      PerfmonKept e.topo avail evtsels pmcs st' := by
  have hpos : 1 ≤ avail.toNat := hpmc.1.trans hpmc.2
  obtain ⟨st₁, hstore, hloaded, hsame₁⟩ :=
    counterStorage_loaded hst.ctrl (by decide) hpos fun _ => hfit
  have hk : pmcnum - 1 < avail.toNat := by omega
  obtain ⟨st₂, hpoke, hloaded₂, hsame₂⟩ :=
    hloaded.poke (counterLoads_getElem? hle hk) hthread
      (cmask <<< 24 ||| flags <<< 16 ||| umask <<< 8 ||| eventsel)
  refine ⟨st₂, ?_, .inr hloaded₂, hst.data.of_sameBut (hsame₁.trans hsame₂) data_ne_ctrl⟩
  rw [setPmcCtrlFlags_eq ⟨hpmc.1, hpmc.2.trans hle⟩ hstore, hpoke]

/-- **Programming a counter that is not there.** -/
theorem setPmcCtrlFlags_of_gt (hst : CountersKept e.topo COUNTERS_CTRL avail evtsels st)
    (hpos : 1 ≤ avail.toNat) (hfit : avail.toNat ≤ 8 → avail.toNat * e.topo.nthreads < 2 ^ 32)
    (hpmc : 1 ≤ pmcnum ∧ pmcnum ≤ 8) (hgt : avail.toNat < pmcnum ∨ 8 < avail.toNat) :
    setPmcCtrlFlags e avail evtsels cmask flags umask eventsel pmcnum thread st = none := by
  obtain ⟨st₁, hstore, ⟨ops, hloaded⟩, -⟩ := counterStorage_loaded hst (by decide) hpos hfit
  have hno : (counterLoads avail evtsels).length ≤ counterTable avail (pmcnum - 1) := by
    apply counterLoads_length_le
    omega
  rw [setPmcCtrlFlags_eq hpmc hstore]
  exact hloaded.poke_of_ge hno _

/-- Programming a counter of all threads. -/
theorem setAllPmcCtrl_kept (hst : PerfmonKept e.topo avail evtsels pmcs st)
    (hle : avail.toNat ≤ 8) (hfit : avail.toNat * e.topo.nthreads < 2 ^ 32)
    (hpmc : 1 ≤ pmcnum ∧ pmcnum ≤ avail.toNat) :
    ∃ st', setAllPmcCtrl e avail evtsels cmask flags umask eventsel pmcnum st = some st' ∧
      PerfmonKept e.topo avail evtsels pmcs st' := by
  apply Runs.exec_total (PerfmonKept e.topo avail evtsels pmcs) _ hst
  intro st i hi hst
  exact setPmcCtrlFlags_kept hst hle hfit hpmc (List.mem_range.mp hi)

/-- A counter without a table is stuck at the first thread. -/
theorem setAllPmcCtrl_stuck
    (h : setPmcCtrlFlags e avail evtsels cmask flags umask eventsel pmcnum 0 st = none) :
    setAllPmcCtrl e avail evtsels cmask flags umask eventsel pmcnum st = none := by
  obtain ⟨n, hn⟩ := Nat.exists_eq_succ_of_ne_zero e.topo.nthreads_pos.ne'
  rw [setAllPmcCtrl, hn, List.range_succ_eq_map, Runs.exec, h]
  rfl

/-- **Clearing the counters** keeps both batches loaded. -/
theorem clearAllPmc_loaded
    (hctrl : st.Loaded e.topo COUNTERS_CTRL (counterLoads avail evtsels))
    (hdata : CountersKept e.topo COUNTERS_DATA avail pmcs st)
    (hpos : 1 ≤ avail.toNat) (hle : avail.toNat ≤ 8)
    (hfit : avail.toNat * e.topo.nthreads < 2 ^ 32) :
    ∃ st', clearAllPmc e avail pmcs st = some st' ∧
      PerfmonLoaded e.topo avail evtsels pmcs st' := by
  obtain ⟨st₁, hstore, hloaded, hsame₁⟩ :=
    counterStorage_loaded hdata (by decide) hpos fun _ => hfit
  have hstart : PerfmonLoaded e.topo avail evtsels pmcs st₁ :=
    ⟨hctrl.of_sameBut hsame₁ data_ne_ctrl.symm, hloaded⟩
  -- each store keeps both batches
  obtain ⟨st₂, hexec, hinv⟩ : ∃ st₂, Runs.exec
      (fun st (p : Nat × Nat) => st.poke COUNTERS_DATA (counterTable avail p.2) p.1 0) st₁
      ((List.range e.topo.nthreads).flatMap fun i => (counters avail).map fun k => (i, k))
        = some st₂ ∧ PerfmonLoaded e.topo avail evtsels pmcs st₂ := by
    apply Runs.exec_total (PerfmonLoaded e.topo avail evtsels pmcs) _ hstart
    rintro st ⟨i, k⟩ hmem ⟨hctrl, hdata⟩
    obtain ⟨i', hi, hmap⟩ := List.mem_flatMap.mp hmem
    obtain ⟨k', hk, heq⟩ := List.mem_map.mp hmap
    obtain ⟨rfl, rfl⟩ := Prod.mk.inj heq
    rw [counters_of_le hle, List.mem_reverse] at hk
    obtain ⟨st', hpoke, hdata', hsame⟩ := hdata.poke
      (counterLoads_getElem? hle (List.mem_range.mp hk)) (List.mem_range.mp hi) 0
    exact ⟨st', hpoke, hctrl.of_sameBut hsame data_ne_ctrl.symm, hdata'⟩
  obtain ⟨err, st₃, hwrite, hdata₃, hsame₃⟩ :=
    hinv.data.write (by decide) (counterLoads_ne_nil hpos hle)
  refine ⟨st₃, ?_, hinv.ctrl.of_sameBut hsame₃ data_ne_ctrl.symm, hdata₃⟩
  rw [clearAllPmc, pmcStorage_eq, hstore]
  show (Runs.exec _ st₁ _).bind _ = _
  rw [hexec, Option.bind_some, hwrite]
  rfl

/-- **Enabling the counters** leaves both batches loaded, from any state that calls
leave. -/
theorem enablePmc_loaded (hst : PerfmonKept e.topo avail evtsels pmcs st)
    (hpos : 1 ≤ avail.toNat) (hle : avail.toNat ≤ 8)
    (hfit : avail.toNat * e.topo.nthreads < 2 ^ 32) :
    ∃ st', enablePmc e avail evtsels pmcs st = some (0, st') ∧
      PerfmonLoaded e.topo avail evtsels pmcs st' := by
  obtain ⟨st₁, hstore, hctrl, hsame₁⟩ :=
    counterStorage_loaded hst.ctrl (by decide) hpos fun _ => hfit
  obtain ⟨err, st₂, hwrite, hctrl₂, hsame₂⟩ :=
    hctrl.write (by decide) (counterLoads_ne_nil hpos hle)
  have hdata₂ := hst.data.of_sameBut (hsame₁.trans hsame₂) data_ne_ctrl
  obtain ⟨st₃, hclear, hloaded⟩ := clearAllPmc_loaded hctrl₂ hdata₂ hpos hle hfit
  have hne : ¬ avail = 0 := by
    rintro rfl
    exact absurd hpos (by decide)
  refine ⟨st₃, ?_, hloaded⟩
  rw [enablePmc, if_neg hne, perfevtselStorage_eq, hstore]
  show (st₁.write e COUNTERS_CTRL).bind _ = _
  rw [hwrite, Option.bind_some]
  show (clearAllPmc e avail pmcs st₂).bind _ = _
  rw [hclear]
  rfl

/-- **The first call, before it prints.** -/
theorem startPmc_loaded (hst : PerfmonKept e.topo avail evtsels pmcs st)
    (hge : 2 ≤ avail.toNat) (hle : avail.toNat ≤ 8)
    (hfit : avail.toNat * e.topo.nthreads < 2 ^ 32) :
    ∃ st', startPmc e avail evtsels pmcs st = some (0, st') ∧
      PerfmonLoaded e.topo avail evtsels pmcs st' := by
  have hpos : 1 ≤ avail.toNat := Nat.le_of_succ_le hge
  obtain ⟨st₁, hset₁, hkept₁⟩ := setAllPmcCtrl_kept hst hle hfit ⟨Nat.le_refl 1, hpos⟩
  obtain ⟨st₂, hset₂, hkept₂⟩ := setAllPmcCtrl_kept hkept₁ hle hfit ⟨Nat.le_succ 1, hge⟩
  obtain ⟨st₃, henable, hloaded₃⟩ := enablePmc_loaded hkept₂ hpos hle hfit
  obtain ⟨st₄, hstore, hdata₄, hsame₄⟩ :=
    counterStorage_loaded (.inr hloaded₃.data) (by decide) hpos fun _ => hfit
  refine ⟨st₄, ?_, hloaded₃.ctrl.of_sameBut hsame₄ data_ne_ctrl.symm, hdata₄⟩
  rw [startPmc, hset₁]
  show (setAllPmcCtrl e avail evtsels _ _ _ _ 2 st₁).bind _ = _
  rw [hset₂, Option.bind_some, henable]
  show (pmcStorage e.topo avail pmcs st₃).bind _ = _
  rw [pmcStorage_eq, hstore]
  rfl

/-- **A call of `print_perfmon_counter_data`**, the first or a later one. -/
theorem printPerfmon_loaded {started : Bool} (hge : 2 ≤ avail.toNat) (hle : avail.toNat ≤ 8)
    (hfit : avail.toNat * e.topo.nthreads < 2 ^ 32)
    (hst : PerfmonKept e.topo avail evtsels pmcs st)
    (hstarted : started = true → PerfmonLoaded e.topo avail evtsels pmcs st) :
    ∃ rows st', printPerfmonCounterData e avail evtsels pmcs started st = some (rows, st') ∧
      PerfmonLoaded e.topo avail evtsels pmcs st' := by
  have hpos : 1 ≤ avail.toNat := Nat.le_of_succ_le hge
  obtain ⟨st₁, hfirst, hloaded⟩ : ∃ st₁,
      startPmcOnce e avail evtsels pmcs started st = some st₁ ∧
        PerfmonLoaded e.topo avail evtsels pmcs st₁ := by
    cases started with
    | true => exact ⟨st, rfl, hstarted rfl⟩
    | false =>
        obtain ⟨st₁, hrun, hloaded⟩ := startPmc_loaded hst hge hle hfit
        exact ⟨st₁, congrArg (Option.map _) hrun, hloaded⟩
  obtain ⟨err, st₂, hread, hdata₂, hsame₂⟩ :=
    hloaded.data.read (by decide) (counterLoads_ne_nil hpos hle)
  -- every table that a row reads has been filled
  have hrow : ∀ i ∈ List.range e.topo.nthreads, (printPmcRow avail st₂ i).isSome := by
    intro i hi
    have hcounts : ∀ k ∈ (counters avail).reverse,
        (st₂.peek COUNTERS_DATA (counterTable avail k) i).isSome := by
      intro k hk
      rw [counters_of_le hle, List.reverse_reverse] at hk
      obtain ⟨v, hv⟩ := hdata₂.peek (counterLoads_getElem? hle (List.mem_range.mp hk))
        (List.mem_range.mp hi)
      rw [hv]
      rfl
    obtain ⟨counts, hrun, -⟩ := mapM_isSome hcounts
    rw [printPmcRow, hrun]
    rfl
  obtain ⟨rows, hrows, -⟩ := mapM_isSome hrow
  have hsome : counters avail ≠ [] := counters_ne_nil hpos hle
  refine ⟨rows, st₂, ?_, hloaded.ctrl.of_sameBut hsame₂ data_ne_ctrl.symm, hdata₂⟩
  rw [printPerfmonCounterData, hfirst]
  show (st₁.read e COUNTERS_DATA).bind _ = _
  rw [hread, Option.bind_some]
  refine (if_neg hsome).trans ?_
  rw [hrows]
  rfl

end Calls

/-! ### The other batches -/

section Frame

open FeatureState

variable {e : MsrEnv} {t : Topology} {avail : BitVec 8} {evtsels pmcs msrs : Nat → BitVec 32}
variable {b : Nat} {st st' : FeatureState}

theorem counterStorage_sameBut (h : counterStorage t b avail msrs st = some st') :
    st.SameBut b st' := by
  rw [counterStorage] at h
  cases hvals : st.tables b with
  | some vals =>
      rw [hvals] at h
      obtain rfl := Option.some.inj h
      exact .refl b st
  | none =>
      rw [hvals] at h
      obtain ⟨⟨ret, st₁⟩, hinit, rfl⟩ := Option.map_eq_some_iff.mp h
      rw [initCounters] at hinit
      split at hinit
      · obtain ⟨-, rfl⟩ := Prod.mk.inj (Option.some.inj hinit)
        exact ⟨fun _ _ => rfl, fun b' hb' => Function.update_of_ne hb' _ _⟩
      · obtain ⟨st₂, hrun, heq⟩ := Option.map_eq_some_iff.mp hinit
        obtain ⟨-, rfl⟩ := Prod.mk.inj heq
        exact (initBatch_sameBut hrun).1

theorem setPmcCtrlFlags_sameAt {cmask flags umask eventsel : BitVec 64} {pmcnum thread : Nat}
    (h : setPmcCtrlFlags e avail evtsels cmask flags umask eventsel pmcnum thread st = some st')
    (hctrl : b ≠ COUNTERS_CTRL) : st.SameAt b st' := by
  obtain ⟨st₁, hstore, h⟩ := Option.bind_eq_some_iff.mp h
  have hsame : st.SameAt b st₁ := (counterStorage_sameBut hstore).sameAt hctrl
  split at h
  · exact hsame.trans ((poke_sameBut h).1.sameAt hctrl)
  · obtain rfl := Option.some.inj h
    exact hsame

theorem setAllPmcCtrl_sameAt {cmask flags umask eventsel : BitVec 64} {pmcnum : Nat}
    (h : setAllPmcCtrl e avail evtsels cmask flags umask eventsel pmcnum st = some st')
    (hctrl : b ≠ COUNTERS_CTRL) : st.SameAt b st' := by
  apply Runs.exec_inv (st.SameAt b) _ (.refl b st) h
  intro st₁ i st₂ hsame hstep
  exact hsame.trans (setPmcCtrlFlags_sameAt hstep hctrl)

theorem clearAllPmc_sameAt (h : clearAllPmc e avail pmcs st = some st')
    (hdata : b ≠ COUNTERS_DATA) : st.SameAt b st' := by
  obtain ⟨st₁, hstore, h⟩ := Option.bind_eq_some_iff.mp h
  obtain ⟨st₂, hexec, h⟩ := Option.bind_eq_some_iff.mp h
  obtain ⟨⟨err, st₃⟩, hwrite, h⟩ := Option.bind_eq_some_iff.mp h
  obtain rfl := Option.some.inj h
  have hsame₁ : st.SameAt b st₁ := (counterStorage_sameBut hstore).sameAt hdata
  have hsame₂ : st₁.SameAt b st₂ := by
    apply Runs.exec_inv (st₁.SameAt b) _ (.refl b st₁) hexec
    intro s p s' hsame hstep
    exact hsame.trans ((poke_sameBut hstep).1.sameAt hdata)
  exact hsame₁.trans (hsame₂.trans ((write_sameBut hwrite).sameAt hdata))

theorem enablePmc_sameAt {ret : Int} (h : enablePmc e avail evtsels pmcs st = some (ret, st'))
    (hctrl : b ≠ COUNTERS_CTRL) (hdata : b ≠ COUNTERS_DATA) : st.SameAt b st' := by
  rw [enablePmc] at h
  split at h
  · obtain ⟨-, rfl⟩ := Prod.mk.inj (Option.some.inj h)
    exact .refl b st
  · obtain ⟨st₁, hstore, h⟩ := Option.bind_eq_some_iff.mp h
    obtain ⟨⟨err, st₂⟩, hwrite, h⟩ := Option.bind_eq_some_iff.mp h
    obtain ⟨st₃, hclear, h⟩ := Option.bind_eq_some_iff.mp h
    obtain ⟨-, rfl⟩ := Prod.mk.inj (Option.some.inj h)
    have hsame₁ : st.SameAt b st₁ := (counterStorage_sameBut hstore).sameAt hctrl
    exact hsame₁.trans (((write_sameBut hwrite).sameAt hctrl).trans
      (clearAllPmc_sameAt hclear hdata))

/-- **What printing the counts leaves alone.** -/
theorem printPerfmon_sameAt {started : Bool} {rows : List PmcRow}
    (h : printPerfmonCounterData e avail evtsels pmcs started st = some (rows, st'))
    (hctrl : b ≠ COUNTERS_CTRL) (hdata : b ≠ COUNTERS_DATA) : st.SameAt b st' := by
  obtain ⟨st₁, hfirst, h⟩ := Option.bind_eq_some_iff.mp h
  obtain ⟨⟨err, st₂⟩, hread, h⟩ := Option.bind_eq_some_iff.mp h
  -- starting the counters touches their two batches alone, whether it has to be done or not
  have hsame₁ : st.SameAt b st₁ := by
    rw [startPmcOnce] at hfirst
    split at hfirst
    · obtain rfl := Option.some.inj hfirst
      exact .refl b st
    · obtain ⟨⟨ret, st₃⟩, hstart, rfl⟩ := Option.map_eq_some_iff.mp hfirst
      obtain ⟨s₁, hset₁, hstart⟩ := Option.bind_eq_some_iff.mp hstart
      obtain ⟨s₂, hset₂, hstart⟩ := Option.bind_eq_some_iff.mp hstart
      obtain ⟨⟨ret', s₃⟩, henable, hstart⟩ := Option.bind_eq_some_iff.mp hstart
      obtain ⟨s₄, hstore, hstart⟩ := Option.bind_eq_some_iff.mp hstart
      obtain ⟨-, rfl⟩ := Prod.mk.inj (Option.some.inj hstart)
      have hset : st.SameAt b s₂ :=
        (setAllPmcCtrl_sameAt hset₁ hctrl).trans (setAllPmcCtrl_sameAt hset₂ hctrl)
      exact hset.trans ((enablePmc_sameAt henable hctrl hdata).trans
        ((counterStorage_sameBut hstore).sameAt hdata))
  have hsame₂ : st.SameAt b st₂ := hsame₁.trans ((read_sameBut hread).sameAt hdata)
  dsimp only at h
  split at h
  · obtain ⟨-, rfl⟩ := Prod.mk.inj (Option.some.inj h)
    exact hsame₂
  · obtain ⟨rows', -, h⟩ := Option.bind_eq_some_iff.mp h
    obtain ⟨-, rfl⟩ := Prod.mk.inj (Option.some.inj h)
    exact hsame₂

end Frame

/-! ### Exactly when -/

section Exactly

variable {e : MsrEnv} {avail : BitVec 8} {evtsels pmcs : Nat → BitVec 32} {st : FeatureState}

/-- **The first call otherwise.**  It stops at the first counter if there are no tables
or no room, and at the second if there is only one. -/
theorem startPmc_stuck (hctrl : st.Unused COUNTERS_CTRL) (hdata : st.Unused COUNTERS_DATA)
    (h : ¬ (2 ≤ avail.toNat ∧ avail.toNat ≤ 8 ∧ avail.toNat * e.topo.nthreads < 2 ^ 32)) :
    startPmc e avail evtsels pmcs st = none := by
  -- a first counter that cannot be programmed ends the whole call
  have hfirst : ∀ {st}, setAllPmcCtrl e avail evtsels 0x0 0x67 0x00 0xC4 1 st = none →
      startPmc e avail evtsels pmcs st = none := by
    intro st hnone
    rw [startPmc, hnone]
    rfl
  rcases Nat.eq_zero_or_pos avail.toNat with hzero | hpos
  -- no counter at all: there is no table to program
  · obtain rfl : avail = 0 := BitVec.eq_of_toNat_eq hzero
    apply hfirst
    apply setAllPmcCtrl_stuck
    rw [setPmcCtrlFlags_eq (by decide) (counterStorage_zero hctrl)]
    have htables : Function.update st.tables COUNTERS_CTRL (some []) COUNTERS_CTRL = some [] :=
      Function.update_self _ _ _
    have hno : ([] : List DestTable)[counterTable 0 (1 - 1)]? = none := rfl
    exact FeatureState.poke_of_no_table htables hno _
  · by_cases hle : avail.toNat ≤ 8
    · by_cases hfit : avail.toNat * e.topo.nthreads < 2 ^ 32
      · -- a single counter: programming the second one fails
        have hone : avail.toNat < 2 := by omega
        obtain ⟨st₁, hset, hkept⟩ :=
          setAllPmcCtrl_kept (⟨.inl hctrl, .inl hdata⟩ : PerfmonKept e.topo avail evtsels pmcs st)
            hle hfit ⟨Nat.le_refl 1, hpos⟩
        rw [startPmc, hset]
        show (setAllPmcCtrl e avail evtsels _ _ _ _ 2 st₁).bind _ = _
        rw [setAllPmcCtrl_stuck (setPmcCtrlFlags_of_gt hkept.ctrl hpos (fun _ => hfit) (by decide)
          (.inl hone))]
        rfl
      · -- the batch has the room of the wrapped product
        apply hfirst
        apply setAllPmcCtrl_stuck
        rw [setPmcCtrlFlags, perfevtselStorage_eq,
          counterStorage_of_gt hctrl (by decide) hpos hle (Nat.not_lt.mp hfit)]
        rfl
    · -- more than eight counters have no tables
      apply hfirst
      apply setAllPmcCtrl_stuck
      exact setPmcCtrlFlags_of_gt (.inl hctrl) hpos (fun h => absurd h hle) (by decide)
        (.inr (Nat.not_le.mp hle))

/-- A run that fails at its first call. -/
theorem not_pmcSafe_of {t : Topology}
    (h : ¬ (2 ≤ avail.toNat ∧ avail.toNat ≤ 8 ∧ avail.toNat * t.nthreads < 2 ^ 32)) :
    ¬ PmcSafe t avail := by
  intro hsafe
  let e : MsrEnv := ⟨t, ⟨fun _ _ => false⟩, true⟩
  have hunused : ∀ b, (FeatureState.start.found fun _ _ => 0).Unused b := fun _ => ⟨rfl, rfl⟩
  have hstuck : startPmc e avail (fun _ => 0) (fun _ => 0) (FeatureState.start.found fun _ _ => 0)
      = none := startPmc_stuck (hunused _) (hunused _) h
  obtain ⟨s', hexec⟩ := hsafe.runs e rfl (fun _ => 0) (fun _ => 0) .start ⟨rfl, rfl⟩ ⟨rfl, rfl⟩
    [fun _ _ => 0]
  obtain ⟨s₁, hprint, -⟩ := Option.bind_eq_some_iff.mp hexec
  obtain ⟨⟨rows, st'⟩, hrun, -⟩ := Option.map_eq_some_iff.mp hprint
  obtain ⟨st₁, hstart, -⟩ := Option.bind_eq_some_iff.mp hrun
  rw [startPmcOnce, if_neg Bool.false_ne_true, hstuck] at hstart
  cases hstart

/-- **The pointers of the counters, exactly.**  However often the counters are printed,
no call looks through a table that is not there, and without tables the first one
reports an error, exactly where there are two to eight counters and their number times
that of the threads fits 32 bits. -/
theorem pmcSafe_iff (t : Topology) (avail : BitVec 8) :
    PmcSafe t avail ↔
      2 ≤ avail.toNat ∧ avail.toNat ≤ 8 ∧ avail.toNat * t.nthreads < 2 ^ 32 := by
  constructor
  · intro hsafe
    by_contra h
    exact not_pmcSafe_of h hsafe
  · rintro ⟨hge, hle, hfit⟩
    refine ⟨?_, fun hnone => ?_⟩
    · rintro e rfl evtsels pmcs st hdata hctrl contents
      -- between calls both batches are kept, and loaded after the first
      have hstep : ∀ s : PerfmonState, ∀ found ∈ contents,
          (PerfmonKept e.topo avail evtsels pmcs s.kept ∧
            (s.started = true → PerfmonLoaded e.topo avail evtsels pmcs s.kept)) →
          ∃ s', s.print e avail evtsels pmcs found = some s' ∧
            PerfmonKept e.topo avail evtsels pmcs s'.kept ∧
            (s'.started = true → PerfmonLoaded e.topo avail evtsels pmcs s'.kept) := by
        rintro s found - ⟨hkept, hstarted⟩
        have hkept' : PerfmonKept e.topo avail evtsels pmcs (s.kept.found found) :=
          ⟨hkept.ctrl.imp id (·.found found), hkept.data.imp id (·.found found)⟩
        obtain ⟨rows, st', hrun, hloaded⟩ := printPerfmon_loaded hge hle hfit hkept'
          fun h => ⟨(hstarted h).ctrl.found found, (hstarted h).data.found found⟩
        refine ⟨⟨true, st'⟩, ?_, hloaded.kept, fun _ => hloaded⟩
        rw [PerfmonState.print, hrun]
        rfl
      have hstart : PerfmonKept e.topo avail evtsels pmcs st := ⟨.inl hctrl, .inl hdata⟩
      obtain ⟨s', hexec, -⟩ := Runs.exec_total _ hstep
        (show _ ∧ ((PerfmonState.mk false st).started = true → _) from ⟨hstart, nofun⟩)
      exact ⟨s', hexec⟩
    · exact absurd hnone (counters_ne_nil (Nat.le_of_succ_le hge) hle)

/-- On a node whose CPUID reports one counter, the second is programmed nevertheless. -/
theorem not_pmcSafe_one : ¬ PmcSafe twoSockets 1 :=
  not_pmcSafe_of (by decide)

end Exactly

end Variorum
