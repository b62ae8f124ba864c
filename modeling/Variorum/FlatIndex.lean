/-
Variorum/FlatIndex.lean

The flattening of coordinates and the arrays indexed with it: what
`print_clocks_data` and `print_therm_temp_reading` print for a coordinate.

`devidx` is a bijection between the coordinates of a node and its CPUs as long
as its products fit (`devidx_bijOn`).  The clock and the thermal code flatten
coordinates by hand (`flatIdx`), to the same number, and look up tables that the
loaders of batches filled on an earlier call.

Each of these batches is kept in static variables by the function that loads
it, and named by its number here (`FeatureState.tables`).  `Ready` says of the
state between calls that every batch is either untouched or loaded as its
function loads it; every call keeps it so (`FeatureCall.run_ready`), and prints
the registers that the batch entries name.  Those are the CPUs of the
coordinates on nodes of up to 65536 hardware threads (`flattening_iff`).
-/
import Variorum.Bits
import Variorum.KeptBatch
import Variorum.Runs

namespace Variorum

open History

/-! ### The index by hand -/

/-- `idx` of the clock and thermal functions, in `unsigned` arithmetic. -/
def flatIdx (t : Topology) (i j k : BitVec 32) : BitVec 32 :=
  let nsockets := BitVec.ofNat 32 t.nsockets
  let ncores := BitVec.ofNat 32 t.ncores
  (k * nsockets * (ncores / nsockets)) + (i * (ncores / nsockets)) + j

/-! ### Registers and batch numbers -/

/-- The MSR addresses an architecture passes to the functions below. -/
structure FeatureMsrs where
  aperf : BitVec 32
  mperf : BitVec 32
  tsc : BitVec 32
  perfStatus : BitVec 32
  platformInfo : BitVec 32
  thermStat : BitVec 32
  pkgThermStat : BitVec 32
  tempTarget : BitVec 32

/-- The members of `enum variorum_data_type_e` used below. -/
def CLOCKS_DATA : Nat := 6
def PERF_DATA : Nat := 7
def THERM_STAT : Nat := 8
def PKG_THERM_STAT : Nat := 10
def TEMP_TARGET : Nat := 12
def PLATFORM_INFO : Nat := 29

/-! ### Clocks -/

/-- `get_max_non_turbo_ratio`: its return value and `*val`. -/
def getMaxNonTurboRatio (e : MsrEnv) (msrs : FeatureMsrs) (st : FeatureState) :
    Option (Int × Int × FeatureState) := do
  let st ← initBatch e.topo PLATFORM_INFO e.topo.nsockets [.socket msrs.platformInfo] st
  let (err, st) ← st.read e PLATFORM_INFO
  if err ≠ 0 then return (-1, 0, st)
  let raw ← st.peek PLATFORM_INFO 0 0
  let maxNonTurboRatio : Int := (maskVal raw 15 8).toNat
  if e.topo.nsockets ≠ 1 then
    let raw ← st.peek PLATFORM_INFO 0 1
    if maxNonTurboRatio ≠ (maskVal raw 15 8).toNat then
      return (VariorumError.inval.code, 0, st)
    return (0, maxNonTurboRatio * 100, st)
  return (0, maxNonTurboRatio * 100, st)

/-- The control domains that `print_clocks_data` tells apart. -/
inductive CtlDomain
  | socket
  | core
  | other

/-- What a line is about: a socket, or a hardware thread with its `idx`. -/
inductive ClocksPlace
  | socket (i : Nat)
  | core (i j k : Nat) (idx : Int)
  deriving DecidableEq

/-- The numbers of a line.  The average frequency is a quotient by MPERF. -/
structure ClocksRow where
  place : ClocksPlace
  aperf : BitVec 64
  mperf : BitVec 64
  tsc : BitVec 64
  currFreq : BitVec 64
  avgFreq : Option ℚ

/-- The line from its readings. -/
def clocksRow (maxNonTurboRatio : Int) (place : ClocksPlace)
    (aperf mperf tsc perfStatus : BitVec 64) : ClocksRow where
  place := place
  aperf := aperf
  mperf := mperf
  tsc := tsc
  currFreq := maskVal perfStatus 15 8 * 100
  avgFreq :=
    if mperf = 0 then none else some (maxNonTurboRatio * ((aperf.toNat : ℚ) / mperf.toNat))

/-- The body of the loops of `print_clocks_data`. -/
def printClocksRow (st : FeatureState) (maxNonTurboRatio : Int) (i : Nat) (idx : Int)
    (place : ClocksPlace) : Option ClocksRow := do
  let aperf ← st.peek CLOCKS_DATA 0 idx
  let mperf ← st.peek CLOCKS_DATA 1 idx
  let tsc ← st.peek CLOCKS_DATA 2 idx
  let perfStatus ← st.peek PERF_DATA 0 i
  return clocksRow maxNonTurboRatio place aperf mperf tsc perfStatus

/-- The coordinates of the node in the order of the nested loops. -/
def coords (t : Topology) : List (Nat × Nat × Nat) :=
  (List.range t.nsockets).flatMap fun i =>
    (List.range (t.ncores / t.nsockets)).flatMap fun j =>
      (List.range (t.nthreads / t.ncores)).map fun k => (i, j, k)

/-- `idx` is an `int` here. -/
def clocksIdx (t : Topology) (i j k : Nat) : Int :=
  (flatIdx t (BitVec.ofNat 32 i) (BitVec.ofNat 32 j) (BitVec.ofNat 32 k)).toInt

/-- `print_clocks_data`: its return value and the lines below the header. -/
def printClocksData (e : MsrEnv) (msrs : FeatureMsrs) (domain : CtlDomain) (st : FeatureState) :
    Option (Int × List ClocksRow × FeatureState) := do
  let (err, ratio, st) ← getMaxNonTurboRatio e msrs st
  if err ≠ 0 then return (-1, [], st)
  let st ← initBatch e.topo CLOCKS_DATA (3 * e.topo.nthreads)
    [.thread msrs.aperf, .thread msrs.mperf, .thread msrs.tsc] st
  let st ← initBatch e.topo PERF_DATA (2 * e.topo.nsockets) [.socket msrs.perfStatus] st
  let (_, st) ← st.read e CLOCKS_DATA
  let (_, st) ← st.read e PERF_DATA
  match domain with
  | .socket =>
      -- the loops over `j` and `k` advance by their own bounds
      let rows ← (List.range e.topo.nsockets).mapM fun i =>
        printClocksRow st ratio i (clocksIdx e.topo i 0 0) (.socket i)
      return (0, rows, st)
  | .core =>
      let rows ← (coords e.topo).mapM fun (i, j, k) =>
        printClocksRow st ratio i (clocksIdx e.topo i j k)
          (.core i j k (clocksIdx e.topo i j k))
      return (0, rows, st)
  | .other => return (0, [], st)

/-! ### Temperatures -/

/-- `get_temp_target`, `get_therm_stat` and `get_pkg_therm_stat`, as far as the
raw values of `n` entries. -/
def getRaw (e : MsrEnv) (batchnum n : Nat) (load : BatchLoad) (st : FeatureState) :
    Option (List (BitVec 64) × FeatureState) := do
  let st ← initBatch e.topo batchnum n [load] st
  let (_, st) ← st.read e batchnum
  let raw ← (List.range n).mapM fun i : Nat => st.peek batchnum 0 i
  return (raw, st)

/-- `get_temp_target`: the registers of the sockets, through the batch that it keeps. -/
def getTempTarget (e : MsrEnv) (msrs : FeatureMsrs) :=
  getRaw e TEMP_TARGET e.topo.nsockets (.socket msrs.tempTarget)

/-- `get_therm_stat`: the registers of the threads, through the batch that it keeps. -/
def getThermStat (e : MsrEnv) (msrs : FeatureMsrs) :=
  getRaw e THERM_STAT e.topo.nthreads (.thread msrs.thermStat)

/-- `get_pkg_therm_stat`: the registers of the packages, through the batch that it
keeps. -/
def getPkgThermStat (e : MsrEnv) (msrs : FeatureMsrs) :=
  getRaw e PKG_THERM_STAT e.topo.nsockets (.socket msrs.pkgThermStat)

/-- The numbers of a line of `print_therm_temp_reading`. -/
structure ThermalRow where
  socket : Nat
  core : Nat
  idx : Nat
  tcc : Int
  pkgReading : Int
  pkgActual : Int
  threadReading : Int
  threadActual : Int
  readoutValid : Int
  deriving DecidableEq

/-- The line from its readings: the fields of the raw values. -/
def thermalRow (i j idx : Nat) (tTarget pkgStat tStat : BitVec 64) : ThermalRow :=
  let tempTarget : Int := (maskVal tTarget 23 16).toNat
  let pkgReadout : Int := (maskVal pkgStat 22 16).toNat
  let readout : Int := (maskVal tStat 22 16).toNat
  { socket := i, core := j, idx := idx
    tcc := tempTarget
    pkgReading := pkgReadout
    pkgActual := tempTarget - pkgReadout
    threadReading := readout
    threadActual := tempTarget - readout
    readoutValid := (maskVal tStat 31 31).toNat }

/-- The index of a thread in the thermal code, where `idx` is `unsigned`. -/
def thermalIdx (t : Topology) (i j k : Nat) : Nat :=
  (flatIdx t (BitVec.ofNat 32 i) (BitVec.ofNat 32 j) (BitVec.ofNat 32 k)).toNat

/-- The body of the loops of `print_therm_temp_reading`. -/
def printThermRow (t : Topology) (tTarget pkgStat tStat : List (BitVec 64)) (i j k : Nat) :
    Option ThermalRow := do
  let idx := thermalIdx t i j k
  return thermalRow i j idx (← tTarget[i]?) (← pkgStat[i]?) (← tStat[idx]?)

/-- `print_therm_temp_reading`: the lines below the header.  It returns 0. -/
def printThermTempReading (e : MsrEnv) (msrs : FeatureMsrs) (st : FeatureState) :
    Option (List ThermalRow × FeatureState) := do
  let (pkgStat, st) ← getPkgThermStat e msrs st
  let (tTarget, st) ← getTempTarget e msrs st
  let (tStat, st) ← getThermStat e msrs st
  let rows ← (coords e.topo).mapM fun (i, j, k) =>
    printThermRow e.topo tTarget pkgStat tStat i j k
  return (rows, st)

/-! ### The flattening -/

section Flattening

variable {t : Topology}

/-- Below the sizes of a topology, words count as numbers do. -/
theorem flatIdx_toNat {i j k : BitVec 32} (h : t.Valid i.toNat j.toNat k.toNat) :
    (flatIdx t i j k).toNat = t.cpu i.toNat j.toNat k.toNat := by
  have hc := t.ncores_le
  have hs := t.nsockets_le
  have ht := t.nthreads_lt
  have hcpu := h.cpu_lt
  have hns : t.nsockets % 2 ^ 32 = t.nsockets := Nat.mod_eq_of_lt (by omega)
  have hnc : t.ncores % 2 ^ 32 = t.ncores := Nat.mod_eq_of_lt (by omega)
  have hmul : k.toNat * t.nsockets * (t.ncores / t.nsockets) = k.toNat * t.ncores := by
    rw [Nat.mul_assoc, Nat.mul_div_cancel' t.nsockets_dvd]
  simp only [flatIdx, BitVec.toNat_add, BitVec.toNat_mul, BitVec.toNat_udiv, BitVec.toNat_ofNat,
    hns, hnc, Nat.mod_mul_mod, Nat.mod_add_mod, Nat.add_mod_mod, hmul]
  exact Nat.mod_eq_of_lt (hcpu.trans (ht.trans (by decide)))

/-- Of a coordinate given by numbers. -/
theorem flatIdx_ofNat {i j k : Nat} (h : t.Valid i j k) :
    (flatIdx t (BitVec.ofNat 32 i) (BitVec.ofNat 32 j) (BitVec.ofNat 32 k)).toNat
      = t.cpu i j k := by
  obtain ⟨hi, hj, hk⟩ := h.toWords
  have hv : t.Valid (BitVec.ofNat 32 i).toNat (BitVec.ofNat 32 j).toNat
      (BitVec.ofNat 32 k).toNat := by rwa [hi, hj, hk]
  rw [flatIdx_toNat hv, hi, hj, hk]

theorem clocksIdx_eq {i j k : Nat} (h : t.Valid i j k) : clocksIdx t i j k = t.cpu i j k := by
  have hidx := flatIdx_ofNat h
  have hlt := h.cpu_lt
  have ht := t.nthreads_lt
  rw [clocksIdx, BitVec.toInt_eq_toNat_of_lt (by omega), hidx]

theorem thermalIdx_eq {i j k : Nat} (h : t.Valid i j k) : thermalIdx t i j k = t.cpu i j k :=
  flatIdx_ofNat h

/-- Where the last socket fits, so does every one. -/
theorem devidx_of_last_fits (hfit : (t.nsockets - 1) * t.ncores < 2 ^ 32) {i j k : BitVec 32}
    (h : t.Valid i.toNat j.toNat k.toNat) :
    (devidx t i j k).toNat = t.cpu i.toNat j.toNat k.toNat := by
  have hi : i.toNat ≤ t.nsockets - 1 := Nat.le_sub_one_of_lt h.1
  rw [devidx_toNat, flatIndex_of_valid t i j k h ((Nat.mul_le_mul_right _ hi).trans_lt hfit)]

/-- **`devidx` is a bijection** between the coordinates and the CPUs of a node
whose products fit. -/
theorem devidx_bijOn (hfit : (t.nsockets - 1) * t.ncores < 2 ^ 32) :
    Set.BijOn (fun c : BitVec 32 × BitVec 32 × BitVec 32 => (devidx t c.1 c.2.1 c.2.2).toNat)
      {c | t.Valid c.1.toNat c.2.1.toNat c.2.2.toNat} (Set.Iio t.nthreads) := by
  refine ⟨?_, ?_, ?_⟩
  · rintro ⟨i, j, k⟩ h
    show (devidx t i j k).toNat < t.nthreads
    rw [devidx_of_last_fits hfit h]
    exact Topology.Valid.cpu_lt h
  · rintro ⟨i, j, k⟩ h ⟨i', j', k'⟩ h' heq
    have hcpu : (devidx t i j k).toNat = (devidx t i' j' k').toNat := heq
    rw [devidx_of_last_fits hfit h, devidx_of_last_fits hfit h'] at hcpu
    obtain ⟨hi, hj, hk⟩ := Topology.Valid.cpu_inj h h' hcpu
    exact Prod.ext (BitVec.eq_of_toNat_eq hi)
      (Prod.ext (BitVec.eq_of_toNat_eq hj) (BitVec.eq_of_toNat_eq hk))
  · intro c hc
    obtain ⟨i, j, k, hv, rfl⟩ := Topology.exists_cpu (t := t) hc
    obtain ⟨hi, hj, hk⟩ := hv.toWords
    have hv' : t.Valid (BitVec.ofNat 32 i).toNat (BitVec.ofNat 32 j).toNat
        (BitVec.ofNat 32 k).toNat := by rwa [hi, hj, hk]
    refine ⟨(BitVec.ofNat 32 i, BitVec.ofNat 32 j, BitVec.ofNat 32 k), hv', ?_⟩
    show (devidx t _ _ _).toNat = _
    rw [devidx_of_last_fits hfit hv', hi, hj, hk]

/-- **The index by hand is the same number** there. -/
theorem flatIdx_eq_devidx (hfit : (t.nsockets - 1) * t.ncores < 2 ^ 32) {i j k : BitVec 32}
    (h : t.Valid i.toNat j.toNat k.toNat) :
    (flatIdx t i j k).toNat = (devidx t i j k).toNat := by
  rw [flatIdx_toNat h, devidx_of_last_fits hfit h]

theorem mem_coords {i j k : Nat} : (i, j, k) ∈ coords t ↔ t.Valid i j k := by
  unfold coords Topology.Valid Topology.coresPerSocket Topology.threadsPerCore
  simp only [List.mem_flatMap, List.mem_map, List.mem_range, Prod.mk.injEq]
  constructor
  · rintro ⟨i', hi, j', hj, k', hk, rfl, rfl, rfl⟩
    exact ⟨hi, hj, hk⟩
  · rintro ⟨hi, hj, hk⟩
    exact ⟨i, hi, j, hj, k, hk, rfl, rfl, rfl⟩

end Flattening

/-! ### The batches between calls -/

/-- What the function that keeps batch `b` loads into it. -/
def loadsOf (msrs : FeatureMsrs) (b : Nat) : List BatchLoad :=
  if b = CLOCKS_DATA then [.thread msrs.aperf, .thread msrs.mperf, .thread msrs.tsc]
  else if b = PERF_DATA then [.socket msrs.perfStatus]
  else if b = THERM_STAT then [.thread msrs.thermStat]
  else if b = PKG_THERM_STAT then [.socket msrs.pkgThermStat]
  else if b = TEMP_TARGET then [.socket msrs.tempTarget]
  else if b = PLATFORM_INFO then [.socket msrs.platformInfo]
  else []

/-- Every batch is untouched or as its function loads it. -/
def FeatureState.Ready (t : Topology) (msrs : FeatureMsrs) (st : FeatureState) : Prop :=
  ∀ b, BatchReady t (st.msr.store.slot b) (loadsOf msrs b) (st.tables b)

/-- From `st` to `st'` registers were read and nothing else happened to them,
and the batches are as they should be. -/
structure Advances (t : Topology) (msrs : FeatureMsrs) (st st' : FeatureState) : Prop where
  ready : st'.Ready t msrs
  contents : st'.msr.machine.msr = st.msr.machine.msr
  grows : st.msr.machine.log <+: st'.msr.machine.log

/-- The registers as batches see them: CPUs by the 16 bits of a `cpu` field. -/
def narrowed (contents : Nat → Nat → BitVec 64) : Nat → Nat → BitVec 64 :=
  fun cpu => contents (cpu % 2 ^ 16)

section Ready

variable {e : MsrEnv} {t : Topology} {msrs : FeatureMsrs} {st st' st'' : FeatureState}
variable {b bsize : Nat} {loads : List BatchLoad}

theorem FeatureState.ready_start (t : Topology) (msrs : FeatureMsrs) :
    FeatureState.start.Ready t msrs := fun _ => rfl

theorem Advances.refl (h : st.Ready t msrs) : Advances t msrs st st :=
  ⟨h, rfl, List.prefix_refl _⟩

theorem Advances.trans (h : Advances t msrs st st') (h' : Advances t msrs st' st'') :
    Advances t msrs st st'' :=
  ⟨h'.ready, h'.contents.trans h.contents, h.grows.trans h'.grows⟩

/-- Both halves of a run in which nothing was refused are clean. -/
theorem Advances.clean (h : Advances t msrs st st') (h' : Advances t msrs st' st'')
    {d : Driver} (hclean : st.msr.machine.Clean d st''.msr.machine) :
    st.msr.machine.Clean d st'.msr.machine ∧ st'.msr.machine.Clean d st''.msr.machine :=
  (clean_trans_iff h.grows h'.grows).mp hclean

/-- The `if (!init)` block leaves its batch loaded. -/
theorem initBatch_ready (b bsize : Nat) (loads : List BatchLoad) (hst : st.Ready t msrs)
    (hb : b + 1 < 2 ^ 31)
    (hloads : loadsOf msrs b = loads) (hne : loads ≠ [])
    (hroom : (loads.map fun load => load.count t).sum ≤ bsize % 2 ^ 32) :
    ∃ st', initBatch t b bsize loads st = some st' ∧ Advances t msrs st st' ∧
      st'.msr.machine = st.msr.machine ∧ (st'.tables b).isSome ∧
      ∀ b', (st.tables b').isSome → (st'.tables b').isSome := by
  cases htables : st.tables b with
  | some vals =>
      have hrun : initBatch t b bsize loads st = some st := by rw [initBatch, htables]
      refine ⟨st, hrun, .refl hst, rfl, ?_, fun _ h => h⟩
      rw [htables]
      rfl
  | none =>
      have hempty := hst b
      rw [htables] at hempty
      obtain ⟨s₁, hs₁, hslot₁⟩ := allocateBatch_of_lt (s := st.msr.store) hb bsize
      rw [← loadCount_fresh] at hroom
      obtain ⟨-, vals, s₂, hload, hlen, hslot₂, hpoints⟩ := loadAll_fresh hempty hs₁ hroom
      have hops : loadedOps t (loads.map fun load => (load, fun _ => none)) ≠ [] := by
        rw [← List.length_pos_iff, length_loadedOps, loadCount_fresh]
        obtain ⟨load, rest, rfl⟩ := List.exists_cons_of_ne_nil hne
        rw [List.map_cons, List.sum_cons]
        exact Nat.add_pos_left (load.count_pos t) _
      rw [List.map_map] at hpoints
      rw [List.length_map] at hlen
      have hrun : initBatch t b bsize loads st
          = some ⟨{ st.msr with store := s₂ }, Function.update st.tables b (some vals)⟩ := by
        rw [initBatch, htables]
        simp only [hs₁, Option.bind_some, hload, Option.map_some]
      refine ⟨_, hrun, ⟨?_, rfl, List.prefix_refl _⟩, rfl, ?_, ?_⟩
      -- the batch points where its tables do, and no other slot has been touched
      · intro b'
        show BatchReady t (s₂.slot b') _ (Function.update st.tables b (some vals) b')
        by_cases hb' : b' = b
        · subst hb'
          rw [Function.update_self, hloads]
          exact ⟨_, _, _, hslot₂, hops, loadedOps_uniform t _, hlen,
            by simpa [Function.comp_def] using hpoints⟩
        · have hslot : s₂.slot b' = st.msr.store.slot b' := by
            rw [loadAll_slot_of_ne hload hb', hslot₁, Function.update_of_ne hb']
          rw [Function.update_of_ne hb', hslot]
          exact hst b'
      · show (Function.update st.tables b (some vals) b).isSome
        rw [Function.update_self]
        rfl
      · intro b' h
        show (Function.update st.tables b (some vals) b').isSome
        by_cases hb' : b' = b
        · rw [hb', Function.update_self]
          rfl
        · rwa [Function.update_of_ne hb']

/-- The table that a load has filled. -/
theorem table_of_load {loads : List BatchLoad} {vals : List DestTable}
    (hlen : vals.length = loads.length) {n : Nat} {load : BatchLoad}
    (hload : loads[n]? = some load) :
    ∃ dest, vals[n]? = some dest ∧ (load, dest) ∈ loads.zip vals := by
  have hn : n < vals.length := hlen ▸ (List.getElem?_eq_some_iff.mp hload).1
  have hval : vals[n]? = some vals[n] := List.getElem?_eq_getElem hn
  exact ⟨vals[n], hval,
    List.mem_iff_getElem?.mpr ⟨n, List.getElem?_zip_eq_some.mpr ⟨hload, hval⟩⟩⟩

/-- An entry of a loaded batch's tables can be read. -/
theorem FeatureState.peek_isSome (hst : st.Ready t msrs) (hb : (st.tables b).isSome)
    {n : Nat} {load : BatchLoad} (hload : (loadsOf msrs b)[n]? = some load) {i : Nat}
    (hi : i < load.count t) : (st.peek b n i).isSome := by
  obtain ⟨vals, hvals⟩ := Option.isSome_iff_exists.mp hb
  have hready := hst b
  rw [hvals] at hready
  obtain ⟨addr, ops, room, hslot, -, -, hlen, hpoints⟩ := hready
  obtain ⟨dest, hval, hmem⟩ := table_of_load hlen hload
  obtain ⟨k, hentry, hget⟩ := hpoints _ hmem i hi
  have hptr : dest i = some (addr, k) := hentry
  have hk : k < ops.length := by
    have hlt := (List.getElem?_eq_some_iff.mp hget).1
    rwa [List.length_map] at hlt
  rw [peek_eq st hvals hval, hptr, Option.bind_some, deref_loaded hslot hk,
    List.getElem?_eq_getElem hk]
  rfl

/-- **A batch read between calls.**  It changes no other batch, and where nothing was
refused every entry of the batch's tables holds its register. -/
theorem FeatureState.read_ready (hst : st.Ready e.topo msrs) (hb : b + 1 < 2 ^ 31)
    (hloaded : (st.tables b).isSome) :
    ∃ err st', st.read e b = some (err, st') ∧ Advances e.topo msrs st st' ∧
      st'.tables = st.tables ∧ (∀ b' ≠ b, ∀ n i, st'.peek b' n i = st.peek b' n i) ∧
      (st.msr.machine.Clean e.driver st'.msr.machine →
        ∀ n load, (loadsOf msrs b)[n]? = some load → ∀ i : Nat, i < load.count e.topo →
          st'.peek b n i
            = some (narrowed st.msr.machine.msr (load.dev e.topo i) load.msr)) := by
  obtain ⟨vals, hvals⟩ := Option.isSome_iff_exists.mp hloaded
  have hready := hst b
  rw [hvals] at hready
  obtain ⟨addr, ops, room, hslot, hne, hu, hlen, hpoints⟩ := hready
  obtain ⟨err, msr', hread, hmachine, hslot'⟩ :=
    readBatch_loaded st.msr.machine st.msr.ioctls hb hne hslot hu
  -- one batch is replaced by what its operations read, the others stay
  have himage := readOps_image hu st.msr.machine
  have hself : msr'.store.slot b = .loaded addr (readOps e ops st.msr.machine).1 room := by
    rw [hslot', Function.update_self]
  have hother : ∀ b' ≠ b, msr'.store.slot b' = st.msr.store.slot b' := by
    intro b' hb'
    rw [hslot', Function.update_of_ne hb']
  have hrun : st.read e b = some (err, { st with msr := msr' }) := by
    unfold FeatureState.read
    rw [show readBatch e b st.msr = some (err, msr') from hread, Option.map_some]
  refine ⟨err, _, hrun, ⟨?_, ?_, ?_⟩, rfl, ?_, ?_⟩
  · intro b'
    show BatchReady e.topo (msr'.store.slot b') _ (st.tables b')
    by_cases hb' : b' = b
    · subst hb'
      rw [hvals, hself]
      have hops : (readOps e ops st.msr.machine).1 ≠ [] := by
        rw [← List.length_pos_iff, readOps_length hu, List.length_pos_iff]
        exact hne
      exact ⟨_, _, _, rfl, hops, readOps_uniform hu _, hlen,
        fun p hp => (hpoints p hp).of_register himage.register⟩
    · rw [hother b' hb']
      exact hst b'
  · show msr'.machine.msr = st.msr.machine.msr
    rw [hmachine, himage.machine]
  · show st.msr.machine.log <+: msr'.machine.log
    rw [hmachine, himage.machine]
    exact List.prefix_append _ _
  · intro b' hb' n i
    simp only [peek, deref, hother b' hb']
  -- the table points to the data, so what it finds is what was read
  · intro hclean n load hload i hi
    obtain ⟨dest, hval, hmem⟩ := table_of_load hlen hload
    have hclean' : st.msr.machine.Clean e.driver (readOps e ops st.msr.machine).2 := by
      rw [← hmachine]
      exact hclean
    have hfound := loaded_value hu hclean' hself (hpoints _ hmem) i hi
    have hpeek := peek_eq { st with msr := msr' } hvals hval i
    exact hpeek.trans hfound

end Ready

/-! ### What is printed -/

/-- What `print_therm_temp_reading` should print: for every coordinate the
registers of its own CPU, and of its socket. -/
def thermalRows (t : Topology) (msrs : FeatureMsrs) (contents : Nat → Nat → BitVec 64) :
    List ThermalRow :=
  (coords t).map fun (i, j, k) =>
    thermalRow i j (t.cpu i j k) (contents (t.cpu i 0 0) msrs.tempTarget.toNat)
      (contents (t.cpu i 0 0) msrs.pkgThermStat.toNat)
      (contents (t.cpu i j k) msrs.thermStat.toNat)

/-- What `print_clocks_data` should print, from the registers of the coordinates
themselves. -/
def clocksRows (t : Topology) (msrs : FeatureMsrs) (contents : Nat → Nat → BitVec 64) :
    CtlDomain → List ClocksRow :=
  let ratio : Int := (maskVal (contents (t.cpu 0 0 0) msrs.platformInfo.toNat) 15 8).toNat * 100
  let row (place : ClocksPlace) (i cpu : Nat) : ClocksRow :=
    clocksRow ratio place (contents cpu msrs.aperf.toNat) (contents cpu msrs.mperf.toNat)
      (contents cpu msrs.tsc.toNat) (contents (t.cpu i 0 0) msrs.perfStatus.toNat)
  fun
  | .socket => (List.range t.nsockets).map fun i => row (.socket i) i (t.cpu i 0 0)
  | .core => (coords t).map fun (i, j, k) => row (.core i j k (t.cpu i j k)) i (t.cpu i j k)
  | .other => []

section Printing

variable {e : MsrEnv} {msrs : FeatureMsrs} {st : FeatureState}

theorem BatchLoad.count_mod (t : Topology) (load : BatchLoad) :
    load.count t ≤ load.count t % 2 ^ 32 := by
  have hcount := load.count_le t
  have ht := t.nthreads_lt
  rw [Nat.mod_eq_of_lt (by omega)]

/-- The raw values of a batch of one load. -/
theorem getRaw_spec (b : Nat) (load : BatchLoad) (hst : st.Ready e.topo msrs) (hb : b + 1 < 2 ^ 31)
    (hloads : loadsOf msrs b = [load]) :
    ∃ raw st', getRaw e b (load.count e.topo) load st = some (raw, st') ∧
      Advances e.topo msrs st st' ∧ raw.length = load.count e.topo ∧
      (st.msr.machine.Clean e.driver st'.msr.machine → ∀ i < load.count e.topo,
        raw[i]? = some (narrowed st.msr.machine.msr (load.dev e.topo i) load.msr)) := by
  have hroom : ([load].map fun load => load.count e.topo).sum ≤ load.count e.topo % 2 ^ 32 := by
    simpa using load.count_mod e.topo
  obtain ⟨st₁, hinit, hadv₁, hmachine, hsome, -⟩ :=
    initBatch_ready b _ [load] hst hb hloads (List.cons_ne_nil _ _) hroom
  obtain ⟨err, st₂, hread, hadv₂, htables, -, hpeek⟩ :=
    FeatureState.read_ready hadv₁.ready hb hsome
  have hget : (loadsOf msrs b)[0]? = some load := by rw [hloads, List.getElem?_cons_zero]
  have hraws : ∀ i ∈ List.range (load.count e.topo), (st₂.peek b 0 i).isSome := by
    intro i hi
    exact FeatureState.peek_isSome hadv₂.ready (htables ▸ hsome) hget (List.mem_range.mp hi)
  obtain ⟨raw, hraw, hlen⟩ := mapM_isSome hraws
  rw [List.length_range] at hlen
  refine ⟨raw, st₂, ?_, hadv₁.trans hadv₂, hlen, ?_⟩
  · simp [getRaw, hinit, hread, hraw]
  · intro hclean i hi
    have hpeeks := hpeek (hadv₁.clean hadv₂ hclean).2 0 load hget
    have hmap := mapM_eq_map (l := List.range (load.count e.topo))
      fun i hi => hpeeks i (List.mem_range.mp hi)
    rw [hraw] at hmap
    rw [Option.some.inj hmap, List.getElem?_map, List.getElem?_range hi, hmachine]
    rfl

/-- A line is made of the entries of the three arrays. -/
theorem printThermRow_eq {t : Topology} {target pkg stat : List (BitVec 64)} {i j k : Nat}
    (hv : t.Valid i j k) (htarget : target.length = t.nsockets) (hpkg : pkg.length = t.nsockets)
    (hstat : stat.length = t.nthreads) :
    printThermRow t target pkg stat i j k
      = some (thermalRow i j (t.cpu i j k) (target.getD i 0) (pkg.getD i 0)
          (stat.getD (t.cpu i j k) 0)) := by
  have hget : ∀ {l : List (BitVec 64)} {n : Nat}, n < l.length → l[n]? = some (l.getD n 0) := by
    intro l n hn
    rw [List.getElem?_eq_getElem hn, List.getD_eq_getElem _ _ hn]
  have h₁ := hget (htarget ▸ hv.1 : i < target.length)
  have h₂ := hget (hpkg ▸ hv.1 : i < pkg.length)
  have h₃ := hget (hstat ▸ hv.cpu_lt : t.cpu i j k < stat.length)
  simp only [printThermRow, thermalIdx_eq hv, h₁, h₂, h₃]
  rfl

/-- **`print_therm_temp_reading`** from any state between calls. -/
theorem printThermTempReading_spec (hst : st.Ready e.topo msrs) :
    ∃ rows st', printThermTempReading e msrs st = some (rows, st') ∧
      Advances e.topo msrs st st' ∧
      (st.msr.machine.Clean e.driver st'.msr.machine →
        rows = thermalRows e.topo msrs (narrowed st.msr.machine.msr)) := by
  obtain ⟨pkg, st₁, hpkg, hadv₁, hpkglen, hpkgval⟩ :=
    getRaw_spec PKG_THERM_STAT (.socket msrs.pkgThermStat) hst (by decide) rfl
  obtain ⟨target, st₂, htarget, hadv₂, htargetlen, htargetval⟩ :=
    getRaw_spec TEMP_TARGET (.socket msrs.tempTarget) hadv₁.ready (by decide) rfl
  obtain ⟨stat, st₃, hstat, hadv₃, hstatlen, hstatval⟩ :=
    getRaw_spec THERM_STAT (.thread msrs.thermStat) hadv₂.ready (by decide) rfl
  have hpkg : getPkgThermStat e msrs st = some (pkg, st₁) := hpkg
  have htarget : getTempTarget e msrs st₁ = some (target, st₂) := htarget
  have hstat : getThermStat e msrs st₂ = some (stat, st₃) := hstat
  -- the row of a thread, from what the three batches gave back
  let line : Nat × Nat × Nat → ThermalRow := fun (i, j, k) =>
    thermalRow i j (e.topo.cpu i j k) (target.getD i 0) (pkg.getD i 0)
      (stat.getD (e.topo.cpu i j k) 0)
  have hline : ∀ c ∈ coords e.topo,
      printThermRow e.topo target pkg stat c.1 c.2.1 c.2.2 = some (line c) := by
    rintro ⟨i, j, k⟩ hc
    exact printThermRow_eq (mem_coords.mp hc) htargetlen hpkglen hstatlen
  have hrun : printThermTempReading e msrs st = some ((coords e.topo).map line, st₃) := by
    simp only [printThermTempReading, hpkg, htarget, hstat, Option.bind_eq_bind, Option.bind_some]
    rw [mapM_eq_map hline]
    rfl
  refine ⟨_, st₃, hrun, (hadv₁.trans hadv₂).trans hadv₃, ?_⟩
  · intro hclean
    -- with no access refused in the whole call, none was in any of the three reads
    obtain ⟨hclean₁₂, hclean₃⟩ := (hadv₁.trans hadv₂).clean hadv₃ hclean
    obtain ⟨hclean₁, hclean₂⟩ := hadv₁.clean hadv₂ hclean₁₂
    apply List.map_congr_left
    rintro ⟨i, j, k⟩ hc
    have hv := mem_coords.mp hc
    have h₁ := htargetval hclean₂ i hv.1
    have h₂ := hpkgval hclean₁ i hv.1
    have h₃ := hstatval hclean₃ _ hv.cpu_lt
    rw [hadv₁.contents] at h₁
    rw [(hadv₁.trans hadv₂).contents] at h₃
    simp only [line, List.getD_eq_getElem?_getD, h₁, h₂, h₃, Option.getD_some,
      Topology.cpu_socket]
    rfl

/-- `get_max_non_turbo_ratio` from any state between calls. -/
theorem getMaxNonTurboRatio_spec (hst : st.Ready e.topo msrs) :
    ∃ err ratio st', getMaxNonTurboRatio e msrs st = some (err, ratio, st') ∧
      Advances e.topo msrs st st' ∧
      (st.msr.machine.Clean e.driver st'.msr.machine → err = 0 →
        ratio = (maskVal (narrowed st.msr.machine.msr (e.topo.cpu 0 0 0)
          msrs.platformInfo.toNat) 15 8).toNat * 100) := by
  have hpos := e.topo.nsockets_pos
  have hroom : ([BatchLoad.socket msrs.platformInfo].map fun load => load.count e.topo).sum
      ≤ e.topo.nsockets % 2 ^ 32 := by
    exact (BatchLoad.socket msrs.platformInfo).count_mod e.topo
  obtain ⟨st₁, hinit, hadv₁, hmachine, hsome, -⟩ :=
    initBatch_ready PLATFORM_INFO _ [.socket msrs.platformInfo] hst (by decide) rfl
      (List.cons_ne_nil _ _) hroom
  obtain ⟨err, st₂, hread, hadv₂, htables, -, hpeek⟩ :=
    FeatureState.read_ready (b := PLATFORM_INFO) hadv₁.ready (by decide) hsome
  have hadv := hadv₁.trans hadv₂
  have hvalue : ∀ i < e.topo.nsockets, ∃ raw, st₂.peek PLATFORM_INFO 0 i = some raw ∧
      (st.msr.machine.Clean e.driver st₂.msr.machine →
        raw = narrowed st.msr.machine.msr (e.topo.cpu i 0 0) msrs.platformInfo.toNat) := by
    intro i hi
    have hpeeks := FeatureState.peek_isSome (b := PLATFORM_INFO) (n := 0) (i := i) hadv₂.ready
      (htables ▸ hsome) rfl hi
    obtain ⟨raw, hraw⟩ := Option.isSome_iff_exists.mp hpeeks
    refine ⟨raw, hraw, fun hclean => ?_⟩
    have hfound := hpeek (hadv₁.clean hadv₂ hclean).2 0 _ rfl i hi
    rw [hraw, hmachine] at hfound
    rw [Topology.cpu_socket]
    exact Option.some.inj hfound
  obtain ⟨raw₀, hraw₀, hval₀⟩ := hvalue 0 hpos
  have hzero : st₂.peek PLATFORM_INFO 0 0 = some raw₀ := hraw₀
  -- with a second socket the fields are compared, and the answer is an error if they differ
  by_cases herr : err = 0
  · by_cases hone : e.topo.nsockets = 1
    · refine ⟨0, (maskVal raw₀ 15 8).toNat * 100, st₂, ?_, hadv, fun hclean _ => ?_⟩
      · have hnot : ¬ e.topo.nsockets ≠ 1 := not_not.mpr hone
        simp only [getMaxNonTurboRatio, hinit, Option.bind_eq_bind, Option.bind_some, hread, herr,
          hzero]
        rw [if_neg (not_not.mpr rfl), if_neg hnot]
        rfl
      · rw [hval₀ hclean]
    · obtain ⟨raw₁, hraw₁, -⟩ := hvalue 1 (by omega)
      have hsecond : st₂.peek PLATFORM_INFO 0 1 = some raw₁ := hraw₁
      by_cases hsame : (maskVal raw₀ 15 8).toNat = (maskVal raw₁ 15 8).toNat
      · refine ⟨0, (maskVal raw₀ 15 8).toNat * 100, st₂, ?_, hadv, fun hclean _ => ?_⟩
        · simp [getMaxNonTurboRatio, hinit, hread, herr, hzero, hone, hsecond, hsame]
        · rw [hval₀ hclean]
      · refine ⟨VariorumError.inval.code, 0, st₂, ?_, hadv, fun _ h0 => ?_⟩
        · simp [getMaxNonTurboRatio, hinit, hread, herr, hzero, hone, hsecond, hsame]
        · exact absurd h0 VariorumError.inval.code_ne_zero
  · refine ⟨-1, 0, st₂, ?_, hadv, fun _ h0 => ?_⟩
    · simp [getMaxNonTurboRatio, hinit, hread, herr]
    · cases h0

/-- What the loops of `print_clocks_data` read for a hardware thread, on socket `i`. -/
def clocksReading (st : FeatureState) (ratio : Int) (i cpu : Nat) (place : ClocksPlace) :
    ClocksRow :=
  clocksRow ratio place ((st.peek CLOCKS_DATA 0 cpu).getD 0) ((st.peek CLOCKS_DATA 1 cpu).getD 0)
    ((st.peek CLOCKS_DATA 2 cpu).getD 0) ((st.peek PERF_DATA 0 i).getD 0)

theorem printClocksRow_eq {t : Topology} (hst : st.Ready t msrs)
    (hclocks : (st.tables CLOCKS_DATA).isSome) (hperf : (st.tables PERF_DATA).isSome)
    (ratio : Int) {i cpu : Nat} (hi : i < t.nsockets) (hcpu : cpu < t.nthreads)
    (place : ClocksPlace) :
    printClocksRow st ratio i cpu place = some (clocksReading st ratio i cpu place) := by
  have hthread : ∀ n load, (loadsOf msrs CLOCKS_DATA)[n]? = some load →
      load.count t = t.nthreads →
      st.peek CLOCKS_DATA n cpu = some ((st.peek CLOCKS_DATA n cpu).getD 0) := by
    intro n load hload hcount
    obtain ⟨v, hv⟩ := Option.isSome_iff_exists.mp
      (FeatureState.peek_isSome hst hclocks hload (hcount.symm ▸ hcpu))
    rw [hv, Option.getD_some]
  have hsocket : st.peek PERF_DATA 0 i = some ((st.peek PERF_DATA 0 i).getD 0) := by
    obtain ⟨v, hv⟩ := Option.isSome_iff_exists.mp
      (FeatureState.peek_isSome (b := PERF_DATA) (n := 0) hst hperf rfl hi)
    rw [hv, Option.getD_some]
  unfold printClocksRow clocksReading
  rw [hthread 0 (.thread msrs.aperf) rfl rfl, hthread 1 (.thread msrs.mperf) rfl rfl,
    hthread 2 (.thread msrs.tsc) rfl rfl, hsocket]
  rfl

/-- There is room for three tables of threads. -/
theorem clocks_room {t : Topology} (hroom : 3 * t.nthreads < 2 ^ 32) :
    ([BatchLoad.thread msrs.aperf, .thread msrs.mperf, .thread msrs.tsc].map
      fun load => load.count t).sum ≤ 3 * t.nthreads % 2 ^ 32 := by
  rw [Nat.mod_eq_of_lt hroom]
  show t.nthreads + (t.nthreads + (t.nthreads + 0)) ≤ _
  omega

/-- And for one of sockets. -/
theorem perf_room {t : Topology} :
    ([BatchLoad.socket msrs.perfStatus].map fun load => load.count t).sum
      ≤ 2 * t.nsockets % 2 ^ 32 := by
  have hlt := t.nsockets_lt
  rw [Nat.mod_eq_of_lt (by omega)]
  show t.nsockets + 0 ≤ _
  omega

/-- The storage functions and the reads of `print_clocks_data`. -/
theorem clocksReads_ready (hst : st.Ready e.topo msrs) (hroom : 3 * e.topo.nthreads < 2 ^ 32) :
    ∃ st₁ st₂ err₃ st₃ err₄ st₄,
      initBatch e.topo CLOCKS_DATA (3 * e.topo.nthreads)
        [.thread msrs.aperf, .thread msrs.mperf, .thread msrs.tsc] st = some st₁ ∧
      initBatch e.topo PERF_DATA (2 * e.topo.nsockets) [.socket msrs.perfStatus] st₁ = some st₂ ∧
      st₂.read e CLOCKS_DATA = some (err₃, st₃) ∧ st₃.read e PERF_DATA = some (err₄, st₄) ∧
      Advances e.topo msrs st st₄ ∧
      (st₄.tables CLOCKS_DATA).isSome ∧ (st₄.tables PERF_DATA).isSome ∧
      (st.msr.machine.Clean e.driver st₄.msr.machine →
        ∀ (ratio : Int) {i cpu : Nat} (place : ClocksPlace), i < e.topo.nsockets →
          cpu < e.topo.nthreads →
          clocksReading st₄ ratio i cpu place = clocksRow ratio place
            (narrowed st.msr.machine.msr cpu msrs.aperf.toNat)
            (narrowed st.msr.machine.msr cpu msrs.mperf.toNat)
            (narrowed st.msr.machine.msr cpu msrs.tsc.toNat)
            (narrowed st.msr.machine.msr (e.topo.cpu i 0 0) msrs.perfStatus.toNat)) := by
  obtain ⟨st₁, hinit₁, hadv₁, -, hsome₁, -⟩ :=
    initBatch_ready CLOCKS_DATA (3 * e.topo.nthreads)
      [.thread msrs.aperf, .thread msrs.mperf, .thread msrs.tsc] hst (by decide) rfl
      (List.cons_ne_nil _ _) (clocks_room hroom)
  obtain ⟨st₂, hinit₂, hadv₂', -, hsome₂, hkeep₂⟩ :=
    initBatch_ready PERF_DATA (2 * e.topo.nsockets) [.socket msrs.perfStatus]
      hadv₁.ready (by decide) rfl (List.cons_ne_nil _ _) perf_room
  obtain ⟨err₃, st₃, hread₃, hadv₃, htables₃, -, hpeek₃⟩ :=
    FeatureState.read_ready (b := CLOCKS_DATA) hadv₂'.ready (by decide) (hkeep₂ _ hsome₁)
  obtain ⟨err₄, st₄, hread₄, hadv₄, htables₄, hframe₄, hpeek₄⟩ :=
    FeatureState.read_ready (b := PERF_DATA) hadv₃.ready (by decide) (htables₃ ▸ hsome₂)
  have hadv₂ := hadv₁.trans hadv₂'
  refine ⟨st₁, st₂, err₃, st₃, err₄, st₄, hinit₁, hinit₂, hread₃, hread₄,
    (hadv₂.trans hadv₃).trans hadv₄, ?_, ?_, fun hclean ratio i cpu place hi hcpu => ?_⟩
  · rw [htables₄, htables₃]
    exact hkeep₂ _ hsome₁
  · rw [htables₄, htables₃]
    exact hsome₂
  -- the registers are those found at the start, as nothing in between writes
  · obtain ⟨hclean₃, hclean₄⟩ := (hadv₂.trans hadv₃).clean hadv₄ hclean
    obtain ⟨-, hclean₃⟩ := hadv₂.clean hadv₃ hclean₃
    have hthread := fun n load hload => hpeek₃ hclean₃ n load hload cpu
    have hne : CLOCKS_DATA ≠ PERF_DATA := by decide
    unfold clocksReading
    rw [hframe₄ _ hne, hframe₄ _ hne, hframe₄ _ hne, hthread 0 _ rfl hcpu,
      hthread 1 _ rfl hcpu, hthread 2 _ rfl hcpu, hpeek₄ hclean₄ 0 _ rfl i hi,
      hadv₂.contents, (hadv₂.trans hadv₃).contents, Topology.cpu_socket]
    rfl

/-- **`print_clocks_data`** from any state between calls. -/
theorem printClocksData_spec (hst : st.Ready e.topo msrs) (hroom : 3 * e.topo.nthreads < 2 ^ 32)
    (domain : CtlDomain) :
    ∃ ret rows st', printClocksData e msrs domain st = some (ret, rows, st') ∧
      Advances e.topo msrs st st' ∧
      (st.msr.machine.Clean e.driver st'.msr.machine → ret = 0 →
        rows = clocksRows e.topo msrs (narrowed st.msr.machine.msr) domain) := by
  obtain ⟨err, ratio, st₀, hratio, hadv₀, hval⟩ := getMaxNonTurboRatio_spec hst
  by_cases herr : err = 0
  · obtain ⟨st₁, st₂, err₃, st₃, err₄, st₄, hinit₁, hinit₂, hread₃, hread₄, hrest, hclocks, hperf,
      hreading⟩ := clocksReads_ready hadv₀.ready hroom
    have hadv₄ := hadv₀.trans hrest
    -- what any row reads, for any place of it: the values of the batches, taken once
    have hreads : st.msr.machine.Clean e.driver st₄.msr.machine →
        ∀ {i cpu : Nat} (place : ClocksPlace), i < e.topo.nsockets → cpu < e.topo.nthreads →
          clocksReading st₄ ratio i cpu place = clocksRow ratio place
            (narrowed st.msr.machine.msr cpu msrs.aperf.toNat)
            (narrowed st.msr.machine.msr cpu msrs.mperf.toNat)
            (narrowed st.msr.machine.msr cpu msrs.tsc.toNat)
            (narrowed st.msr.machine.msr (e.topo.cpu i 0 0) msrs.perfStatus.toNat) := by
      intro hclean i cpu place hi hcpu
      rw [← hadv₀.contents]
      exact hreading (hadv₀.clean hrest hclean).2 ratio place hi hcpu
    have hratio₀ : st.msr.machine.Clean e.driver st₄.msr.machine →
        ratio = (maskVal (narrowed st.msr.machine.msr (e.topo.cpu 0 0 0)
          msrs.platformInfo.toNat) 15 8).toNat * 100 := by
      intro hclean
      exact hval (hadv₀.clean hrest hclean).1 herr
    -- the domains differ in which rows there are, not in what a row reads
    cases domain with
    | socket =>
        let line (i : Nat) : ClocksRow := clocksReading st₄ ratio i (e.topo.cpu i 0 0) (.socket i)
        have hrows : (List.range e.topo.nsockets).mapM (fun i =>
            printClocksRow st₄ ratio i (clocksIdx e.topo i 0 0) (.socket i))
              = some ((List.range e.topo.nsockets).map line) := by
          apply mapM_eq_map
          intro i hi
          have hv := Topology.valid_socket (List.mem_range.mp hi)
          rw [clocksIdx_eq hv]
          exact printClocksRow_eq hadv₄.ready hclocks hperf ratio hv.1 hv.cpu_lt _
        refine ⟨0, (List.range e.topo.nsockets).map line, st₄, ?_, hadv₄, fun hclean _ => ?_⟩
        · simp [printClocksData, hratio, herr, hinit₁, hinit₂, hread₃, hread₄, hrows]
        · apply List.map_congr_left
          intro i hi
          have hv := Topology.valid_socket (List.mem_range.mp hi)
          exact (hreads hclean _ hv.1 hv.cpu_lt).trans (by rw [hratio₀ hclean])
    | core =>
        let line (c : Nat × Nat × Nat) : ClocksRow :=
          clocksReading st₄ ratio c.1 (e.topo.cpu c.1 c.2.1 c.2.2)
            (.core c.1 c.2.1 c.2.2 (e.topo.cpu c.1 c.2.1 c.2.2))
        have hrows : (coords e.topo).mapM (fun c =>
            printClocksRow st₄ ratio c.1 (clocksIdx e.topo c.1 c.2.1 c.2.2)
              (.core c.1 c.2.1 c.2.2 (clocksIdx e.topo c.1 c.2.1 c.2.2)))
              = some ((coords e.topo).map line) := by
          apply mapM_eq_map
          rintro ⟨i, j, k⟩ hc
          have hv := mem_coords.mp hc
          rw [clocksIdx_eq hv]
          exact printClocksRow_eq hadv₄.ready hclocks hperf ratio hv.1 hv.cpu_lt _
        refine ⟨0, (coords e.topo).map line, st₄, ?_, hadv₄, fun hclean _ => ?_⟩
        · simp [printClocksData, hratio, herr, hinit₁, hinit₂, hread₃, hread₄, hrows]
        · apply List.map_congr_left
          rintro ⟨i, j, k⟩ hc
          have hv := mem_coords.mp hc
          exact (hreads hclean _ hv.1 hv.cpu_lt).trans (by rw [hratio₀ hclean])
    | other =>
        refine ⟨0, [], st₄, ?_, hadv₄, fun _ _ => rfl⟩
        simp [printClocksData, hratio, herr, hinit₁, hinit₂, hread₃, hread₄]
  -- a ratio that cannot be had ends the call before anything is printed
  · refine ⟨-1, [], st₀, ?_, hadv₀, fun _ h0 => ?_⟩
    · simp [printClocksData, hratio, herr]
    · cases h0

end Printing

/-! ### Runs of calls -/

/-- A call of one of the two printing functions. -/
inductive FeatureCall
  | clocks (domain : CtlDomain)
  | thermal

/-- What a call prints, with the value that the clock code returns. -/
inductive FeatureOutput
  | clocks (ret : Int) (rows : List ClocksRow)
  | thermal (rows : List ThermalRow)

namespace FeatureCall

def run (e : MsrEnv) (msrs : FeatureMsrs) (st : FeatureState) :
    FeatureCall → Option (FeatureOutput × FeatureState)
  | clocks domain =>
      (printClocksData e msrs domain st).map fun (ret, rows, st) => (.clocks ret rows, st)
  | thermal => (printThermTempReading e msrs st).map fun (rows, st) => (.thermal rows, st)

/-- A call in a run: the registers it finds, and the call. -/
def step (e : MsrEnv) (msrs : FeatureMsrs) (st : FeatureState)
    (a : (Nat → Nat → BitVec 64) × FeatureCall) : Option FeatureState :=
  (a.2.run e msrs (st.found a.1)).map Prod.snd

/-- What a call should print, given the registers of the CPUs: every line what
belongs to its own coordinate. -/
def Expected (t : Topology) (msrs : FeatureMsrs) (contents : Nat → Nat → BitVec 64) :
    FeatureCall → FeatureOutput → Prop
  | clocks domain, .clocks ret rows => ret = 0 → rows = clocksRows t msrs contents domain
  | thermal, .thermal rows => rows = thermalRows t msrs contents
  | _, _ => False

end FeatureCall

/-- A call of a run returns, and prints the right lines if none of its accesses
was refused. -/
def PrintsRight (e : MsrEnv) (msrs : FeatureMsrs) (st : FeatureState)
    (a : (Nat → Nat → BitVec 64) × FeatureCall) : Prop :=
  ∃ out st', a.2.run e msrs (st.found a.1) = some (out, st') ∧
    ((st.found a.1).msr.machine.Clean e.driver st'.msr.machine →
      a.2.Expected e.topo msrs a.1 out)

/-- The flattening of coordinates on a node: `devidx` numbers them from 0 to
`nthreads - 1`, every place that flattens by hand finds the same number, and in
every run of calls what is printed for a coordinate was read from its CPU. -/
structure Flattening (t : Topology) : Prop where
  bijective : Set.BijOn
    (fun c : BitVec 32 × BitVec 32 × BitVec 32 => (devidx t c.1 c.2.1 c.2.2).toNat)
    {c | t.Valid c.1.toNat c.2.1.toNat c.2.2.toNat} (Set.Iio t.nthreads)
  byHand : ∀ i j k : BitVec 32, t.Valid i.toNat j.toNat k.toNat →
    (flatIdx t i j k).toNat = (devidx t i j k).toNat
  sockets : ∀ i < t.nsockets, ∀ msr,
    (BatchLoad.socket msr).dev t i = (devidx t (BitVec.ofNat 32 i) 0#32 0#32).toNat
  prints : ∀ e : MsrEnv, e.topo = t → ∀ msrs calls,
    Runs.Along (FeatureCall.step e msrs) (PrintsRight e msrs) .start calls

section Runs

variable {e : MsrEnv} {t : Topology} {msrs : FeatureMsrs} {st : FeatureState}
variable {contents : Nat → Nat → BitVec 64}

/-- On a node of up to 65536 hardware threads batches see the registers as they
are. -/
theorem narrowed_eq (hfew : t.nthreads ≤ 2 ^ 16) {cpu : Nat} (hcpu : cpu < t.nthreads) :
    narrowed contents cpu = contents cpu := by
  unfold narrowed
  rw [Nat.mod_eq_of_lt (hcpu.trans_le hfew)]

theorem thermalRows_narrowed (hfew : t.nthreads ≤ 2 ^ 16) :
    thermalRows t msrs (narrowed contents) = thermalRows t msrs contents := by
  apply List.map_congr_left
  rintro ⟨i, j, k⟩ hc
  have hv := mem_coords.mp hc
  have hsocket := (Topology.valid_socket hv.1).cpu_lt
  simp only [narrowed_eq hfew hsocket, narrowed_eq hfew hv.cpu_lt]

theorem clocksRows_narrowed (hfew : t.nthreads ≤ 2 ^ 16) (domain : CtlDomain) :
    clocksRows t msrs (narrowed contents) domain = clocksRows t msrs contents domain := by
  have hzero := (Topology.valid_socket t.nsockets_pos).cpu_lt
  cases domain with
  | socket =>
      apply List.map_congr_left
      intro i hi
      have hsocket := (Topology.valid_socket (List.mem_range.mp hi)).cpu_lt
      simp only [narrowed_eq hfew hzero, narrowed_eq hfew hsocket]
  | core =>
      apply List.map_congr_left
      rintro ⟨i, j, k⟩ hc
      have hv := mem_coords.mp hc
      have hsocket := (Topology.valid_socket hv.1).cpu_lt
      simp only [narrowed_eq hfew hzero, narrowed_eq hfew hsocket, narrowed_eq hfew hv.cpu_lt]
  | other => rfl

/-- **A call** returns, leaves the batches as they should be, and prints what
batches see. -/
theorem FeatureCall.run_ready (hst : st.Ready e.topo msrs) (hroom : 3 * e.topo.nthreads < 2 ^ 32)
    (call : FeatureCall) :
    ∃ out st', call.run e msrs st = some (out, st') ∧ Advances e.topo msrs st st' ∧
      (st.msr.machine.Clean e.driver st'.msr.machine →
        call.Expected e.topo msrs (narrowed st.msr.machine.msr) out) := by
  cases call with
  | clocks domain =>
      obtain ⟨ret, rows, st', hrun, hadv, hrows⟩ := printClocksData_spec hst hroom domain
      exact ⟨.clocks ret rows, st', by rw [run, hrun, Option.map_some], hadv, hrows⟩
  | thermal =>
      obtain ⟨rows, st', hrun, hadv, hrows⟩ := printThermTempReading_spec hst
      exact ⟨.thermal rows, st', by rw [run, hrun, Option.map_some], hadv, hrows⟩

theorem FeatureCall.expected_narrowed (hfew : t.nthreads ≤ 2 ^ 16) (call : FeatureCall)
    (out : FeatureOutput) :
    call.Expected t msrs (narrowed contents) out ↔ call.Expected t msrs contents out := by
  rcases call with domain | - <;> rcases out with ⟨ret, rows⟩ | rows
  · simp only [Expected, clocksRows_narrowed hfew]
  · exact Iff.rfl
  · exact Iff.rfl
  · simp only [Expected, thermalRows_narrowed hfew]

/-- On a node of up to 65536 hardware threads every run prints the right lines,
by the invariant that the batches are ready. -/
theorem prints_of_few (hfew : e.topo.nthreads ≤ 2 ^ 16) (msrs : FeatureMsrs)
    (calls : List ((Nat → Nat → BitVec 64) × FeatureCall)) :
    Runs.Along (FeatureCall.step e msrs) (PrintsRight e msrs) .start calls := by
  have hroom : 3 * e.topo.nthreads < 2 ^ 32 := by omega
  refine (Runs.along_true _ _).imp_of_inv (FeatureState.Ready e.topo msrs) ?_ ?_
    (FeatureState.ready_start e.topo msrs)
  · rintro st ⟨contents, call⟩ st' hst - hstep
    have hfound : (st.found contents).Ready e.topo msrs := hst
    obtain ⟨out, st₁, hrun, hadv, -⟩ := FeatureCall.run_ready hfound hroom call
    unfold FeatureCall.step at hstep
    rw [hrun, Option.map_some] at hstep
    obtain rfl := Option.some.inj hstep
    exact hadv.ready
  · rintro st ⟨contents, call⟩ hst -
    have hfound : (st.found contents).Ready e.topo msrs := hst
    obtain ⟨out, st₁, hrun, -, hout⟩ := FeatureCall.run_ready hfound hroom call
    exact ⟨out, st₁, hrun, fun hclean =>
      (FeatureCall.expected_narrowed hfew call out).mp (hout hclean)⟩

/-- The digital reading of CPU 65536 is 1, every other one 0. -/
def oneReading : Nat → Nat → BitVec 64 := fun cpu _ => if cpu = 2 ^ 16 then 0x10000 else 0

/-- On a larger node the first print of the temperatures is wrong. -/
theorem not_prints_of_many (hmany : 2 ^ 16 < t.nthreads) (msrs : FeatureMsrs) :
    ¬ PrintsRight ⟨t, ⟨fun _ _ => false⟩, true⟩ msrs .start (oneReading, .thermal) := by
  rintro ⟨out, st', hrun, hright⟩
  have hst : (FeatureState.start.found oneReading).Ready t msrs :=
    FeatureState.ready_start t msrs
  obtain ⟨rows, st₁, hprint, hadv, hrows⟩ :=
    printThermTempReading_spec (e := ⟨t, ⟨fun _ _ => false⟩, true⟩) hst
  have hclean : (FeatureState.start.found oneReading).msr.machine.Clean ⟨fun _ _ => false⟩
      st₁.msr.machine := clean_of_never (fun _ _ => rfl) hadv.grows
  have hcall : FeatureCall.thermal.run ⟨t, ⟨fun _ _ => false⟩, true⟩ msrs
      (FeatureState.start.found oneReading) = some (.thermal rows, st₁) := by
    rw [FeatureCall.run, hprint, Option.map_some]
  obtain ⟨rfl, rfl⟩ := Prod.mk.inj (Option.some.inj (hcall.symm.trans hrun))
  have heq : thermalRows t msrs (narrowed oneReading) = thermalRows t msrs oneReading :=
    (hrows hclean).symm.trans (hright hclean)
  obtain ⟨i, j, k, hv, hcpu⟩ := Topology.exists_cpu (t := t) hmany
  have hline := congrArg ThermalRow.threadReading
    (List.map_inj_left.mp heq (i, j, k) (mem_coords.mpr hv))
  have hread : (maskVal (narrowed oneReading (t.cpu i j k) msrs.thermStat.toNat) 22 16).toNat
      = (maskVal (oneReading (t.cpu i j k) msrs.thermStat.toNat) 22 16).toNat :=
    Int.ofNat.inj hline
  rw [hcpu] at hread
  have hread : (maskVal (oneReading (2 ^ 16 % 2 ^ 16) 0) 22 16).toNat
      = (maskVal (oneReading (2 ^ 16) 0) 22 16).toNat := hread
  exact absurd hread (by decide)

/-- **Flattening, exactly.**  It is as it should be precisely on nodes of up to 65536
hardware threads: every coordinate has its own CPU, and what is printed for it is what
the registers of this CPU hold.  Beyond these a number no longer fits the 16 bits of a
batch operation, and another CPU is read. -/
theorem flattening_iff (t : Topology) : Flattening t ↔ t.nthreads ≤ 2 ^ 16 := by
  constructor
  · intro hlaw
    by_contra hmany
    have hrun := hlaw.prints ⟨t, ⟨fun _ _ => false⟩, true⟩ rfl ⟨0, 0, 0, 0, 0, 0, 0, 0⟩
      [(oneReading, .thermal)]
    exact not_prints_of_many (Nat.not_le.mp hmany) _ hrun.1
  · intro hfew
    have hcores := t.ncores_le
    have hsockets := t.nsockets_le
    have hfit : (t.nsockets - 1) * t.ncores < 2 ^ 32 :=
      calc (t.nsockets - 1) * t.ncores ≤ (2 ^ 16 - 1) * 2 ^ 16 :=
            Nat.mul_le_mul (by omega) (by omega)
        _ < 2 ^ 32 := by decide
    refine ⟨devidx_bijOn hfit, fun i j k h => flatIdx_eq_devidx hfit h, ?_, ?_⟩
    · intro i hi msr
      rw [devidx_toNat]
      show i * t.coresPerSocket = socketIndex t i
      rw [socketIndex_of_last_fits hfit hi, Topology.cpu_socket]
    · rintro e rfl msrs calls
      exact prints_of_few hfew msrs calls

/-- On the node of one socket with 65537 cores, the line about core 65536 shows
the reading of CPU 0, which is 0; that of the core's own CPU is 1. -/
theorem printThermTempReading_wideNode :
    (∃ rows st', printThermTempReading ⟨wideNode, ⟨fun _ _ => false⟩, true⟩
        ⟨0, 0, 0, 0, 0, 0, 0, 0⟩ (FeatureState.start.found oneReading) = some (rows, st') ∧
      ∃ line ∈ rows, line.core = 65536 ∧ line.idx = 65536 ∧ line.threadReading = 0) ∧
      (maskVal (oneReading 65536 0) 22 16).toNat = 1 ∧ ¬ Flattening wideNode := by
  refine ⟨?_, by decide, ?_⟩
  · have hst : (FeatureState.start.found oneReading).Ready wideNode ⟨0, 0, 0, 0, 0, 0, 0, 0⟩ :=
      FeatureState.ready_start _ _
    obtain ⟨rows, st', hprint, hadv, hrows⟩ :=
      printThermTempReading_spec (e := ⟨wideNode, ⟨fun _ _ => false⟩, true⟩) hst
    have hclean : (FeatureState.start.found oneReading).msr.machine.Clean ⟨fun _ _ => false⟩
        st'.msr.machine := clean_of_never (fun _ _ => rfl) hadv.grows
    have hv : wideNode.Valid 0 65536 0 := by decide
    refine ⟨rows, st', hprint, ?_⟩
    rw [hrows hclean]
    exact ⟨_, List.mem_map.mpr ⟨(0, 65536, 0), mem_coords.mpr hv, rfl⟩, rfl, by decide, by decide⟩
  · intro hlaw
    have hmany : 2 ^ 16 < wideNode.nthreads := by decide
    have hrun := hlaw.prints ⟨wideNode, ⟨fun _ _ => false⟩, true⟩ rfl ⟨0, 0, 0, 0, 0, 0, 0, 0⟩
      [(oneReading, .thermal)]
    exact not_prints_of_many hmany _ hrun.1

end Runs

end Variorum
