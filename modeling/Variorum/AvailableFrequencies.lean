/-
Variorum/AvailableFrequencies.lean

`variorum_print_available_frequencies` on Intel: the turbo schedule, the AVX frequency and
the table of P-states, as `get_available_frequencies` and `get_available_frequencies_skx`
print them.

The architectures hand their registers over behind pointers, and four of the seven hand over
NULL for some.  The function looks behind two of them whatever it finds and behind the other
two when `MSR_PLATFORM_INFO` says that there are levels of TDP, so whether a process gets to
the end of a call depends on the architecture and on that field (`frequencyRun_isSome_iff`).
Where it does, `reports_eq` says what it prints in every call of a process: `config_tdp`
keeps the batch of the register that it was first called with, and so there is one bit of
history in the report, and the table of P-states has two of its names exchanged.
`turboSchedule_iff` finds the few nodes on which the schedule has the lines it should.
-/
import Variorum.CString
import Variorum.Runs
import Variorum.SocketRatio

namespace Variorum.AvailableFrequencies

open CString History Runs

/-! ### The functions -/

/-- The members of `enum variorum_data_type_e` that these functions read. -/
def TURBO_RATIO_LIMIT : Nat := 32
def TURBO_RATIO_LIMIT1 : Nat := 33
def TURBO_RATIO_LIMIT_CORES : Nat := 34
def TDP_DEFS : Nat := 35
def TDP_CONFIG : Nat := 36

/-- What an architecture hands over: which of the two functions it calls, and the addresses,
where it has no NULL.  The second register of the schedule is `msr_turbo_ratio_limit1` or
`msr_turbo_ratio_limit_cores`. -/
structure FrequencyMsrs where
  skx : Bool
  platformInfo : BitVec 32
  turboRatioLimit : BitVec 32
  turboRatioLimit1 : Option (BitVec 32)
  configTdpL1 : Option (BitVec 32)
  configTdpL2 : Option (BitVec 32)

/-- A line of the schedule: a number of cores, and their ratio times 100.  The lines of
`msr_turbo_ratio_limit1` have a blank more. -/
structure Row where
  spaced : Bool
  core : Nat
  mhz : Nat
  deriving DecidableEq

/-- Any other line: a label and a clock in MHz. -/
structure Line where
  label : List Char
  mhz : Nat
  deriving DecidableEq

/-- A call: whether it reports "Values do not match across sockets", and what it prints
under its three headings. -/
structure Report where
  mismatch : Bool
  schedule : List Row
  avx : List Line
  pStates : List Line
  deriving DecidableEq

/-- `printf(" = %d MHz\n")` behind a label. -/
def Line.text (l : Line) : List Char :=
  l.label ++ " = ".toList ++ decimal l.mhz ++ " MHz\n".toList

/-- `%2dC`, and `%2d C`. -/
def Row.text (r : Row) : List Char :=
  let width := if r.core < 10 then ' ' :: decimal r.core else decimal r.core
  Line.text ⟨width ++ (if r.spaced then " C" else "C").toList, r.mhz⟩

/-- What comes out of a call: its three sections, each under its heading. -/
def Report.text (r : Report) : List Char :=
  "=== Turbo Schedule ===\n".toList ++ r.schedule.flatMap Row.text ++
    "\n=== AVX Schedule ===\n".toList ++ r.avx.flatMap Line.text ++
    "\n=== P-State Table ===\n".toList ++ r.pStates.flatMap Line.text

/-- `MASK_VAL(reg, nbits + 7, nbits)`. -/
def byteAt (reg : BitVec 64) (nbits : Nat) : Nat := (maskVal reg (nbits + 7) nbits).toNat

/-- The loop of `get_turbo_ratio_limits` over a register, with the test that ends it, and
where `core` is behind it. -/
def limitLoop (stop : Nat → Bool) (spaced : Bool) (reg : BitVec 64) :
    List Nat → Nat → List Row × Nat
  | [], core => ([], core)
  | nbits :: rest, core =>
      let row : Row := ⟨spaced, core, byteAt reg nbits * 100⟩
      if stop (core + 1) then ([row], core + 1)
      else
        let (rows, core) := limitLoop stop spaced reg rest (core + 1)
        (row :: rows, core)

/-- `for (nbits = 0; nbits < 64; nbits += 8)`. -/
def allBits : List Nat := (List.range 8).map (8 * ·)

/-- What `get_turbo_ratio_limits` prints from its two registers. -/
def limitRows (ncores : Nat) (reg reg1 : BitVec 64) : List Row :=
  let (rows, core) := limitLoop (fun core => core > ncores) false reg allBits 1
  let (rows1, _) := limitLoop (fun core => core ≥ ncores) true reg1 allBits core
  rows ++ rows1

/-- What `get_turbo_ratio_limits_skx` prints. -/
def limitRowsSkx (ncores : Nat) (reg cores : BitVec 64) : List Nat → List Row
  | [] => []
  | nbits :: rest =>
      let core := byteAt cores nbits
      if core > ncores then []
      else ⟨false, core, byteAt reg nbits * 100⟩ :: limitRowsSkx ncores reg cores rest

/-- The rows of either function. -/
def FrequencyMsrs.rows (p : FrequencyMsrs) (ncores : Nat) (reg reg1 : BitVec 64) : List Row :=
  if p.skx then limitRowsSkx ncores reg reg1 allBits else limitRows ncores reg reg1

/-- The batch of the second register. -/
def FrequencyMsrs.secondBatch (p : FrequencyMsrs) : Nat :=
  if p.skx then TURBO_RATIO_LIMIT_CORES else TURBO_RATIO_LIMIT1

/-- `get_turbo_ratio_limits` and `get_turbo_ratio_limits_skx`, which nobody tells of a failed
read.  Of the two batches the source allocates both and then loads both. -/
def getTurboRatioLimits (e : MsrEnv) (p : FrequencyMsrs) (msr1 : BitVec 32) (st : FeatureState) :
    Option (Int × List Row × FeatureState) := do
  let st ← initBatch e.topo TURBO_RATIO_LIMIT e.topo.nsockets [.socket p.turboRatioLimit] st
  let st ← initBatch e.topo p.secondBatch e.topo.nsockets [.socket msr1] st
  let (_, st) ← st.read e TURBO_RATIO_LIMIT
  let (_, st) ← st.read e p.secondBatch
  let val ← st.peek TURBO_RATIO_LIMIT 0 0
  let val2 ← st.peek p.secondBatch 0 0
  if e.topo.nsockets ≠ 1 then
    let other ← st.peek TURBO_RATIO_LIMIT 0 1
    let other2 ← st.peek p.secondBatch 0 1
    if val ≠ other ∨ val2 ≠ other2 then return (VariorumError.inval.code, [], st)
    return (0, p.rows e.topo.ncores val val2, st)
  return (0, p.rows e.topo.ncores val val2, st)

/-- `config_tdp`: the clock of a level, from the register that the first call came with. -/
def configTdp (e : MsrEnv) (nlevels : Nat) (msrConfigTdpLevel : BitVec 32) (st : FeatureState) :
    Option (List Line × FeatureState) := do
  let (ret, mhz, st) ← getRatio e TDP_CONFIG 23 16 msrConfigTdpLevel st
  if ret ≠ 0 then return ([], st)
  if nlevels = 2 then return ([⟨"AVX512 ".toList, mhz.toNat⟩], st)
  if nlevels = 1 then return ([⟨"AVX    ".toList, mhz.toNat⟩], st)
  return ([], st)

/-- `get_max_non_turbo_ratio` and the other two, on the register handed over. -/
def ratioOf (e : MsrEnv) (p : FrequencyMsrs) (st : FeatureState) :
    RatioCall → Option (Int × Int × FeatureState)
  | .maxNonTurbo => getRatio e PLATFORM_INFO 15 8 p.platformInfo st
  | .maxEfficiency => getRatio e MAX_EFFICIENCY 47 40 p.platformInfo st
  | .minOperating => getRatio e MIN_OPERATING_RATIO 55 48 p.platformInfo st

/-- `if (!err)`: the line of a ratio. -/
def ratioLine (e : MsrEnv) (p : FrequencyMsrs) (c : RatioCall) (label : List Char)
    (st : FeatureState) : Option (List Line × FeatureState) := do
  let (err, mhz, st) ← ratioOf e p st c
  return (if err = 0 then [⟨label, mhz.toNat⟩] else [], st)

/-- `get_avx_limits`; what it returns is dropped. -/
def getAvxLimits (e : MsrEnv) (p : FrequencyMsrs) (st : FeatureState) :
    Option (List Line × FeatureState) := do
  let st ← initBatch e.topo TDP_DEFS e.topo.nsockets [.socket p.platformInfo] st
  let (err, st) ← st.read e TDP_DEFS
  if err ≠ 0 then return ([], st)
  let nvalues := (maskVal (← st.peek TDP_DEFS 0 0) 34 33).toNat
  if nvalues = 2 then configTdp e 2 (← p.configTdpL2) st
  else if nvalues = 1 then configTdp e 1 (← p.configTdpL1) st
  else if nvalues = 0 then ratioLine e p .maxNonTurbo "Non-AVX".toList st
  else return ([], st)

/-- `get_available_frequencies` and `get_available_frequencies_skx`.  The names in the table
of P-states are the source's. -/
def getAvailableFrequencies (e : MsrEnv) (p : FrequencyMsrs) (st : FeatureState) :
    Option (Report × FeatureState) := do
  let (ret, schedule, st) ← getTurboRatioLimits e p (← p.turboRatioLimit1) st
  let (avx, st) ← getAvxLimits e p st
  let (line1, st) ← ratioLine e p .maxNonTurbo "Max Efficiency Ratio".toList st
  let (line2, st) ← ratioLine e p .maxEfficiency "Max Non-Turbo Ratio ".toList st
  let (line3, st) ← ratioLine e p .minOperating "Min Operating Ratio ".toList st
  return (⟨ret ≠ 0, schedule, avx, line1 ++ line2 ++ line3⟩, st)

/-! ### The architectures -/

/-- The architectures whose table entry has the function. -/
inductive Architecture
  | fm062a
  | fm062d
  | fm063e
  | fm063f
  | fm064f
  | fm0655
  | fm069e
  deriving DecidableEq

/-- What `intel_cpu_fm_.._get_frequencies` hands over. -/
def Architecture.msrs : Architecture → FrequencyMsrs
  | fm062a => ⟨false, 0xCE, 0x1AD, none, none, none⟩
  | fm062d => ⟨false, 0xCE, 0x1AD, none, none, none⟩
  | fm063e => ⟨false, 0xCE, 0x1AD, some 0x1AE, none, none⟩
  | fm063f => ⟨false, 0xCE, 0x1AD, some 0x1AE, some 0x649, some 0x64A⟩
  | fm064f => ⟨false, 0xCE, 0x1AD, some 0x1AE, some 0x649, some 0x64A⟩
  | fm0655 => ⟨true, 0xCE, 0x1AD, some 0x1AE, some 0x649, some 0x64A⟩
  | fm069e => ⟨true, 0xCE, 0x1AD, some 0x1AE, some 0x649, some 0x64A⟩

/-- The calls of a process, each with what is in the registers then. -/
def frequencyRun (e : MsrEnv) (p : FrequencyMsrs) :
    FeatureState → List (Nat → Nat → BitVec 64) → Option (List Report × FeatureState)
  | st, [] => some ([], st)
  | st, contents :: rest => do
      let (report, st) ← getAvailableFrequencies e p (st.found contents)
      let (reports, st) ← frequencyRun e p st rest
      return (report :: reports, st)

/-! ### What a call reports -/

section Spec

variable (t : Topology) (p : FrequencyMsrs) (contents : Nat → Nat → BitVec 64)

/-- The register of a socket, as a batch names it. -/
def socketReg (msr : BitVec 32) (i : Nat) : BitVec 64 :=
  narrowed contents (t.cpu i 0 0) msr.toNat

/-- A field, times 100, where the two sockets that are compared agree. -/
def fieldMhz (msr : BitVec 32) (m n : Nat) : Option Nat :=
  let field (i : Nat) : Nat := (maskVal (socketReg t contents msr i) m n).toNat
  if t.nsockets = 1 ∨ field 1 = field 0 then some (field 0 * 100) else none

/-- The same for the three ratios. -/
def ratioMhz : RatioCall → Option Nat
  | .maxNonTurbo => fieldMhz t contents p.platformInfo 15 8
  | .maxEfficiency => fieldMhz t contents p.platformInfo 47 40
  | .minOperating => fieldMhz t contents p.platformInfo 55 48

/-- The levels of TDP, from the two bits of the register of the platform on socket 0. -/
def levels : Nat := (maskVal (socketReg t contents p.platformInfo 0) 34 33).toNat

/-- What is behind the pointer for the level. -/
def levelMsr : Option (BitVec 32) :=
  if levels t p contents = 2 then p.configTdpL2
  else if levels t p contents = 1 then p.configTdpL1
  else none

/-- None of the pointers that the call comes to is NULL. -/
def PointersGiven : Prop :=
  p.turboRatioLimit1.isSome ∧ (levels t p contents = 2 → p.configTdpL2.isSome) ∧
    (levels t p contents = 1 → p.configTdpL1.isSome)

instance : Decidable (PointersGiven t p contents) := by unfold PointersGiven; infer_instance

/-- A line, or none where the function that gives the clock reports an error. -/
def lineOf (label : List Char) (mhz : Option Nat) : List Line :=
  mhz.elim [] fun mhz => [⟨label, mhz⟩]

/-- The second section, where `config_tdp` has the batch of this register. -/
def avxLines (tdp : Option (BitVec 32)) : List Line :=
  let mhz := tdp.bind fun msr => fieldMhz t contents msr 23 16
  if levels t p contents = 2 then lineOf "AVX512 ".toList mhz
  else if levels t p contents = 1 then lineOf "AVX    ".toList mhz
  else if levels t p contents = 0 then
    lineOf "Non-AVX".toList (ratioMhz t p contents .maxNonTurbo)
  else []

/-- The two sockets that are compared have the same registers of the schedule. -/
def LimitsMatch (msr1 : BitVec 32) : Prop :=
  t.nsockets = 1 ∨ (socketReg t contents p.turboRatioLimit 1
      = socketReg t contents p.turboRatioLimit 0 ∧
    socketReg t contents msr1 1 = socketReg t contents msr1 0)

instance (msr1 : BitVec 32) : Decidable (LimitsMatch t p contents msr1) := by
  unfold LimitsMatch; infer_instance

/-- The report from the registers, and from the register that `config_tdp` reads. -/
def reportOf (msr1 : BitVec 32) (tdp : Option (BitVec 32)) : Report where
  mismatch := ¬ LimitsMatch t p contents msr1
  schedule :=
    if LimitsMatch t p contents msr1 then
      p.rows t.ncores (socketReg t contents p.turboRatioLimit 0) (socketReg t contents msr1 0)
    else []
  avx := avxLines t p contents tdp
  pStates := lineOf "Max Efficiency Ratio".toList (ratioMhz t p contents .maxNonTurbo) ++
    lineOf "Max Non-Turbo Ratio ".toList (ratioMhz t p contents .maxEfficiency) ++
    lineOf "Min Operating Ratio ".toList (ratioMhz t p contents .minOperating)

end Spec

/-- The reports of a process in which `config_tdp` has read this register, or none yet: it
keeps the first one. -/
def reportsFrom (t : Topology) (p : FrequencyMsrs) (msr1 : BitVec 32) :
    Option (BitVec 32) → List (Nat → Nat → BitVec 64) → List Report
  | _, [] => []
  | tdp, contents :: rest =>
      let tdp := tdp.or (levelMsr t p contents)
      reportOf t p contents msr1 tdp :: reportsFrom t p msr1 tdp rest

/-! ### BetweenCalls the calls -/

/-- What is loaded into the batches, other than that of `config_tdp`. -/
def FrequencyMsrs.loadOf (p : FrequencyMsrs) (b : Nat) : Option BatchLoad :=
  if b = TURBO_RATIO_LIMIT then some (.socket p.turboRatioLimit)
  else if b = p.secondBatch then p.turboRatioLimit1.map BatchLoad.socket
  else if b ∈ [TDP_DEFS, PLATFORM_INFO, MAX_EFFICIENCY, MIN_OPERATING_RATIO] then
    some (.socket p.platformInfo)
  else none

/-- The batch of `config_tdp` has the register that came first. -/
def TdpHolds (t : Topology) (tdp : Option (BitVec 32)) (st : FeatureState) : Prop :=
  match tdp with
  | none => st.Unused TDP_CONFIG
  | some msr => st.Loaded t TDP_CONFIG [.socket msr]

/-- Every batch is untouched or as it is loaded here. -/
structure BetweenCalls (t : Topology) (p : FrequencyMsrs) (tdp : Option (BitVec 32))
    (st : FeatureState) : Prop where
  kept : ∀ b load, p.loadOf b = some load → st.BatchKept t b [load]
  tdp : TdpHolds t tdp st

section Steps

variable {e : MsrEnv} {t : Topology} {p : FrequencyMsrs} {tdp : Option (BitVec 32)}
variable {st st' : FeatureState} {b m n : Nat} {msr : BitVec 32}

theorem loadOf_tdpConfig (p : FrequencyMsrs) : p.loadOf TDP_CONFIG = none := by
  unfold FrequencyMsrs.loadOf FrequencyMsrs.secondBatch
  cases p.skx with
  | false => rfl
  | true => rfl

theorem TdpHolds.of_sameAt (h : TdpHolds t tdp st) (hsame : FeatureState.SameAt TDP_CONFIG st st') :
    TdpHolds t tdp st' := by
  cases tdp with
  | none => exact FeatureState.Unused.of_sameAt h hsame
  | some msr => exact FeatureState.Loaded.of_sameAt h hsame

/-- A read of one of the batches leaves them as they should be. -/
theorem BetweenCalls.step {load : BatchLoad} (h : BetweenCalls t p tdp st)
    (hload : p.loadOf b = some load)
    (hreads : ReadsOnly b st st') (hloaded : st'.Loaded t b [load]) : BetweenCalls t p tdp st' where
  kept b' load' hload' := by
    by_cases hb : b' = b
    · subst hb
      obtain rfl := Option.some.inj (hload.symm.trans hload')
      exact .inr hloaded
    · exact (h.kept b' load' hload').of_sameAt (hreads.sameBut.sameAt hb)
  tdp := by
    have hne : TDP_CONFIG ≠ b := by
      rintro rfl
      rw [loadOf_tdpConfig] at hload
      cases hload
    exact h.tdp.of_sameAt (hreads.sameBut.sameAt hne)

/-- With nothing refused ever, nothing is refused in a read. -/
theorem ReadsOnly.clean (hnever : ∀ k a, e.driver.fails k a = false) (h : ReadsOnly b st st') :
    st.msr.machine.Clean e.driver st'.msr.machine :=
  clean_of_never hnever h.grows

/-- **A ratio**, where nothing is refused. -/
theorem getRatio_never (hnever : ∀ k a, e.driver.fails k a = false)
    (hst : st.BatchKept e.topo b [.socket msr]) (hb : b + 1 < 2 ^ 31) :
    ∃ ret val st', getRatio e b m n msr st = some (ret, val, st') ∧
      st'.Loaded e.topo b [.socket msr] ∧ ReadsOnly b st st' ∧
      (ret, val) = (fieldMhz e.topo st.msr.machine.msr msr m n).elim
        (VariorumError.inval.code, 0) fun mhz => (0, (mhz : Int)) := by
  obtain ⟨ret, val, st', hrun, hloaded, hreads, hvalue⟩ := getRatio_spec (m := m) (n := n) hst hb
  refine ⟨ret, val, st', hrun, hloaded, hreads, (hvalue (ReadsOnly.clean hnever hreads)).trans ?_⟩
  unfold fieldMhz socketReg
  split
  · next h =>
      rw [if_pos h]
      rfl
  · next h =>
      rw [if_neg h]
      rfl

/-- **The line of a ratio.** -/
theorem ratioLine_spec (hnever : ∀ k a, e.driver.fails k a = false)
    (h : BetweenCalls e.topo p tdp st)
    (c : RatioCall) (label : List Char) :
    ∃ st', ratioLine e p c label st
        = some (lineOf label (ratioMhz e.topo p st.msr.machine.msr c), st') ∧
      BetweenCalls e.topo p tdp st' ∧ st'.msr.machine.msr = st.msr.machine.msr := by
  -- the three ratios are fields of one register, each read through a batch of its own
  have hline : ∀ b m n, p.loadOf b = some (.socket p.platformInfo) → b + 1 < 2 ^ 31 →
      ratioOf e p st c = getRatio e b m n p.platformInfo st →
      ratioMhz e.topo p st.msr.machine.msr c
        = fieldMhz e.topo st.msr.machine.msr p.platformInfo m n →
      ∃ st', ratioLine e p c label st
          = some (lineOf label (ratioMhz e.topo p st.msr.machine.msr c), st') ∧
        BetweenCalls e.topo p tdp st' ∧ st'.msr.machine.msr = st.msr.machine.msr := by
    intro b m n hload hb hrun hmhz
    obtain ⟨ret, val, st', hratio, hloaded, hreads, hvalue⟩ :=
      getRatio_never (m := m) (n := n) hnever (h.kept b _ hload) hb
    refine ⟨st', ?_, h.step hload hreads hloaded, hreads.contents⟩
    rw [ratioLine, hrun, hratio, hmhz]
    cases hfield : fieldMhz e.topo st.msr.machine.msr p.platformInfo m n with
    | none =>
        rw [hfield] at hvalue
        obtain ⟨rfl, rfl⟩ := Prod.mk.inj hvalue
        rfl
    | some mhz =>
        rw [hfield] at hvalue
        obtain ⟨rfl, rfl⟩ := Prod.mk.inj hvalue
        rfl
  have hload : ∀ b ∈ [PLATFORM_INFO, MAX_EFFICIENCY, MIN_OPERATING_RATIO],
      p.loadOf b = some (.socket p.platformInfo) := by
    unfold FrequencyMsrs.loadOf FrequencyMsrs.secondBatch
    cases p.skx with
    | false => simp +decide
    | true => simp +decide
  cases c with
  | maxNonTurbo => exact hline _ 15 8 (hload _ (by simp)) (by decide) rfl rfl
  | maxEfficiency => exact hline _ 47 40 (hload _ (by simp)) (by decide) rfl rfl
  | minOperating => exact hline _ 55 48 (hload _ (by simp)) (by decide) rfl rfl

/-- A read of a loaded batch. -/
theorem read_never (hnever : ∀ k a, e.driver.fails k a = false)
    (h : st.Loaded e.topo b [.socket msr]) (hb : b + 1 < 2 ^ 31) :
    ∃ st', st.read e b = some (0, st') ∧ st'.Loaded e.topo b [.socket msr] ∧ ReadsOnly b st st' ∧
      ∀ i : Nat, i < e.topo.nsockets →
        st'.peek b 0 i = some (socketReg e.topo st.msr.machine.msr msr i) := by
  obtain ⟨err, st', hrun, hloaded, hreads, hvalues⟩ := h.readValues hb (List.cons_ne_nil _ _)
  obtain ⟨rfl, hentries⟩ := hvalues (ReadsOnly.clean hnever hreads)
  refine ⟨st', hrun, hloaded, hreads, fun i hi => ?_⟩
  rw [hentries 0 _ rfl i hi, socketReg, Topology.cpu_socket]
  rfl

/-- The batch of `config_tdp` is loaded with the register that came first. -/
theorem TdpHolds.kept (h : TdpHolds t tdp st) (given : BitVec 32) :
    st.BatchKept t TDP_CONFIG [.socket (tdp.getD given)] := by
  cases tdp with
  | none => exact .inl h
  | some msr => exact .inr h

/-- So it does not matter what it is called with. -/
theorem TdpHolds.getRatio_eq (h : TdpHolds t tdp st) (given : BitVec 32) :
    getRatio e TDP_CONFIG m n given st = getRatio e TDP_CONFIG m n (tdp.getD given) st := by
  cases tdp with
  | none => rfl
  | some msr =>
      obtain ⟨ops, hholds⟩ := h
      obtain ⟨-, -, vals, -, hvals, -⟩ := hholds.place
      have hinit : ∀ loads, initBatch e.topo TDP_CONFIG e.topo.nsockets loads st = some st := by
        intro loads
        rw [initBatch, hvals]
      rw [getRatio, getRatio, hinit, hinit]

/-- **`config_tdp`** reads the register that its batch has. -/
theorem configTdp_spec (hnever : ∀ k a, e.driver.fails k a = false)
    (h : BetweenCalls e.topo p tdp st) (given : BitVec 32) {nlevels : Nat}
    (hlevels : nlevels = 1 ∨ nlevels = 2) :
    ∃ st', configTdp e nlevels given st = some
        (lineOf (if nlevels = 2 then "AVX512 ".toList else "AVX    ".toList)
            (fieldMhz e.topo st.msr.machine.msr (tdp.getD given) 23 16), st') ∧
      BetweenCalls e.topo p (some (tdp.getD given)) st' ∧
      st'.msr.machine.msr = st.msr.machine.msr := by
  obtain ⟨ret, val, st', hrun, hloaded, hreads, hvalue⟩ :=
    getRatio_never (m := 23) (n := 16) hnever (h.tdp.kept given) (by decide)
  rw [← h.tdp.getRatio_eq] at hrun
  generalize tdp.getD given = reg at hloaded hvalue ⊢
  refine ⟨st', ?_, ⟨fun b load hload => ?_, hloaded⟩, hreads.contents⟩
  · rw [configTdp, hrun]
    cases hfield : fieldMhz e.topo st.msr.machine.msr reg 23 16 with
    | none =>
        rw [hfield] at hvalue
        obtain ⟨rfl, rfl⟩ := Prod.mk.inj hvalue
        rfl
    | some mhz =>
        rw [hfield] at hvalue
        obtain ⟨rfl, rfl⟩ := Prod.mk.inj hvalue
        rcases hlevels with rfl | rfl
        · rfl
        · rfl
  · have hne : b ≠ TDP_CONFIG := by
      rintro rfl
      rw [loadOf_tdpConfig] at hload
      cases hload
    exact (h.kept b load hload).of_sameAt (hreads.sameBut.sameAt hne)

/-- `get_avx_limits` up to its branches. -/
theorem getAvxLimits_eq (hnever : ∀ k a, e.driver.fails k a = false)
    (h : BetweenCalls e.topo p tdp st) :
    ∃ st', BetweenCalls e.topo p tdp st' ∧ st'.msr.machine.msr = st.msr.machine.msr ∧
      getAvxLimits e p st
        = (let nvalues := levels e.topo p st.msr.machine.msr
          if nvalues = 2 then p.configTdpL2.bind fun msr => configTdp e 2 msr st'
          else if nvalues = 1 then p.configTdpL1.bind fun msr => configTdp e 1 msr st'
          else if nvalues = 0 then ratioLine e p .maxNonTurbo "Non-AVX".toList st'
          else some ([], st')) := by
  have hload : p.loadOf TDP_DEFS = some (.socket p.platformInfo) := by
    unfold FrequencyMsrs.loadOf FrequencyMsrs.secondBatch
    cases p.skx with
    | false => rfl
    | true => rfl
  have hroom : ([BatchLoad.socket p.platformInfo].map fun load => load.count e.topo).sum
      ≤ e.topo.nsockets % 2 ^ 32 := (BatchLoad.socket p.platformInfo).count_mod e.topo
  obtain ⟨st₁, hinit, hloaded₁, hreads₁⟩ := (h.kept _ _ hload).init (by decide) hroom
  obtain ⟨st₂, hread, hloaded₂, hreads₂, hvalues⟩ := read_never hnever hloaded₁ (by decide)
  have hreads := hreads₁.trans hreads₂
  refine ⟨st₂, h.step hload hreads hloaded₂, hreads.contents, ?_⟩
  have hzero : st₂.peek TDP_DEFS 0 0
      = some (socketReg e.topo st.msr.machine.msr p.platformInfo 0) := by
    rw [← hreads₁.contents]
    exact hvalues 0 e.topo.nsockets_pos
  rw [getAvxLimits, hinit]
  simp only [Option.bind_eq_bind, Option.bind_some, hread, hzero]
  rw [if_neg (not_not.mpr rfl)]
  rfl

/-- **`get_avx_limits`** comes to its end if the pointer for the level is not NULL. -/
theorem getAvxLimits_spec (hnever : ∀ k a, e.driver.fails k a = false)
    (h : BetweenCalls e.topo p tdp st)
    (hgiven : (levels e.topo p st.msr.machine.msr = 2 → p.configTdpL2.isSome) ∧
      (levels e.topo p st.msr.machine.msr = 1 → p.configTdpL1.isSome)) :
    let tdp' := tdp.or (levelMsr e.topo p st.msr.machine.msr)
    ∃ st', getAvxLimits e p st = some (avxLines e.topo p st.msr.machine.msr tdp', st') ∧
      BetweenCalls e.topo p tdp' st' ∧ st'.msr.machine.msr = st.msr.machine.msr := by
  obtain ⟨st₁, h₁, hcontents, hrun⟩ := getAvxLimits_eq hnever h
  rw [hrun]
  unfold avxLines levelMsr
  rw [← hcontents] at hgiven ⊢
  generalize levels e.topo p st₁.msr.machine.msr = nvalues at hgiven ⊢
  -- the number of levels says which of the two registers is read, if any
  by_cases htwo : nvalues = 2
  · obtain ⟨msr, hmsr⟩ := Option.isSome_iff_exists.mp (hgiven.1 htwo)
    obtain ⟨st', hconfig, h', hcontents'⟩ :=
      configTdp_spec hnever h₁ msr (show 2 = 1 ∨ 2 = 2 from .inr rfl)
    simp only [htwo, if_true, hmsr, Option.bind_some, Option.or_some]
    exact ⟨st', hconfig, h', hcontents'⟩
  · by_cases hone : nvalues = 1
    · obtain ⟨msr, hmsr⟩ := Option.isSome_iff_exists.mp (hgiven.2 hone)
      obtain ⟨st', hconfig, h', hcontents'⟩ :=
        configTdp_spec hnever h₁ msr (show 1 = 1 ∨ 1 = 2 from .inl rfl)
      have hne : ¬ (1 : Nat) = 2 := by decide
      simp only [hone, if_neg hne, if_true, hmsr, Option.bind_some, Option.or_some] at hconfig ⊢
      exact ⟨st', hconfig, h', hcontents'⟩
    · simp only [if_neg htwo, if_neg hone, Option.or_none]
      by_cases hzero : nvalues = 0
      · obtain ⟨st', hline, h', hcontents'⟩ :=
          ratioLine_spec hnever h₁ .maxNonTurbo "Non-AVX".toList
        rw [if_pos hzero, if_pos hzero]
        exact ⟨st', hline, h', hcontents'⟩
      · rw [if_neg hzero, if_neg hzero]
        exact ⟨st₁, rfl, h₁, rfl⟩

/-- And it does not if it is. -/
theorem getAvxLimits_null (hnever : ∀ k a, e.driver.fails k a = false)
    (h : BetweenCalls e.topo p tdp st)
    (hnull : ¬ ((levels e.topo p st.msr.machine.msr = 2 → p.configTdpL2.isSome) ∧
      (levels e.topo p st.msr.machine.msr = 1 → p.configTdpL1.isSome))) :
    getAvxLimits e p st = none := by
  obtain ⟨st₁, -, -, hrun⟩ := getAvxLimits_eq hnever h
  rw [hrun]
  generalize levels e.topo p st.msr.machine.msr = nvalues at hnull ⊢
  by_cases htwo : nvalues = 2
  · subst htwo
    have hnone : p.configTdpL2 = none := by
      by_contra hsome
      exact hnull ⟨fun _ => Option.isSome_iff_ne_none.mpr hsome, fun h => absurd h (by decide)⟩
    simp [hnone]
  · by_cases hone : nvalues = 1
    · subst hone
      have hnone : p.configTdpL1 = none := by
        by_contra hsome
        exact hnull ⟨fun h => absurd h (by decide), fun _ => Option.isSome_iff_ne_none.mpr hsome⟩
      simp [hnone]
    · exact absurd ⟨fun h => absurd h htwo, fun h => absurd h hone⟩ hnull

/-- The second batch is none of the others. -/
theorem secondBatch_ne (p : FrequencyMsrs) : p.secondBatch ≠ TURBO_RATIO_LIMIT := by
  unfold FrequencyMsrs.secondBatch
  cases p.skx with
  | false => decide
  | true => decide

theorem secondBatch_lt (p : FrequencyMsrs) : p.secondBatch + 1 < 2 ^ 31 := by
  unfold FrequencyMsrs.secondBatch
  cases p.skx with
  | false => decide
  | true => decide

/-- `get_turbo_ratio_limits` up to its comparison: two batches are loaded, and then both
are read. -/
theorem getTurboRatioLimits_eq (hnever : ∀ k a, e.driver.fails k a = false)
    (h : BetweenCalls e.topo p tdp st) {msr1 : BitVec 32} (hmsr1 : p.turboRatioLimit1 = some msr1) :
    let reg := socketReg e.topo st.msr.machine.msr p.turboRatioLimit
    let reg1 := socketReg e.topo st.msr.machine.msr msr1
    ∃ st', BetweenCalls e.topo p tdp st' ∧ st'.msr.machine.msr = st.msr.machine.msr ∧
      (∀ i : Nat, i < e.topo.nsockets → st'.peek TURBO_RATIO_LIMIT 0 i = some (reg i)) ∧
      (∀ i : Nat, i < e.topo.nsockets → st'.peek p.secondBatch 0 i = some (reg1 i)) ∧
      getTurboRatioLimits e p msr1 st
        = if e.topo.nsockets ≠ 1 then
            (st'.peek TURBO_RATIO_LIMIT 0 1).bind fun other =>
              (st'.peek p.secondBatch 0 1).bind fun other2 =>
                if reg 0 ≠ other ∨ reg1 0 ≠ other2 then
                  some (VariorumError.inval.code, [], st')
                else some (0, p.rows e.topo.ncores (reg 0) (reg1 0), st')
          else some (0, p.rows e.topo.ncores (reg 0) (reg1 0), st') := by
  intro reg reg1
  have hne := secondBatch_ne p
  have hlt := secondBatch_lt p
  have hload : p.loadOf TURBO_RATIO_LIMIT = some (.socket p.turboRatioLimit) := if_pos rfl
  have hload1 : p.loadOf p.secondBatch = some (.socket msr1) := by
    rw [FrequencyMsrs.loadOf, if_neg hne, if_pos rfl, hmsr1]
    rfl
  have hroom : ∀ msr, ([BatchLoad.socket msr].map fun load => load.count e.topo).sum
      ≤ e.topo.nsockets % 2 ^ 32 := fun msr => (BatchLoad.socket msr).count_mod e.topo
  -- the two batches are loaded one after the other, and then read one after the other
  obtain ⟨st₁, hinit₁, hloaded₁, hreads₁⟩ := (h.kept _ _ hload).init (by decide) (hroom _)
  have h₁ := h.step hload hreads₁ hloaded₁
  obtain ⟨st₂, hinit₂, hloaded₂, hreads₂⟩ := (h₁.kept _ _ hload1).init hlt (hroom _)
  have h₂ := h₁.step hload1 hreads₂ hloaded₂
  have hfirst : st₂.Loaded e.topo TURBO_RATIO_LIMIT [.socket p.turboRatioLimit] :=
    hloaded₁.of_sameBut hreads₂.sameBut hne.symm
  obtain ⟨st₃, hread₃, hloaded₃, hreads₃, hvalues₃⟩ := read_never hnever hfirst (by decide)
  have h₃ := h₂.step hload hreads₃ hloaded₃
  have hsecond : st₃.Loaded e.topo p.secondBatch [.socket msr1] :=
    hloaded₂.of_sameBut hreads₃.sameBut hne
  obtain ⟨st₄, hread₄, hloaded₄, hreads₄, hvalues₄⟩ := read_never hnever hsecond hlt
  have hcontents₂ : st₂.msr.machine.msr = st.msr.machine.msr :=
    hreads₂.contents.trans hreads₁.contents
  have hcontents₃ : st₃.msr.machine.msr = st.msr.machine.msr := hreads₃.contents.trans hcontents₂
  rw [hcontents₂] at hvalues₃
  rw [hcontents₃] at hvalues₄
  -- reading the second batch leaves what was read of the first
  have hpeek : ∀ i : Nat, i < e.topo.nsockets → st₄.peek TURBO_RATIO_LIMIT 0 i = some (reg i) := by
    intro i hi
    rw [(hreads₄.sameBut.sameAt hne.symm).peek]
    exact hvalues₃ i hi
  have hzero : st₄.peek TURBO_RATIO_LIMIT 0 0 = some (reg 0) := hpeek 0 e.topo.nsockets_pos
  have hzero1 : st₄.peek p.secondBatch 0 0 = some (reg1 0) := hvalues₄ 0 e.topo.nsockets_pos
  refine ⟨st₄, h₃.step hload1 hreads₄ hloaded₄, hreads₄.contents.trans hcontents₃, hpeek,
    hvalues₄, ?_⟩
  simp only [getTurboRatioLimits, hinit₁, hinit₂, hread₃, hread₄, hzero, hzero1,
    Option.bind_eq_bind, Option.bind_some]
  rfl

/-- **The schedule.**  Both registers of sockets 0 and 1 are compared as a whole. -/
theorem getTurboRatioLimits_spec (hnever : ∀ k a, e.driver.fails k a = false)
    (h : BetweenCalls e.topo p tdp st) {msr1 : BitVec 32} (hmsr1 : p.turboRatioLimit1 = some msr1) :
    ∃ ret st', getTurboRatioLimits e p msr1 st
        = some (ret, (reportOf e.topo p st.msr.machine.msr msr1 none).schedule, st') ∧
      decide (ret ≠ 0) = (reportOf e.topo p st.msr.machine.msr msr1 none).mismatch ∧
      BetweenCalls e.topo p tdp st' ∧ st'.msr.machine.msr = st.msr.machine.msr := by
  obtain ⟨st', h', hcontents, hpeek, hpeek1, hrun⟩ := getTurboRatioLimits_eq hnever h hmsr1
  rw [hrun]
  by_cases hone : e.topo.nsockets = 1
  · have hmatch : LimitsMatch e.topo p st.msr.machine.msr msr1 := .inl hone
    refine ⟨0, st', ?_, ?_, h', hcontents⟩
    · rw [if_neg (not_not.mpr hone), reportOf, if_pos hmatch]
    · simp [reportOf, hmatch]
  · have hother : (1 : Nat) < e.topo.nsockets := by have := e.topo.nsockets_pos; omega
    rw [if_pos hone]
    have hpeek := hpeek 1 hother
    have hpeek1 := hpeek1 1 hother
    simp only [Nat.cast_one] at hpeek hpeek1
    rw [hpeek, hpeek1, Option.bind_some, Option.bind_some]
    by_cases hmatch : LimitsMatch e.topo p st.msr.machine.msr msr1
    · obtain ⟨hsame, hsame1⟩ := hmatch.resolve_left hone
      refine ⟨0, st', ?_, ?_, h', hcontents⟩
      · rw [if_neg, reportOf, if_pos hmatch]
        rw [hsame, hsame1]
        simp
      · simp [reportOf, hmatch]
    · refine ⟨VariorumError.inval.code, st', ?_, ?_, h', hcontents⟩
      · rw [if_pos, reportOf, if_neg hmatch]
        rw [← not_and_or]
        exact fun hsame => hmatch (.inr ⟨hsame.1.symm, hsame.2.symm⟩)
      · simp only [reportOf, hmatch, not_false_eq_true]
        decide

/-- **A call** that finds every pointer given. -/
theorem getAvailableFrequencies_spec (hnever : ∀ k a, e.driver.fails k a = false)
    (h : BetweenCalls e.topo p tdp st) {msr1 : BitVec 32} (hmsr1 : p.turboRatioLimit1 = some msr1)
    (hgiven : PointersGiven e.topo p st.msr.machine.msr) :
    let tdp' := tdp.or (levelMsr e.topo p st.msr.machine.msr)
    ∃ st', getAvailableFrequencies e p st
        = some (reportOf e.topo p st.msr.machine.msr msr1 tdp', st') ∧
      BetweenCalls e.topo p tdp' st' := by
  intro tdp'
  obtain ⟨ret, st₁, hlimits, hmismatch, h₁, hcontents₁⟩ := getTurboRatioLimits_spec hnever h hmsr1
  obtain ⟨st₂, havx, h₂, hcontents₂⟩ := getAvxLimits_spec hnever h₁ (hcontents₁ ▸ hgiven.2)
  obtain ⟨st₃, hline₁, h₃, hcontents₃⟩ :=
    ratioLine_spec hnever h₂ .maxNonTurbo "Max Efficiency Ratio".toList
  obtain ⟨st₄, hline₂, h₄, hcontents₄⟩ :=
    ratioLine_spec hnever h₃ .maxEfficiency "Max Non-Turbo Ratio ".toList
  obtain ⟨st₅, hline₃, h₅, -⟩ :=
    ratioLine_spec hnever h₄ .minOperating "Min Operating Ratio ".toList
  simp only [hcontents₁, hcontents₂, hcontents₃, hcontents₄] at havx h₂ hline₁ hline₂ hline₃ h₅
  refine ⟨st₅, ?_, h₅⟩
  rw [getAvailableFrequencies, hmsr1]
  simp only [Option.bind_eq_bind, Option.bind_some, hlimits, havx, hline₁, hline₂, hline₃,
    hmismatch]
  rfl

/-- A call that comes to a NULL does not come to its end. -/
theorem getAvailableFrequencies_null (hnever : ∀ k a, e.driver.fails k a = false)
    (h : BetweenCalls e.topo p tdp st) (hnull : ¬ PointersGiven e.topo p st.msr.machine.msr) :
    getAvailableFrequencies e p st = none := by
  rw [getAvailableFrequencies]
  cases hmsr1 : p.turboRatioLimit1 with
  | none => rfl
  | some msr1 =>
      obtain ⟨ret, st₁, hlimits, -, h₁, hcontents₁⟩ := getTurboRatioLimits_spec hnever h hmsr1
      have havx : getAvxLimits e p st₁ = none := by
        apply getAvxLimits_null hnever h₁
        rw [hcontents₁]
        exact fun hgiven => hnull ⟨by rw [hmsr1]; rfl, hgiven⟩
      simp only [Option.bind_eq_bind, Option.bind_some, hlimits, havx, Option.bind_none]

/-- What the next call finds in the registers is no matter of the batches. -/
theorem BetweenCalls.found (h : BetweenCalls t p tdp st) (contents : Nat → Nat → BitVec 64) :
    BetweenCalls t p tdp (st.found contents) where
  kept b load hload := (h.kept b load hload).found contents
  tdp := h.tdp.of_sameAt ⟨rfl, rfl⟩

/-- **The calls of a process**, by induction on them. -/
theorem frequencyRun_spec (hnever : ∀ k a, e.driver.fails k a = false)
    (h : BetweenCalls e.topo p tdp st) (founds : List (Nat → Nat → BitVec 64)) :
    ((frequencyRun e p st founds).isSome ↔ ∀ contents ∈ founds, PointersGiven e.topo p contents) ∧
      ∀ reports st', frequencyRun e p st founds = some (reports, st') →
        ∀ msr1, p.turboRatioLimit1 = some msr1 →
          reports = reportsFrom e.topo p msr1 tdp founds := by
  -- by induction on the calls: the first one ends or not, and the rest start from what it left
  induction founds generalizing tdp st with
  | nil =>
      refine ⟨iff_of_true rfl nofun, fun reports st' hrun msr1 _ => ?_⟩
      exact (Prod.mk.inj (Option.some.inj hrun)).1.symm
  | cons contents rest ih =>
      have h' := h.found contents
      -- without the pointers of these registers the process ends in this call
      by_cases hgiven : PointersGiven e.topo p contents
      · obtain ⟨msr1, hmsr1⟩ := Option.isSome_iff_exists.mp hgiven.1
        obtain ⟨st₁, hcall, h₁⟩ := getAvailableFrequencies_spec hnever h' hmsr1 hgiven
        obtain ⟨hsome, hreports⟩ := ih h₁
        rw [frequencyRun, hcall]
        cases hrest : frequencyRun e p st₁ rest with
        | none =>
            rw [hrest] at hsome
            refine ⟨?_, fun reports st' hrun => ?_⟩
            · refine iff_of_false (by simp [hrest]) fun hall => ?_
              cases hsome.mpr fun c hc => hall c (List.mem_cons_of_mem _ hc)
            · simp [hrest] at hrun
        | some result =>
            obtain ⟨reports', st'⟩ := result
            rw [hrest] at hsome
            refine ⟨iff_of_true (by simp [hrest]) ?_, fun reports st'' hrun msr1' hmsr1' => ?_⟩
            · exact List.forall_mem_cons.mpr ⟨hgiven, hsome.mp rfl⟩
            · obtain rfl := Option.some.inj (hmsr1.symm.trans hmsr1')
              simp only [Option.bind_eq_bind, Option.bind_some, hrest] at hrun
              rw [← (Prod.mk.inj (Option.some.inj hrun)).1, hreports _ _ hrest _ hmsr1]
              rfl
      · have hcall := getAvailableFrequencies_null hnever h' hgiven
        rw [frequencyRun, hcall]
        refine ⟨iff_of_false Bool.false_ne_true fun hall => ?_, fun _ _ hrun => ?_⟩
        · exact hgiven (hall contents List.mem_cons_self)
        · cases hrun

end Steps

/-! ### Who gets to the end -/

/-- A process that has called none of these functions yet. -/
theorem BetweenCalls.start (t : Topology) (p : FrequencyMsrs) : BetweenCalls t p none .start :=
  ⟨fun _ _ _ => .inl ⟨rfl, rfl⟩, ⟨rfl, rfl⟩⟩

/-- **Who gets to the end.**  Where no access is refused, at any point of a process the
next calls all return exactly if the architecture is neither 06_2A nor 06_2D and, if it
is 06_3E, no call finds one or two levels of TDP.  Otherwise one of them looks behind a
NULL. -/
theorem availableFrequencies_ends_iff {e : MsrEnv} (hnever : ∀ k a, e.driver.fails k a = false)
    (a : Architecture) {tdp : Option (BitVec 32)} {st : FeatureState}
    (h : BetweenCalls e.topo a.msrs tdp st) (founds : List (Nat → Nat → BitVec 64)) :
    (frequencyRun e a.msrs st founds).isSome ↔
      founds = [] ∨ (a ≠ .fm062a ∧ a ≠ .fm062d ∧
        (a = .fm063e → ∀ contents ∈ founds,
          levels e.topo a.msrs contents ≠ 1 ∧ levels e.topo a.msrs contents ≠ 2)) := by
  rw [(frequencyRun_spec hnever h founds).1]
  -- without the second turbo register not even one call ends
  have hnone : a.msrs.turboRatioLimit1 = none →
      ((∀ contents ∈ founds, PointersGiven e.topo a.msrs contents) ↔ founds = []) := by
    intro hnull
    rw [List.eq_nil_iff_forall_not_mem]
    refine forall_congr' fun contents => imp_congr_right fun _ => iff_of_false ?_ id
    rintro ⟨hsome, -⟩
    rw [hnull] at hsome
    cases hsome
  -- with all the registers every call does
  have hall : a.msrs.turboRatioLimit1.isSome → a.msrs.configTdpL1.isSome →
      a.msrs.configTdpL2.isSome → ∀ contents ∈ founds, PointersGiven e.topo a.msrs contents :=
    fun hmsr1 hl1 hl2 _ _ => ⟨hmsr1, fun _ => hl2, fun _ => hl1⟩
  cases a with
  | fm062a => simp [hnone rfl]
  | fm062d => simp [hnone rfl]
  | fm063e =>
      -- only here do the levels that the registers report decide
      have hgiven : ∀ contents, PointersGiven e.topo Architecture.fm063e.msrs contents ↔
          levels e.topo Architecture.fm063e.msrs contents ≠ 1 ∧
            levels e.topo Architecture.fm063e.msrs contents ≠ 2 := by
        intro contents
        have hnull1 : ¬ Architecture.fm063e.msrs.configTdpL1.isSome := Bool.false_ne_true
        have hnull2 : ¬ Architecture.fm063e.msrs.configTdpL2.isSome := Bool.false_ne_true
        constructor
        · exact fun h => ⟨fun hone => hnull1 (h.2.2 hone), fun htwo => hnull2 (h.2.1 htwo)⟩
        · exact fun h => ⟨rfl, fun htwo => absurd htwo h.2, fun hone => absurd hone h.1⟩
      refine (forall₂_congr fun contents _ => hgiven contents).trans ⟨fun h => ?_, ?_⟩
      · exact .inr ⟨by decide, by decide, fun _ => h⟩
      · rintro (rfl | ⟨-, -, h⟩) contents hmem
        · cases hmem
        · exact h rfl contents hmem
  | fm063f =>
      exact iff_of_true (hall rfl rfl rfl) (.inr ⟨by decide, by decide, fun h => by cases h⟩)
  | fm064f =>
      exact iff_of_true (hall rfl rfl rfl) (.inr ⟨by decide, by decide, fun h => by cases h⟩)
  | fm0655 =>
      exact iff_of_true (hall rfl rfl rfl) (.inr ⟨by decide, by decide, fun h => by cases h⟩)
  | fm069e =>
      exact iff_of_true (hall rfl rfl rfl) (.inr ⟨by decide, by decide, fun h => by cases h⟩)

theorem availableFrequencies_ends_one :
    (frequencyRun twoSocketEnv Architecture.fm062a.msrs .start [fun _ _ => 0]).isSome = false ∧
      (frequencyRun twoSocketEnv Architecture.fm063e.msrs .start [fun _ _ => 0]).isSome = true := by
  have hends (a : Architecture) := @availableFrequencies_ends_iff twoSocketEnv (fun _ _ => rfl) a
    none .start (.start _ _) [fun _ _ => 0]
  constructor
  · rw [Bool.eq_false_iff, ne_eq, hends]
    decide
  · rw [hends]
    refine .inr ⟨by decide, by decide, fun _ contents hmem => ?_⟩
    obtain rfl := List.mem_singleton.mp hmem
    decide

/-! ### What is reported -/

section Reports

variable {t : Topology} {p : FrequencyMsrs} {msr1 : BitVec 32} {tdp : Option (BitVec 32)}
variable {contents : Nat → Nat → BitVec 64}

/-- The register that `config_tdp` reads in the `k`-th call, if it has been called by then. -/
def keptMsr (t : Topology) (p : FrequencyMsrs) (tdp : Option (BitVec 32))
    (founds : List (Nat → Nat → BitVec 64)) (k : Nat) : Option (BitVec 32) :=
  tdp.or ((founds.take (k + 1)).findSome? (levelMsr t p))

/-- The table of P-states with each ratio under its own name. -/
def namedPStates (t : Topology) (p : FrequencyMsrs) (contents : Nat → Nat → BitVec 64) :
    List Line :=
  lineOf "Max Efficiency Ratio".toList (ratioMhz t p contents .maxEfficiency) ++
    lineOf "Max Non-Turbo Ratio ".toList (ratioMhz t p contents .maxNonTurbo) ++
    lineOf "Min Operating Ratio ".toList (ratioMhz t p contents .minOperating)

/-- **The report of a call**, by induction on those before it. -/
theorem reportsFrom_getElem? (founds : List (Nat → Nat → BitVec 64)) (k : Nat) :
    (reportsFrom t p msr1 tdp founds)[k]? = founds[k]?.map fun contents =>
      reportOf t p contents msr1 (keptMsr t p tdp founds k) := by
  induction founds generalizing tdp k with
  | nil => rfl
  | cons contents rest ih =>
      cases k with
      | zero =>
          simp only [reportsFrom, List.getElem?_cons_zero, Option.map_some, keptMsr,
            List.take_succ_cons, List.take_zero, List.findSome?_cons, List.findSome?_nil]
          cases levelMsr t p contents with
          | none => rfl
          | some msr => rfl
      | succ k =>
          rw [reportsFrom, List.getElem?_cons_succ, ih, List.getElem?_cons_succ]
          simp only [keptMsr, List.take_succ_cons, List.findSome?_cons]
          cases tdp with
          | some msr => rfl
          | none =>
              cases levelMsr t p contents with
              | none => rfl
              | some msr => rfl

theorem lineOf_injective (label : List Char) : Function.Injective (lineOf label) := by
  intro mhz mhz' h
  cases mhz with
  | none =>
      cases mhz' with
      | none => rfl
      | some y => cases h
  | some x =>
      cases mhz' with
      | none => cases h
      | some y => exact congrArg some (Line.mk.inj (List.cons.inj h).1).2

/-- Two names are exchanged, so their lines are right when the ratios are the same. -/
theorem pStates_iff (tdp : Option (BitVec 32)) :
    (reportOf t p contents msr1 tdp).pStates = namedPStates t p contents ↔
      ratioMhz t p contents .maxNonTurbo = ratioMhz t p contents .maxEfficiency := by
  have hlabels : "Max Efficiency Ratio".toList ≠ "Max Non-Turbo Ratio ".toList := by decide
  unfold reportOf namedPStates
  rw [List.append_left_inj]
  generalize ratioMhz t p contents .maxNonTurbo = x
  generalize ratioMhz t p contents .maxEfficiency = y
  cases x with
  | none =>
      cases y with
      | none => exact iff_of_true rfl rfl
      | some y =>
          refine iff_of_false (fun h => hlabels ?_) nofun
          exact (Line.mk.inj (List.cons.inj h).1).1.symm
  | some x =>
      cases y with
      | none =>
          refine iff_of_false (fun h => hlabels ?_) nofun
          exact (Line.mk.inj (List.cons.inj h).1).1
      | some y =>
          refine ⟨fun h => congrArg some (Line.mk.inj (List.cons.inj h).1).2, fun h => ?_⟩
          obtain rfl := Option.some.inj h
          rfl

/-- The AVX line is that of the register for the level when the register kept has the same
field. -/
theorem avx_iff (tdp : Option (BitVec 32)) :
    (reportOf t p contents msr1 tdp).avx = avxLines t p contents (levelMsr t p contents) ↔
      (levels t p contents = 1 ∨ levels t p contents = 2 →
        (tdp.bind fun msr => fieldMhz t contents msr 23 16)
          = (levelMsr t p contents).bind fun msr => fieldMhz t contents msr 23 16) := by
  unfold reportOf avxLines
  by_cases htwo : levels t p contents = 2
  · simp only [htwo, if_true, or_true, forall_const]
    exact (lineOf_injective _).eq_iff
  · by_cases hone : levels t p contents = 1
    · simp only [hone, if_neg (show ¬ (1 : Nat) = 2 by decide), if_true, true_or, forall_const]
      exact (lineOf_injective _).eq_iff
    · simp only [htwo, hone, if_false, or_self, false_implies]

end Reports

/-- **What a process prints**, where no access is refused.  In every call of a run the
report is that of the registers that the call finds, on the CPUs that batches name, but
for the register of `config_tdp`, which is the first one that any call of the process
came to.  So the AVX line is right when this register has the field of the one for the
level, and the table of P-states when the two ratios whose names are exchanged are the
same. -/
theorem availableFrequencies_reports {e : MsrEnv} {p : FrequencyMsrs}
    {tdp : Option (BitVec 32)} {st st' : FeatureState} {msr1 : BitVec 32}
    {founds : List (Nat → Nat → BitVec 64)} {reports : List Report}
    (hnever : ∀ k a, e.driver.fails k a = false) (h : BetweenCalls e.topo p tdp st)
    (hmsr1 : p.turboRatioLimit1 = some msr1)
    (hrun : frequencyRun e p st founds = some (reports, st')) :
    reports.length = founds.length ∧
      ∀ k contents report, founds[k]? = some contents → reports[k]? = some report →
        report = reportOf e.topo p contents msr1 (keptMsr e.topo p tdp founds k) ∧
        (report.pStates = namedPStates e.topo p contents ↔
          ratioMhz e.topo p contents .maxNonTurbo = ratioMhz e.topo p contents .maxEfficiency) ∧
        (report.avx = avxLines e.topo p contents (levelMsr e.topo p contents) ↔
          (levels e.topo p contents = 1 ∨ levels e.topo p contents = 2 →
            ((keptMsr e.topo p tdp founds k).bind fun msr => fieldMhz e.topo contents msr 23 16)
              = (levelMsr e.topo p contents).bind fun msr =>
                  fieldMhz e.topo contents msr 23 16)) := by
  obtain rfl := (frequencyRun_spec hnever h founds).2 reports st' hrun msr1 hmsr1
  have hget (k : Nat) : (reportsFrom e.topo p msr1 tdp founds)[k]? = _ :=
    reportsFrom_getElem? founds k
  constructor
  · apply le_antisymm
    · rw [← List.getElem?_eq_none_iff, hget, List.getElem?_eq_none (le_refl _)]
      rfl
    · rw [← List.getElem?_eq_none_iff]
      have hnone := hget (reportsFrom e.topo p msr1 tdp founds).length
      rw [List.getElem?_eq_none (le_refl _)] at hnone
      exact Option.map_eq_none_iff.mp hnone.symm
  · intro k contents report hfound hreport
    rw [hget, hfound, Option.map_some] at hreport
    obtain rfl := Option.some.inj hreport
    exact ⟨rfl, pStates_iff _, avx_iff _⟩

/-- A node with so many levels of TDP, of which the first is at 2000 MHz and the second at
1500, and ratios of 18 and 12. -/
def twoLevels (n : Nat) : Nat → Nat → BitVec 64 := fun _ msr =>
  if msr = 0xCE then BitVec.ofNat 64 n <<< 33 ||| 0x0C0000001200
  else if msr = 0x649 then 20 <<< 16
  else if msr = 0x64A then 15 <<< 16
  else 0

theorem availableFrequencies_reports_two :
    ∃ reports st' report, frequencyRun twoSocketEnv Architecture.fm064f.msrs .start
        [twoLevels 1, twoLevels 2] = some (reports, st') ∧ reports[1]? = some report ∧
      report.avx = [⟨"AVX512 ".toList, 2000⟩] ∧
      report.pStates = [⟨"Max Efficiency Ratio".toList, 1800⟩,
        ⟨"Max Non-Turbo Ratio ".toList, 1200⟩, ⟨"Min Operating Ratio ".toList, 0⟩] ∧
      avxLines twoSockets Architecture.fm064f.msrs (twoLevels 2) (some 0x64A)
        = [⟨"AVX512 ".toList, 1500⟩] := by
  have hnever : ∀ k a, twoSocketEnv.driver.fails k a = false := fun _ _ => rfl
  have hstart := BetweenCalls.start twoSockets Architecture.fm064f.msrs
  have hsome := (frequencyRun_spec (e := twoSocketEnv) hnever hstart
    [twoLevels 1, twoLevels 2]).1.mpr (by decide)
  obtain ⟨⟨reports, st'⟩, hrun⟩ := Option.isSome_iff_exists.mp hsome
  obtain ⟨hlength, hreports⟩ := @availableFrequencies_reports twoSocketEnv _ none .start st' 0x1AE
    [twoLevels 1, twoLevels 2] reports hnever hstart rfl hrun
  have hsecond : 1 < reports.length := by
    rw [hlength]
    decide
  have hget := List.getElem?_eq_getElem hsecond
  refine ⟨reports, st', reports[1], hrun, hget, ?_⟩
  rw [(hreports 1 (twoLevels 2) reports[1] rfl hget).1]
  decide

/-! ### The schedule -/

/-- One line for each number of cores of a socket that the two registers have a byte for. -/
def scheduleOf (t : Topology) (reg reg1 : BitVec 64) : List (Nat × Nat) :=
  (List.range (min t.coresPerSocket 16)).map fun k =>
    (k + 1, (if k < 8 then byteAt reg (8 * k) else byteAt reg1 (8 * (k - 8))) * 100)

section Schedule

variable {stop : Nat → Bool} {limit : Nat}

/-- The loop over a register, where it ends at a number of cores: at least one line, and no
more than the bytes. -/
theorem limitLoop_eq (hstop : ∀ core, stop core = decide (limit ≤ core)) (spaced : Bool)
    (reg : BitVec 64) (bits : List Nat) (core : Nat) :
    limitLoop stop spaced reg bits core
      = ((bits.take (max 1 (limit - core))).mapIdx fun j nbits =>
          ⟨spaced, core + j, byteAt reg nbits * 100⟩,
        core + min (max 1 (limit - core)) bits.length) := by
  induction bits generalizing core with
  | nil => simp [limitLoop]
  | cons nbits rest ih =>
      rw [limitLoop, hstop]
      by_cases hlast : limit ≤ core + 1
      · have hone : max 1 (limit - core) = 1 := by omega
        rw [decide_eq_true hlast, if_pos rfl, hone]
        simp
      · have hmore : max 1 (limit - core) = max 1 (limit - (core + 1)) + 1 := by omega
        rw [decide_eq_false hlast, if_neg Bool.false_ne_true, ih, hmore, List.take_succ_cons,
          List.mapIdx_cons, List.length_cons]
        refine Prod.ext ?_ ?_
        · simp only [Nat.add_zero, Nat.add_assoc, Nat.add_comm 1]
        · show core + 1 + _ = core + _
          omega

/-- Over the bytes of a register. -/
theorem limitLoop_allBits (hstop : ∀ core, stop core = decide (limit ≤ core)) (spaced : Bool)
    (reg : BitVec 64) (core : Nat) :
    limitLoop stop spaced reg allBits core
      = ((List.range (min (max 1 (limit - core)) 8)).map fun j =>
          ⟨spaced, core + j, byteAt reg (8 * j) * 100⟩,
        core + min (max 1 (limit - core)) 8) := by
  rw [limitLoop_eq hstop]
  refine Prod.ext ?_ rfl
  show (List.take _ allBits).mapIdx _ = _
  rw [allBits, ← List.map_take, List.take_range]
  apply List.ext_getElem?
  intro j
  rw [List.getElem?_mapIdx, List.getElem?_map, List.getElem?_map]
  cases hget : (List.range (min (max 1 (limit - core)) 8))[j]? with
  | none => rfl
  | some x =>
      obtain ⟨hj, hx⟩ := List.getElem?_eq_some_iff.mp hget
      rw [List.getElem_range] at hx
      subst hx
      rfl

/-- **The lines of `get_turbo_ratio_limits`**, with the number of those of each register. -/
theorem limitRows_eq {ncores : Nat} (hpos : 0 < ncores) (reg reg1 : BitVec 64) :
    (limitRows ncores reg reg1).map (fun row => (row.core, row.mhz))
      = ((List.range (min ncores 8)).map fun j => (1 + j, byteAt reg (8 * j) * 100)) ++
        (List.range (min (max 1 (ncores - (1 + min ncores 8))) 8)).map fun j =>
          (1 + min ncores 8 + j, byteAt reg1 (8 * j) * 100) := by
  have hgt : ∀ core, decide (core > ncores) = decide (ncores + 1 ≤ core) := fun _ => rfl
  have hge : ∀ core, decide (core ≥ ncores) = decide (ncores ≤ core) := fun _ => rfl
  have hmax : max 1 (ncores + 1 - 1) = ncores := by omega
  rw [limitRows, limitLoop_allBits hgt, hmax]
  simp only [limitLoop_allBits hge, List.map_append, List.map_map]
  rfl

/-- The lines are the right ones on these nodes alone. -/
theorem limitRows_iff (t : Topology) (reg reg1 : BitVec 64) :
    (limitRows t.ncores reg reg1).map (fun row => (row.core, row.mhz)) = scheduleOf t reg reg1 ↔
      (t.nsockets = 1 ∧ t.ncores = 9) ∨ (16 ≤ t.coresPerSocket ∧ 17 ≤ t.ncores) := by
  have hsockets := t.nsockets_pos
  have hcores := t.coresPerSocket_pos
  have hmul := t.nsockets_mul_coresPerSocket
  -- one socket has all the cores, more than one have at most half of them each
  have hshare : (t.nsockets = 1 ∧ t.coresPerSocket = t.ncores) ∨
      (t.nsockets ≠ 1 ∧ 2 * t.coresPerSocket ≤ t.ncores) := by
    by_cases hone : t.nsockets = 1
    · rw [hone, Nat.one_mul] at hmul
      exact .inl ⟨hone, hmul⟩
    · refine .inr ⟨hone, hmul ▸ Nat.mul_le_mul_right _ ?_⟩
      omega
  rw [limitRows_eq t.ncores_pos]
  constructor
  · intro h
    have hlength := congrArg List.length h
    simp only [scheduleOf, List.length_append, List.length_map, List.length_range] at hlength
    omega
  · intro h
    have hall : 9 ≤ t.ncores := by omega
    have hlength : min t.coresPerSocket 16 = 8 + min (max 1 (t.ncores - 9)) 8 := by omega
    rw [scheduleOf, hlength, List.range_add, List.map_append, List.map_map,
      Nat.min_eq_right (Nat.le_of_succ_le hall)]
    refine congrArg₂ (· ++ ·) ?_ ?_
    · apply List.map_congr_left
      intro j hj
      rw [if_pos (List.mem_range.mp hj), Nat.add_comm]
    · apply List.map_congr_left
      intro j _
      show _ = (8 + j + 1, (if 8 + j < 8 then _ else byteAt reg1 (8 * (8 + j - 8))) * 100)
      rw [if_neg (by omega), Nat.add_sub_cancel_left, Nat.add_comm 8 j, Nat.add_comm (1 + 8) j,
        Nat.add_assoc, Nat.add_comm 1 8]

end Schedule

/-- **The schedule of a socket.**  Where no access is refused and the sockets that are
compared match, whatever is in the registers, `get_turbo_ratio_limits` prints one line
for each number of cores of a socket up to 16, and the ratio of this number, exactly on
a node of one socket with 9 cores and on those whose sockets have 16 or more while the
node has more than 16.  Everywhere else there is a line too many or one too few. -/
theorem turboSchedule_iff {e : MsrEnv} {p : FrequencyMsrs} {tdp : Option (BitVec 32)}
    {st : FeatureState} {msr1 : BitVec 32} (hnever : ∀ k a, e.driver.fails k a = false)
    (h : BetweenCalls e.topo p tdp st) (hmsr1 : p.turboRatioLimit1 = some msr1)
    (hskx : p.skx = false) (hmatch : LimitsMatch e.topo p st.msr.machine.msr msr1) :
    ∃ ret rows st', getTurboRatioLimits e p msr1 st = some (ret, rows, st') ∧ ret = 0 ∧
      (rows.map (fun row => (row.core, row.mhz))
          = scheduleOf e.topo (socketReg e.topo st.msr.machine.msr p.turboRatioLimit 0)
              (socketReg e.topo st.msr.machine.msr msr1 0) ↔
        (e.topo.nsockets = 1 ∧ e.topo.ncores = 9) ∨
          (16 ≤ e.topo.coresPerSocket ∧ 17 ≤ e.topo.ncores)) := by
  obtain ⟨ret, st', hrun, hret, -, -⟩ := getTurboRatioLimits_spec hnever h hmsr1
  refine ⟨ret, _, st', hrun, ?_, ?_⟩
  · simpa [reportOf, hmatch] using hret
  · rw [reportOf, if_pos hmatch, FrequencyMsrs.rows, hskx, if_neg Bool.false_ne_true]
    exact limitRows_iff e.topo _ _

theorem turboSchedule_iff_two :
    ∃ ret rows st', getTurboRatioLimits twoSocketEnv Architecture.fm064f.msrs 0x1AE .start
        = some (ret, rows, st') ∧
      rows.map (fun row => (row.core, row.mhz)) ≠ scheduleOf twoSockets 0 0 := by
  obtain ⟨ret, rows, st', hrun, -, hiff⟩ := @turboSchedule_iff twoSocketEnv
    Architecture.fm064f.msrs none .start 0x1AE (fun _ _ => rfl) (.start _ _) rfl rfl
    (.inr ⟨rfl, rfl⟩)
  refine ⟨ret, rows, st', hrun, fun h => ?_⟩
  exact absurd (hiff.mp h) (by decide)

end Variorum.AvailableFrequencies
