/-
Variorum/ArmDescriptors.lean

The print functions of the ARM back end and the descriptors of the process.

All of them open sensor files, test the descriptors with `!fd`, which finds
descriptor 0 alone, read a number from each file, test with `!bytes`, which
finds an empty file that is open, and close the files; an error that is found
returns at once, and leaves open what is open.  A file that cannot be opened
or read is no error, and its variable is as it was.

Main results:

* `call_spec`: a call that returns 0 leaves the table of descriptors as it was,
  and one that returns -1 has taken some for good.
* `run_errors`: in any run of calls, there are no more errors than descriptors
  were free, and once none is free, every call returns 0, whatever the files.
* `neoverseClocks_iff`: the clock of the Neoverse is found where no file is
  empty; it is a mean over all cores, where a file that cannot be read counts
  with what is left in a buffer, or with the core before it.
-/
import Mathlib.Algebra.BigOperators.Intervals
import Mathlib.Algebra.Order.BigOperators.Group.Finset
import Variorum.Descriptors
import Variorum.JunoPower

namespace Variorum.ArmDescriptors

open Arm Descriptors
open scoped BigOperators

/-! ### Files -/

/-- The files that are read. -/
inductive Path
  | hwmon0Power (n : Nat)
  | hwmon0Temp (n : Nat)
  | hwmon1Power (n : Nat)
  | hwmon1Temp (n : Nat)
  | scalingCurFreq (policy : Nat)
  deriving DecidableEq

/-- A file, and what reading it comes to. -/
inductive SensorFile
  | missing
  | there (read : ReadOutcome)

def SensorFile.isThere : SensorFile → Bool
  | missing => false
  | there _ => true

/-- What `open` and `read` come to, for the descriptor that was got. -/
def SensorFile.outcome (file : SensorFile) (fd : Option Nat) : Outcome :=
  match file with
  | missing => ⟨fd, .fails⟩
  | there read => ⟨fd, read⟩

/-- The files at the time of a call. -/
abbrev Env := Path → SensorFile

/-! ### The functions -/

/-- The lines that the functions for power and temperatures begin with: the variables, or an
error, and the descriptors.  A variable that no number of its file is stored in has some
other. -/
def readFiles (limit : Nat) (files : List (SensorFile × BitVec 64)) (fds : Finset Nat) :
    Option (List (BitVec 64)) × Finset Nat :=
  let opened := openAll limit (files.map fun file => file.1.isThere) fds
  if opened.1.any (· == some 0) then (none, opened.2)
  else
    let reads := (files.zip opened.1).map fun p => (readFileUi64 (p.1.1.outcome p.2), p.1.2)
    if reads.any (·.1.1 == 0) then (none, opened.2)
    else (some (reads.map fun r => r.1.2.getD r.2), closeAll opened.1 opened.2)

/-- The loop of `arm_cpu_neoverse_n1_get_clocks_data`: `aggregate_freq`, or an error.  Where a
read fails, `sscanf` is given a buffer that nothing was read into, and `stale` is what it finds
there. -/
def coreLoop (limit : Nat) (env : Env) (stale : Nat → Option (BitVec 64)) :
    List Nat → BitVec 64 → BitVec 64 → Finset Nat → Option (BitVec 64) × Finset Nat
  | [], _, aggregateFreq, fds => (some aggregateFreq, fds)
  | coreIter :: rest, freqVal, aggregateFreq, fds =>
      let file := env (.scalingCurFreq coreIter)
      let opened := openFile limit file.isThere fds
      if opened.1 == some 0 then (none, opened.2)
      else
        let read := readFileUi64 (file.outcome opened.1)
        if read.1 == 0 then (none, opened.2)
        else
          let freqVal := read.2.getD ((stale coreIter).getD freqVal)
          coreLoop limit env stale rest freqVal (aggregateFreq + freqVal / 1000)
            (close opened.1 opened.2)

/-- `NUM_CORES`. -/
def numCores : Nat := 80

/-- The functions that print a line of a table. -/
inductive ArmFn
  | junoPower
  | junoThermal
  | junoClocks
  | neoversePower
  | neoverseThermal
  | neoverseClocks
  deriving DecidableEq

/-- The numbers of a line. -/
inductive Line
  | sensors (values : List ℚ)
  | clock (chipid : Nat) (mhz : BitVec 64)

/-- What is printed: the names of the columns, and a line. -/
structure Output where
  header : Bool
  line : Option Line

/-- The statics `init_output`, one for each function, and the table of descriptors. -/
structure ArmState where
  initOutput : ArmFn → Bool
  fds : Finset Nat

/-- A call: the files, the socket of a clock, what the variables hold that no number of a file is
stored in, and the form. -/
structure ArmCall where
  fn : ArmFn
  env : Env
  chipid : Nat
  junk : Path → BitVec 64
  stale : Nat → Option (BitVec 64)
  verbose : Bool

/-- The files of a function for power or temperatures, in the order in which they are opened. -/
def sensorPaths : ArmFn → List Path
  | .junoPower => [.hwmon0Power 1, .hwmon0Power 2, .hwmon0Power 3, .hwmon0Power 4]
  | .junoThermal => [.hwmon0Temp 1, .hwmon0Temp 2, .hwmon0Temp 3, .hwmon0Temp 4]
  | .neoversePower => [.hwmon1Power 1, .hwmon1Power 2]
  | .neoverseThermal => [.hwmon0Temp 1, .hwmon1Temp 1]
  | .junoClocks | .neoverseClocks => []

/-- What a function makes of its files: a line, or an error, and the descriptors. -/
def readLine (limit : Nat) (call : ArmCall) (fds : Finset Nat) : Option Line × Finset Nat :=
  match call.fn with
  | .junoClocks =>
      let path := Path.scalingCurFreq call.chipid
      let result := readFiles limit [(call.env path, call.junk path)] fds
      (result.1.map fun vals => .clock call.chipid (vals.headD 0 / 1000), result.2)
  | .neoverseClocks =>
      let result := coreLoop limit call.env call.stale (List.range numCores) 0 0 fds
      (result.1.map fun sum => .clock call.chipid (sum / 80), result.2)
  | fn =>
      let result := readFiles limit
        ((sensorPaths fn).map fun path => (call.env path, call.junk path)) fds
      (result.1.map fun vals => .sensors (vals.map milliwatts), result.2)

/-- A call: what is returned and printed, and the state behind it. -/
def call (limit : Nat) (c : ArmCall) (s : ArmState) : Int × Output × ArmState :=
  match readLine limit c s.fds with
  | (none, fds) => (-1, ⟨false, none⟩, ⟨s.initOutput, fds⟩)
  | (some line, fds) =>
      (0, ⟨!c.verbose && !s.initOutput c.fn, some line⟩,
        ⟨fun fn => if fn = c.fn then s.initOutput fn || !c.verbose else s.initOutput fn, fds⟩)

/-- Calls one after the other: what they return, and the state behind them. -/
def run (limit : Nat) : List ArmCall → ArmState → List Int × ArmState
  | [], s => ([], s)
  | c :: calls, s =>
      let first := call limit c s
      let rest := run limit calls first.2.2
      (first.1 :: rest.1, rest.2)

/-! ### Errors and descriptors -/

section Errors

variable {limit : Nat} {fds : Finset Nat} {env : Env}

/-- What a function does to the table: it leaves it as it was, or finds an error and has taken
descriptors for good. -/
def Accounts {α : Type} (fds : Finset Nat) (result : Option α × Finset Nat) : Prop :=
  (result.1.isSome ∧ result.2 = fds) ∨ (result.1 = none ∧ fds ⊂ result.2)

/-- `!bytes` is true of files that are open. -/
theorem isSome_of_read_eq_zero {file : SensorFile} {fd : Option Nat}
    (h : (readFileUi64 (file.outcome fd)).1 = 0) : ∃ d, fd = some d := by
  have hopen := (readFileUi64_eq_zero_iff.mp h).1
  cases file <;> exact Option.isSome_iff_exists.mp hopen

theorem readFiles_accounts (limit : Nat) (files : List (SensorFile × BitVec 64))
    (fds : Finset Nat) :
    Accounts fds (readFiles limit files fds) := by
  unfold readFiles
  generalize hopened : openAll limit (files.map fun file => file.1.isThere) fds = opened
  have hleak : ∀ d, some d ∈ opened.1 → fds ⊂ opened.2 := fun d hd => by
    rw [← hopened] at hd ⊢
    exact ssubset_openAll hd
  simp only
  split
  · next hzero =>
      obtain ⟨fd, hfd, heq⟩ := List.any_eq_true.mp hzero
      rw [eq_of_beq heq] at hfd
      exact .inr ⟨rfl, hleak 0 hfd⟩
  · split
    · next hempty =>
        obtain ⟨r, hr, heq⟩ := List.any_eq_true.mp hempty
        obtain ⟨⟨file, fd⟩, hmem, rfl⟩ := List.mem_map.mp hr
        obtain ⟨d, rfl⟩ := isSome_of_read_eq_zero (eq_of_beq heq)
        exact .inr ⟨rfl, hleak d (List.of_mem_zip hmem).2⟩
    · refine .inl ⟨rfl, ?_⟩
      rw [← hopened]
      exact closeAll_openAll _ fds

theorem coreLoop_accounts (env : Env) (stale : Nat → Option (BitVec 64)) (cores : List Nat)
    (freqVal aggregateFreq : BitVec 64) (fds : Finset Nat) :
    Accounts fds (coreLoop limit env stale cores freqVal aggregateFreq fds) := by
  induction cores generalizing freqVal aggregateFreq with
  | nil => exact .inl ⟨rfl, rfl⟩
  | cons core cores ih =>
      rw [coreLoop]
      simp only
      split
      · next hzero => exact .inr ⟨rfl, ssubset_openFile (eq_of_beq hzero)⟩
      · split
        · next hempty =>
            obtain ⟨d, hd⟩ := isSome_of_read_eq_zero (eq_of_beq hempty)
            exact .inr ⟨rfl, ssubset_openFile hd⟩
        · rw [close_openFile]
          exact ih _ _

theorem Accounts.map {α β : Type} {result : Option α × Finset Nat} (h : Accounts fds result)
    (f : α → β) : Accounts fds (result.1.map f, result.2) := by
  rcases h with ⟨hsome, hfds⟩ | ⟨hnone, hfds⟩
  · exact .inl ⟨by rw [Option.isSome_map]; exact hsome, hfds⟩
  · exact .inr ⟨by rw [hnone]; rfl, hfds⟩

theorem readLine_accounts (limit : Nat) (c : ArmCall) (fds : Finset Nat) :
    Accounts fds (readLine limit c fds) := by
  rw [readLine]
  split
  · exact (readFiles_accounts limit _ fds).map _
  · exact (coreLoop_accounts c.env c.stale _ 0 0 fds).map _
  · exact (readFiles_accounts limit _ fds).map _

/-- **Calls and descriptors.**  A call that returns 0 leaves the table as it was; one that returns
-1 has taken descriptors for good. -/
theorem call_spec (limit : Nat) (c : ArmCall) (s : ArmState) :
    ((call limit c s).1 = 0 ∧ (call limit c s).2.2.fds = s.fds) ∨
      ((call limit c s).1 = -1 ∧ s.fds ⊂ (call limit c s).2.2.fds) := by
  have haccounts := readLine_accounts limit c s.fds
  rw [call]
  rcases h : readLine limit c s.fds with ⟨line, fds⟩
  rw [h] at haccounts
  cases line with
  | none =>
      rcases haccounts with ⟨hsome, -⟩ | ⟨-, hfds⟩
      · cases hsome
      · exact .inr ⟨rfl, hfds⟩
  | some line =>
      rcases haccounts with ⟨-, hfds⟩ | ⟨hnone, -⟩
      · exact .inl ⟨rfl, hfds⟩
      · cases hnone

/-! ### The limit -/

theorem readFiles_subset_range (files : List (SensorFile × BitVec 64))
    (h : fds ⊆ Finset.range limit) : (readFiles limit files fds).2 ⊆ Finset.range limit := by
  rcases readFiles_accounts limit files fds with ⟨-, hfds⟩ | ⟨hnone, -⟩
  · rw [hfds]
    exact h
  · have hopen := openAll_subset_range (files.map fun file => file.1.isThere) h
    unfold readFiles at hnone ⊢
    simp only at hnone ⊢
    split
    · exact hopen
    · next hzero =>
        rw [if_neg hzero] at hnone
        split
        · exact hopen
        · next hempty =>
            rw [if_neg hempty] at hnone
            cases hnone

theorem coreLoop_subset_range (env : Env) (stale : Nat → Option (BitVec 64)) (cores : List Nat)
    (freqVal aggregateFreq : BitVec 64) (h : fds ⊆ Finset.range limit) :
    (coreLoop limit env stale cores freqVal aggregateFreq fds).2 ⊆ Finset.range limit := by
  induction cores generalizing freqVal aggregateFreq with
  | nil => exact h
  | cons core cores ih =>
      rw [coreLoop]
      simp only
      split
      · exact openFile_subset_range h
      · split
        · exact openFile_subset_range h
        · rw [close_openFile]
          exact ih _ _

theorem call_subset_range (c : ArmCall) {s : ArmState} (h : s.fds ⊆ Finset.range limit) :
    (call limit c s).2.2.fds ⊆ Finset.range limit := by
  have hread : (readLine limit c s.fds).2 ⊆ Finset.range limit := by
    rw [readLine]
    split
    · exact readFiles_subset_range _ h
    · exact coreLoop_subset_range c.env c.stale _ 0 0 h
    · exact readFiles_subset_range _ h
  rw [call]
  rcases hline : readLine limit c s.fds with ⟨line, fds⟩
  rw [hline] at hread
  cases line <;> exact hread

/-! ### No descriptor left -/

theorem readFileUi64_none (file : SensorFile) : readFileUi64 (file.outcome none) = (-1, none) := by
  cases file <;> rfl

theorem readFiles_of_full (files : List (SensorFile × BitVec 64)) (h : Finset.range limit ⊆ fds) :
    (readFiles limit files fds).1.isSome := by
  unfold readFiles
  rw [openAll_of_full _ h]
  simp only
  have hzero : ((files.map fun file => file.1.isThere).map
      fun _ => (none : Option Nat)).any (· == some 0) = false := by
    rw [List.any_eq_false]
    intro fd hfd
    obtain ⟨_, -, rfl⟩ := List.mem_map.mp hfd
    decide
  rw [hzero, if_neg Bool.false_ne_true]
  split
  · next hempty =>
      obtain ⟨r, hr, heq⟩ := List.any_eq_true.mp hempty
      obtain ⟨⟨file, fd⟩, hmem, rfl⟩ := List.mem_map.mp hr
      obtain ⟨_, -, rfl⟩ := List.mem_map.mp (List.of_mem_zip hmem).2
      rw [readFileUi64_none] at heq
      cases eq_of_beq heq
  · rfl

theorem coreLoop_of_full (env : Env) (stale : Nat → Option (BitVec 64)) (cores : List Nat)
    (freqVal aggregateFreq : BitVec 64) (h : Finset.range limit ⊆ fds) :
    (coreLoop limit env stale cores freqVal aggregateFreq fds).1.isSome := by
  induction cores generalizing freqVal aggregateFreq with
  | nil => rfl
  | cons core cores ih =>
      rw [coreLoop, openFile_of_full h]
      simp only [readFileUi64_none]
      exact ih _ _

/-- Where no descriptor is free, every call returns 0. -/
theorem call_of_full (c : ArmCall) {s : ArmState} (h : Finset.range limit ⊆ s.fds) :
    (call limit c s).1 = 0 := by
  have hread : (readLine limit c s.fds).1.isSome := by
    rw [readLine]
    split
    · rw [Option.isSome_map]
      exact readFiles_of_full _ h
    · rw [Option.isSome_map]
      exact coreLoop_of_full c.env c.stale _ 0 0 h
    · rw [Option.isSome_map]
      exact readFiles_of_full _ h
  rw [call]
  rcases hline : readLine limit c s.fds with ⟨line, fds⟩
  rw [hline] at hread
  cases line with
  | none => cases hread
  | some line => rfl

/-! ### Runs -/

/-- The errors of a run are paid for with descriptors. -/
theorem run_count (limit : Nat) (calls : List ArmCall) (s : ArmState) :
    s.fds ⊆ (run limit calls s).2.fds ∧
      (run limit calls s).1.count (-1) + s.fds.card ≤ (run limit calls s).2.fds.card := by
  induction calls generalizing s with
  | nil => exact ⟨Finset.Subset.refl _, by simp [run]⟩
  | cons c calls ih =>
      obtain ⟨hsub, hcount⟩ := ih (call limit c s).2.2
      rw [run, List.count_cons]
      rcases call_spec limit c s with ⟨hrc, hfds⟩ | ⟨hrc, hfds⟩
      · rw [hfds] at hsub hcount
        refine ⟨hsub, ?_⟩
        simpa [hrc] using hcount
      · refine ⟨hfds.subset.trans hsub, ?_⟩
        have hcard := Finset.card_lt_card hfds
        simp only [hrc, beq_self_eq_true, if_true]
        omega

theorem run_subset_range (calls : List ArmCall) {s : ArmState}
    (h : s.fds ⊆ Finset.range limit) : (run limit calls s).2.fds ⊆ Finset.range limit := by
  induction calls generalizing s with
  | nil => exact h
  | cons c calls ih => exact ih (call_subset_range c h)

theorem run_of_full (calls : List ArmCall) {s : ArmState}
    (h : Finset.range limit ⊆ s.fds) : ∀ rc ∈ (run limit calls s).1, rc = 0 := by
  induction calls generalizing s with
  | nil => nofun
  | cons c calls ih =>
      have hzero := call_of_full c h
      have hfds : (call limit c s).2.2.fds = s.fds := by
        rcases call_spec limit c s with ⟨-, hfds⟩ | ⟨hrc, -⟩
        · exact hfds
        · rw [hzero] at hrc
          cases hrc
      intro rc hrc
      rcases List.mem_cons.mp hrc with rfl | hrc
      · exact hzero
      · exact ih (by rw [hfds]; exact h) rc hrc

/-- **Errors run out.**  In a run of calls, at most as many return -1 as descriptors were free
before it and are taken behind it; and where none is left, every later call returns 0, whatever
the files are. -/
theorem run_errors (limit : Nat) (calls : List ArmCall) {s : ArmState}
    (h : s.fds ⊆ Finset.range limit) :
    (run limit calls s).1.count (-1) + s.fds.card ≤ (run limit calls s).2.fds.card ∧
      (run limit calls s).2.fds.card ≤ limit ∧
      ((run limit calls s).2.fds.card = limit →
        ∀ later, ∀ rc ∈ (run limit later (run limit calls s).2).1, rc = 0) := by
  have hrange := run_subset_range calls h
  refine ⟨(run_count limit calls s).2, ?_, fun hfull later => ?_⟩
  · have hcard := Finset.card_le_card hrange
    rwa [Finset.card_range] at hcard
  · refine run_of_full later ?_
    rw [Finset.eq_of_subset_of_card_le hrange (by rw [Finset.card_range, hfull])]

/-- A call that finds its files empty. -/
def emptyCall (fn : ArmFn) : ArmCall :=
  ⟨fn, fun _ => .there .empty, 0, fun _ => 0, fun _ => none, true⟩

/-- With three descriptors free, a Juno's power takes them all, and its clock finds no error. -/
theorem run_errors_empty :
    (∅ : Finset Nat) ⊆ Finset.range 3 ∧
      (run 3 [emptyCall .junoPower] ⟨fun _ => false, ∅⟩).1.count (-1) + (∅ : Finset Nat).card ≤
        (run 3 [emptyCall .junoPower] ⟨fun _ => false, ∅⟩).2.fds.card ∧
      ∀ rc ∈ (run 3 [emptyCall .junoClocks]
        (run 3 [emptyCall .junoPower] ⟨fun _ => false, ∅⟩).2).1, rc = 0 :=
  have h := run_errors 3 [emptyCall .junoPower] (s := ⟨fun _ => false, ∅⟩)
    (Finset.empty_subset _)
  ⟨Finset.empty_subset _, h.1, h.2.2 (by decide) [emptyCall .junoClocks]⟩

end Errors

/-! ### The clock of the Neoverse -/

section Clock

variable {limit fd : Nat} {fds : Finset Nat} {env : Env} {stale : Nat → Option (BitVec 64)}

/-- The number in the file of a core. -/
def coreNumber (env : Env) (core : Nat) : Option (BitVec 64) :=
  match env (.scalingCurFreq core) with
  | .there (.number v) => some v
  | _ => none

/-- What `freq_val` holds behind the turns of the first cores. -/
def heldFreq (env : Env) (stale : Nat → Option (BitVec 64)) : Nat → BitVec 64
  | 0 => 0
  | core + 1 => (coreNumber env core).getD ((stale core).getD (heldFreq env stale core))

/-- The file of a core is empty. -/
def EmptyCore (env : Env) (core : Nat) : Prop := env (.scalingCurFreq core) = .there .empty

/-- A turn of the loop. -/
theorem coreLoop_cons (env : Env) (stale : Nat → Option (BitVec 64))
    (hfd : lowest limit fds = some fd) (hne : fd ≠ 0) (core : Nat)
    (rest : List Nat) (freqVal aggregateFreq : BitVec 64) :
    (EmptyCore env core →
      (coreLoop limit env stale (core :: rest) freqVal aggregateFreq fds).1 = none) ∧
    (¬ EmptyCore env core →
      coreLoop limit env stale (core :: rest) freqVal aggregateFreq fds =
        let freqVal := (coreNumber env core).getD ((stale core).getD freqVal)
        coreLoop limit env stale rest freqVal (aggregateFreq + freqVal / 1000) fds) := by
  -- the free descriptor is not 0, which the code would take for a file that is not there
  have hzero : ¬ (some fd == some 0) = true := by simpa using hne
  have hthere : openFile limit true fds = (some fd, insert fd fds) := by
    simp only [openFile, if_true, hfd]
  have hclose : Descriptors.close (some fd) (insert fd fds) = fds :=
    Finset.erase_insert (lowest_eq_some hfd).1
  have hnone : ∀ file : Outcome, file.readBuf = (-1, []) → readFileUi64 file = (-1, none) := by
    intro file hbuf
    rw [readFileUi64, hbuf]
    rfl
  rw [coreLoop]
  -- the file may be missing, refuse to be read, be empty, or hold a number
  cases hfile : env (.scalingCurFreq core) with
  | missing =>
      have hread := hnone ⟨none, .fails⟩ rfl
      have hopen : openFile limit false fds = (none, fds) := rfl
      simp [EmptyCore, coreNumber, hfile, SensorFile.isThere, SensorFile.outcome, hopen, hread,
        Descriptors.close]
  | there read =>
      cases read with
      | fails =>
          have hread := hnone ⟨some fd, .fails⟩ rfl
          simp [EmptyCore, coreNumber, hfile, SensorFile.isThere, SensorFile.outcome, hthere, hzero,
            hread, hclose]
      | empty =>
          simp [EmptyCore, hfile, SensorFile.isThere, SensorFile.outcome, hthere, readFileUi64,
            Outcome.readBuf]
      | number v =>
          have hread := readFileUi64_number fd v
          have hbytes : ¬ (((Arm.line v).length : Int) == 0) = true := by
            simp [Arm.line]
            omega
          simp [EmptyCore, coreNumber, hfile, SensorFile.isThere, SensorFile.outcome, hthere, hzero,
            hread, hbytes, hclose]

/-- A loop over cores that have no empty file adds up what `freq_val` holds. -/
theorem coreLoop_range (env : Env) (stale : Nat → Option (BitVec 64))
    (hfd : lowest limit fds = some fd) (hne : fd ≠ 0) (first n sum : Nat)
    (h : ∀ core ∈ List.range' first n, ¬ EmptyCore env core) :
    coreLoop limit env stale (List.range' first n) (heldFreq env stale first)
        (BitVec.ofNat 64 sum) fds =
      (some (BitVec.ofNat 64 (sum + ((List.range' first n).map fun core =>
        (heldFreq env stale (core + 1)).toNat / 1000).sum)), fds) := by
  induction n generalizing first sum with
  | zero => rfl
  | succ n ih =>
      rw [List.range'_succ] at h ⊢
      have hturn := (coreLoop_cons env stale hfd hne first
        (List.range' (first + 1) n) (heldFreq env stale first) (BitVec.ofNat 64 sum)).2
        (h first List.mem_cons_self)
      have hadd : BitVec.ofNat 64 sum + heldFreq env stale (first + 1) / 1000 =
          BitVec.ofNat 64 (sum + (heldFreq env stale (first + 1)).toNat / 1000) := by
        apply BitVec.eq_of_toNat_eq
        simp [BitVec.toNat_add, BitVec.toNat_udiv]
      rw [hturn]
      simp only
      rw [show (coreNumber env first).getD ((stale first).getD (heldFreq env stale first)) =
        heldFreq env stale (first + 1) from rfl, hadd,
        ih (first + 1) _ fun core hcore => h core (List.mem_cons_of_mem _ hcore),
        List.map_cons, List.sum_cons, Nat.add_assoc]

/-- A loop that meets an empty file ends there. -/
theorem coreLoop_empty (hfd : lowest limit fds = some fd) (hne : fd ≠ 0) {cores : List Nat}
    {core : Nat} (hmem : core ∈ cores) (h : EmptyCore env core) (freqVal sum : BitVec 64) :
    (coreLoop limit env stale cores freqVal sum fds).1 = none := by
  induction cores generalizing freqVal sum with
  | nil => cases hmem
  | cons first rest ih =>
      obtain ⟨hempty, hnext⟩ := coreLoop_cons env stale hfd hne first rest
        freqVal sum
      by_cases hfirst : EmptyCore env first
      · exact hempty hfirst
      · rw [hnext hfirst]
        rcases List.mem_cons.mp hmem with rfl | hmem
        · exact absurd h hfirst
        · exact ih hmem _ _

/-- What the cores have, in MHz, added up. -/
def heldSum (env : Env) (stale : Nat → Option (BitVec 64)) : Nat :=
  ∑ core ∈ Finset.range numCores, (heldFreq env stale (core + 1)).toNat / 1000

theorem heldSum_lt (env : Env) (stale : Nat → Option (BitVec 64)) : heldSum env stale < 2 ^ 64 := by
  have hle : heldSum env stale ≤ ∑ core ∈ Finset.range numCores, 2 ^ 64 / 1000 :=
    Finset.sum_le_sum fun core _ => Nat.div_le_div_right (BitVec.isLt _).le
  refine hle.trans_lt ?_
  rw [Finset.sum_const, Finset.card_range, numCores]
  norm_num

theorem readLine_neoverseClocks {c : ArmCall} (hfn : c.fn = .neoverseClocks)
    (hfd : lowest limit fds = some fd) (hne : fd ≠ 0)
    (h : ∀ core < numCores, ¬ EmptyCore c.env core) :
    readLine limit c fds =
      (some (.clock c.chipid (BitVec.ofNat 64 (heldSum c.env c.stale / 80))), fds) := by
  have hloop : coreLoop limit c.env c.stale (List.range numCores) 0 0 fds =
      (some (BitVec.ofNat 64 (heldSum c.env c.stale)), fds) := by
    have hrange := coreLoop_range c.env c.stale hfd hne 0 numCores 0 fun core hcore =>
      h core (List.mem_range.mp (List.range_eq_range' ▸ hcore))
    rw [← List.range_eq_range', Nat.zero_add] at hrange
    exact hrange
  have hdiv : BitVec.ofNat 64 (heldSum c.env c.stale) / 80 =
      BitVec.ofNat 64 (heldSum c.env c.stale / 80) := by
    have hlt := heldSum_lt c.env c.stale
    apply BitVec.eq_of_toNat_eq
    rw [BitVec.toNat_udiv, BitVec.toNat_ofNat, BitVec.toNat_ofNat, Nat.mod_eq_of_lt hlt,
      Nat.mod_eq_of_lt ((Nat.div_le_self _ _).trans_lt hlt)]
    rfl
  rw [readLine, hfn]
  simp only
  rw [hloop, Option.map_some, hdiv]

theorem readLine_neoverseClocks_empty {c : ArmCall} (hfn : c.fn = .neoverseClocks)
    (hfd : lowest limit fds = some fd) (hne : fd ≠ 0) {core : Nat} (hcore : core < numCores)
    (h : EmptyCore c.env core) : (readLine limit c fds).1 = none := by
  rw [readLine, hfn]
  simp only
  rw [coreLoop_empty hfd hne (List.mem_range.mpr hcore) h]
  rfl

/-- Where every core has a number, what is left in a buffer does not count. -/
theorem heldSum_eq (h : ∀ core < numCores, (coreNumber env core).isSome)
    (stale stale' : Nat → Option (BitVec 64)) : heldSum env stale = heldSum env stale' := by
  refine Finset.sum_congr rfl fun core hcore => ?_
  obtain ⟨v, hv⟩ := Option.isSome_iff_exists.mp (h core (Finset.mem_range.mp hcore))
  rw [heldFreq, heldFreq, hv]
  rfl

/-- Where a core has none, it does: 80 MHz for one core are one for the mean. -/
theorem heldSum_add_le {core : Nat} (hcore : core < numCores) (h : coreNumber env core = none) :
    heldSum env (fun _ => some 0) + 80 ≤ heldSum env fun _ => some 80000 := by
  have hmem : core ∈ Finset.range numCores := Finset.mem_range.mpr hcore
  rw [heldSum, heldSum, ← Finset.add_sum_erase _ _ hmem, ← Finset.add_sum_erase _ _ hmem]
  have hone : (heldFreq env (fun _ => some 0) (core + 1)).toNat / 1000 + 80 ≤
      (heldFreq env (fun _ => some 80000) (core + 1)).toNat / 1000 := by
    rw [heldFreq, heldFreq, h, Option.getD_none, Option.getD_none, Option.getD_some,
      Option.getD_some]
    decide
  have hrest : ∑ other ∈ (Finset.range numCores).erase core,
      (heldFreq env (fun _ => some 0) (other + 1)).toNat / 1000 ≤
        ∑ other ∈ (Finset.range numCores).erase core,
          (heldFreq env (fun _ => some 80000) (other + 1)).toNat / 1000 := by
    refine Finset.sum_le_sum fun other _ => Nat.div_le_div_right ?_
    rw [heldFreq, heldFreq]
    cases coreNumber env other with
    | none =>
        rw [Option.getD_none, Option.getD_none, Option.getD_some, Option.getD_some]
        decide
    | some v => exact Nat.le_refl _
  omega

theorem clock_ne_of_add_le {a b : Nat} (hb : b < 2 ^ 64) (h : a + 80 ≤ b) :
    BitVec.ofNat 64 (a / 80) ≠ BitVec.ofNat 64 (b / 80) := by
  intro heq
  have hnat := congrArg BitVec.toNat heq
  rw [BitVec.toNat_ofNat, BitVec.toNat_ofNat, Nat.mod_eq_of_lt (by omega),
    Nat.mod_eq_of_lt (by omega)] at hnat
  omega

theorem not_emptyCore {core : Nat} (h : (coreNumber env core).isSome) : ¬ EmptyCore env core := by
  intro hempty
  rw [coreNumber, hempty] at h
  cases h

/-- A call that finds something else in the buffers. -/
def ArmCall.withStale (c : ArmCall) (stale : Nat → Option (BitVec 64)) : ArmCall :=
  { c with stale := stale }

/-- **The clock of the Neoverse.**  With a descriptor to be had that is not 0, the clock is found
where no file of a core is empty; it is the mean of what each core has, the same for every
socket; and it is the same whatever is left in the buffers exactly where every file has a
number. -/
theorem neoverseClocks_iff {c : ArmCall} {s : ArmState} (hfn : c.fn = .neoverseClocks)
    (hfd : lowest limit s.fds = some fd) (hne : fd ≠ 0) :
    ((call limit c s).1 = 0 ↔ ∀ core < numCores, ¬ EmptyCore c.env core) ∧
      ((call limit c s).1 = 0 → ∃ mhz : BitVec 64,
        (call limit c s).2.1.line = some (.clock c.chipid mhz) ∧
          mhz.toNat = heldSum c.env c.stale / 80) ∧
      ((∃ mhz, ∀ stale, (call limit (c.withStale stale) s).2.1.line =
          some (.clock c.chipid mhz)) ↔
        ∀ core < numCores, (coreNumber c.env core).isSome) := by
  -- what a call comes to with and without an empty file, whatever is in the buffers
  have hfound : ∀ stale, (∀ core < numCores, ¬ EmptyCore c.env core) →
      (call limit (c.withStale stale) s).1 = 0 ∧
        (call limit (c.withStale stale) s).2.1.line =
          some (.clock c.chipid (BitVec.ofNat 64 (heldSum c.env stale / 80))) := by
    intro stale h
    have hline := readLine_neoverseClocks (c := c.withStale stale) hfn hfd hne h
    rw [call, hline]
    exact ⟨rfl, rfl⟩
  have hempty : ∀ stale core, core < numCores → EmptyCore c.env core →
      (call limit (c.withStale stale) s).1 = -1 ∧
        (call limit (c.withStale stale) s).2.1.line = none := by
    intro stale core hcore h
    have hline := readLine_neoverseClocks_empty (c := c.withStale stale) hfn hfd hne
      hcore h
    rw [call]
    rcases hread : readLine limit (c.withStale stale) s.fds with ⟨line, fds⟩
    rw [hread] at hline
    cases hline
    exact ⟨rfl, rfl⟩
  have hrc : (call limit c s).1 = 0 → ∀ core < numCores, ¬ EmptyCore c.env core := by
    intro hzero core hcore h
    have hminus : (call limit c s).1 = -1 := (hempty c.stale core hcore h).1
    rw [hminus] at hzero
    cases hzero
  refine ⟨⟨hrc, fun h => (hfound c.stale h).1⟩, fun hzero => ?_, ⟨?_, fun h => ?_⟩⟩
  · refine ⟨_, (hfound c.stale (hrc hzero)).2, ?_⟩
    rw [BitVec.toNat_ofNat, Nat.mod_eq_of_lt]
    exact (Nat.div_le_self _ _).trans_lt (heldSum_lt c.env c.stale)
  · rintro ⟨mhz, hmhz⟩ core hcore
    have hnot : ∀ core < numCores, ¬ EmptyCore c.env core := by
      intro core hcore h
      have hline := hmhz c.stale
      rw [(hempty c.stale core hcore h).2] at hline
      cases hline
    rw [Option.isSome_iff_ne_none]
    intro hnone
    -- a core without a number shows what is in its buffer: 0 and 80000 give two clocks
    have hzero := hmhz fun _ => some 0
    rw [← hmhz fun _ => some 80000, (hfound _ hnot).2, (hfound _ hnot).2] at hzero
    exact clock_ne_of_add_le (heldSum_lt c.env _) (heldSum_add_le hcore hnone)
      (Line.clock.inj (Option.some.inj hzero)).2
  · refine ⟨BitVec.ofNat 64 (heldSum c.env c.stale / 80), fun stale => ?_⟩
    rw [(hfound stale fun core hcore => not_emptyCore (h core hcore)).2,
      heldSum_eq h stale c.stale]

/-- A call where every file has 2.6 GHz but that of the core 3, which cannot be read. -/
def unreadCall : ArmCall :=
  ⟨.neoverseClocks, fun path => if path = .scalingCurFreq 3 then .there .fails
    else .there (.number 2600000), 1, fun _ => 0, fun _ => none, true⟩

theorem neoverseClocks_iff_unread :
    lowest 8 {0, 1, 2} = some 3 ∧ (call 8 unreadCall ⟨fun _ => false, {0, 1, 2}⟩).1 = 0 ∧
      ¬ ∃ mhz, ∀ stale, (call 8 (unreadCall.withStale stale)
        ⟨fun _ => false, {0, 1, 2}⟩).2.1.line = some (.clock unreadCall.chipid mhz) := by
  have hlow : lowest 8 {0, 1, 2} = some 3 := by decide
  obtain ⟨hrc, -, hsame⟩ := neoverseClocks_iff (c := unreadCall)
    (s := ⟨fun _ => false, {0, 1, 2}⟩) rfl hlow (by decide)
  refine ⟨hlow, hrc.mpr fun core _ h => ?_, fun h => ?_⟩
  · by_cases hcore : core = 3
    · subst hcore
      cases h
    · have hpath : Path.scalingCurFreq core ≠ .scalingCurFreq 3 := fun heq =>
        hcore (Path.scalingCurFreq.inj heq)
      simp only [EmptyCore, unreadCall, if_neg hpath] at h
      cases h
  · have hthree := hsame.mp h 3 (by decide)
    cases hthree

end Clock

end Variorum.ArmDescriptors
