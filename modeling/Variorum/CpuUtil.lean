/-
Variorum/CpuUtil.lean

The utilization of the CPUs in `variorum_get_utilization_json`.

A call reads the first line of `/proc/stat` into a buffer of 100 characters, cuts
it at the blanks, adds the numbers up and compares the sums with those that the
call before has left in global variables.  Three quotients by the change of the
sum are stored, which are 0 in the first call that gets to its end.

The line of a system is ten counters.  What a call finds of each follows from its
column and its size (`seen_eq`): the digits behind column 99 are cut off, and above
2^63 - 1 the number stays there.  A report is right exactly where the changes that
are visible in this way are in proportion to the changes of the counters
(`percentages_iff`).  Where the lines fit, this is where a counter has changed:
otherwise the quotients are by 0, and nothing is stored.
-/
import Mathlib.Algebra.BigOperators.Fin
import Mathlib.Algebra.Order.BigOperators.Group.Finset
import Mathlib.Data.BitVec
import Mathlib.Data.List.GetD
import Mathlib.Tactic.FieldSimp
import Variorum.CScan
import Variorum.Runs
import Variorum.UtilJsonSpec

namespace Variorum

open CString
open Json (Object setReal)
open UtilJson

namespace CpuUtil

/-! ### The function -/

/-- The globals of `variorum.c`: the counters of the last report, and whether there was
one. -/
structure UtilGlobals where
  lastSum : BitVec 64
  lastUserTime : BitVec 64
  lastSysTime : BitVec 64
  lastIdle : BitVec 64
  state : Bool

def UtilGlobals.start : UtilGlobals := ⟨0, 0, 0, 0, false⟩

/-- The variables of the loop over the tokens. -/
structure StatTimes where
  i : Nat
  sum : BitVec 64
  idle : BitVec 64
  userTime : BitVec 64
  niceTime : BitVec 64
  sysTime : BitVec 64
  iowait : BitVec 64
  sumIdle : BitVec 64
  sumUserTime : BitVec 64

def StatTimes.start : StatTimes := ⟨0, 0, 0, 0, 0, 0, 0, 0, 0⟩

/-- The `long` of a token in a `uint64_t`. -/
def word (token : List Char) : BitVec 64 := BitVec.ofInt 64 (strtol token)

/-- The body of the loop. -/
def statTurn (s : StatTimes) (token : List Char) : StatTimes :=
  let idle := if s.i = 3 then word token else s.idle
  let userTime := if s.i = 0 then word token else s.userTime
  let niceTime := if s.i = 1 then word token else s.niceTime
  let sysTime := if s.i = 2 then word token else s.sysTime
  let iowait := if s.i = 4 then word token else s.iowait
  { i := s.i + 1
    sum := s.sum + word token
    idle := idle
    userTime := userTime
    niceTime := niceTime
    sysTime := sysTime
    iowait := iowait
    sumIdle := idle + iowait
    sumUserTime := userTime + niceTime }

/-- The loop; the first token is not a number. -/
def readStat (str : List Char) : StatTimes := (strtok ' ' str).tail.foldl statTurn .start

/-- The quotient of two counts as a double: not finite where the divisor is 0. -/
def quotient (num den : BitVec 64) : Option ℚ :=
  if den = 0 then none else some ((num.toNat : ℚ) / den.toNat)

/-- The three percentages of a report; one that is no number has no value. -/
structure Utilization where
  userUtil : Option ℚ
  sysUtil : Option ℚ
  cpuUtil : Option ℚ

/-- "make the utilization metrics 0 at the first sample" -/
def utilization (g : UtilGlobals) (s : StatTimes) : Utilization :=
  if g.state then
    { userUtil := (quotient (s.sumUserTime - g.lastUserTime) (s.sum - g.lastSum)).map (· * 100)
      sysUtil := (quotient (s.sysTime - g.lastSysTime) (s.sum - g.lastSum)).map (· * 100)
      cpuUtil :=
        (quotient (s.sumIdle - g.lastIdle) (s.sum - g.lastSum)).map fun x => (1 - x) * 100 }
  else ⟨some 0, some 0, some 0⟩

/-- What is found in `/proc/meminfo`. -/
structure MemInfo where
  memFree : BitVec 64
  memTotal : BitVec 64

/-- `mem_util`: the part of the memory in use, or 0 in the first report. -/
def memUtil (g : UtilGlobals) (mem : MemInfo) : Option ℚ :=
  if g.state then (quotient mem.memFree mem.memTotal).map fun x => (1 - x) * 100 else some 0

/-- What a call finds: the time, the object of the host that the GPU platform has made, and
the two files if they can be opened. -/
structure UtilInput where
  ts : Int
  host : Object
  stat : Option (List Char)
  mem : Option MemInfo

/-- The entries of the object of the CPUs. -/
def setUtilization (u : Utilization) (cpuUtilObj : Object) : Object :=
  setReal systemUtil u.sysUtil
    (setReal userUtil u.userUtil (setReal totalUtil u.cpuUtil cpuUtilObj))

/-- `variorum_get_utilization_json` behind the GPU part: its return value, the object of the
host, and the globals. -/
def variorumGetUtilizationJson (inp : UtilInput) (g : UtilGlobals) :
    Int × Option Object × UtilGlobals :=
  match inp.stat.bind (fgets 100) with
  | none => (-1, none, g)
  | some str =>
      let s := readStat str
      let host := inObject cpuKey (setUtilization (utilization g s))
        (setIfNone timestampKey (.integer inp.ts) inp.host)
      let g' : UtilGlobals := { g with
        lastUserTime := s.sumUserTime
        lastSum := s.sum
        lastSysTime := s.sysTime
        lastIdle := s.sumIdle }
      match inp.mem with
      | none => (-1, none, g')
      | some mem =>
          (0, some (setReal memoryUtil (memUtil g mem) host), { g' with state := true })

/-! ### Runs -/

/-- The counters of the first line: user, nice, system, idle, iowait and five others. -/
abbrev CpuTimes := Fin 10 → BitVec 64

/-- The line without its newline. -/
def statLine (s : CpuTimes) : List Char :=
  "cpu ".toList ++ spaced (List.ofFn fun k => (s k).toNat)

/-- The object of a host before the CPUs are added. -/
structure HostObject where
  fields : Object
  fresh : Fields.get cpuKey fields = none

/-- Nothing is under the key yet. -/
theorem HostObject.fresh_nil : Fields.get cpuKey ([] : Object) = none := rfl

/-- A call: what the first line of `/proc/stat` says and what stands below it. -/
structure UtilCall where
  ts : Int
  host : HostObject
  stat : Option (CpuTimes × List Char)
  mem : Option MemInfo

def UtilCall.input (c : UtilCall) : UtilInput where
  ts := c.ts
  host := c.host.fields
  stat := c.stat.map fun (s, rest) => statLine s ++ '\n' :: rest
  mem := c.mem

/-- A process between two calls: its globals, the counters that were read last, and if a call
has returned 0. -/
structure UtilTrace where
  globals : UtilGlobals
  last : Option CpuTimes
  reported : Bool

def UtilTrace.start : UtilTrace := ⟨.start, none, false⟩

/-- A call in a run. -/
def step (t : UtilTrace) (c : UtilCall) : Option UtilTrace :=
  let (ret, _, g) := variorumGetUtilizationJson c.input t.globals
  some
    { globals := g
      last := (c.stat.map Prod.fst).or t.last
      reported := t.reported || ret == 0 }

/-! ### What is asked of a call -/

/-- The change of a counter. -/
def delta (p s : CpuTimes) (k : Fin 10) : Nat := (s k).toNat - (p k).toNat

/-- The change of all of them. -/
def total (p s : CpuTimes) : Nat := ∑ k, delta p s k

/-- A value for the object of the CPUs, in the object of the host. -/
def cpuValue (host : Object) (key : List Char) : Option Json :=
  (Fields.get cpuKey host).bind (Json.get key)

/-- Between 0 and 100, and of the change of all counters this percentage is the change of
these. -/
structure Percentage (p s : CpuTimes) (ks : Finset (Fin 10)) (x : ℚ) : Prop where
  nonneg : 0 ≤ x
  le : x ≤ 100
  share : x * total p s = 100 * (∑ k ∈ ks, delta p s k : Nat)

/-- A percentage is stored under its key, and it is right. -/
def Reported (host : Object) (key : List Char) (p s : CpuTimes) (ks : Finset (Fin 10)) : Prop :=
  ∃ x, cpuValue host key = some (.real x) ∧ Percentage p s ks x

/-- All three are: of all counters but idle and iowait, of user and nice, and of system. -/
structure Percentages (host : Object) (p s : CpuTimes) : Prop where
  total : Reported host totalUtil p s {3, 4}ᶜ
  user : Reported host userUtil p s {0, 1}
  system : Reported host systemUtil p s {2}

/-- After a first report, every one has the percentages since the counters were read
last. -/
def ReportsRight (t : UtilTrace) (c : UtilCall) : Prop :=
  t.reported = true → ∀ p s rest, t.last = some p → c.stat = some (s, rest) →
    ∀ host g, variorumGetUtilizationJson c.input t.globals = (0, some host, g) →
      Percentages host p s

/-- The column of the line behind a counter: four for the name, and a blank and the digits
for each counter up to it. -/
def column (s : CpuTimes) (k : Fin 10) : Nat :=
  4 + columnBehind (List.ofFn fun k => (s k).toNat) k

/-- A counter without the digits that stand behind column 99, and not above the greatest
`long`. -/
def visible (s : CpuTimes) (k : Fin 10) : Nat :=
  min (2 ^ 63 - 1) ((s k).toNat / 10 ^ (column s k - 99))

/-- The change of these counters as far as it is visible, modulo 2^64. -/
def visibleChange (p s : CpuTimes) (ks : Finset (Fin 10)) : Nat :=
  ((∑ k ∈ ks, ((visible s k : Int) - visible p k)) % 2 ^ 64).toNat

/-- What is visible of these counters has the same share in the visible change of all that
the counters have in the change of all. -/
def Proportional (p s : CpuTimes) (ks : Finset (Fin 10)) : Prop :=
  visibleChange p s ks * total p s = (∑ k ∈ ks, delta p s k) * visibleChange p s Finset.univ

/-- The visible change is not 0, and long lines and great counters distort none of the
shares that the percentages are made of. -/
structure InProportion (p s : CpuTimes) : Prop where
  moves : visibleChange p s Finset.univ ≠ 0
  idle : Proportional p s {3, 4}
  user : Proportional p s {0, 1}
  system : Proportional p s {2}

/-- The line fits the buffer, its last digit in column 99 at the most, and its numbers are
`long`s. -/
structure Fits (s : CpuTimes) : Prop where
  line : column s 9 ≤ 99
  long : ∀ k, (s k).toNat < 2 ^ 63

/-- Both lines fit, and the counters have changed by less than 2^64 together. -/
structure BothFit (p s : CpuTimes) : Prop where
  before : Fits p
  after : Fits s
  few : total p s < 2 ^ 64

/-- What holds between the counters that are read and those that were read last. -/
def ReadAt (P : CpuTimes → CpuTimes → Prop) (t : UtilTrace) (c : UtilCall) : Prop :=
  ∀ p s rest, t.last = some p → c.stat = some (s, rest) → P p s

/-- The counters do not decrease. -/
def GrowsAt : UtilTrace → UtilCall → Prop := ReadAt fun p s => ∀ k, p k ≤ s k

/-- Every call that reads the counters after another one finds lines that fit. -/
def FitAt : UtilTrace → UtilCall → Prop := ReadAt BothFit

/-- What a call should find that reports after a first report. -/
def ReportAt (P : CpuTimes → CpuTimes → Prop) (t : UtilTrace) (c : UtilCall) : Prop :=
  t.reported = true → c.mem.isSome → ReadAt P t c

/-! ### The loop -/

section Loop

variable {s : StatTimes} {l : List (BitVec 64)}

/-- What the loop over the fields holds after the numbers `l`. -/
structure Reads (l : List (BitVec 64)) (s : StatTimes) : Prop where
  i : s.i = l.length
  sum : s.sum = l.sum
  userTime : s.userTime = l.getD 0 0
  niceTime : s.niceTime = l.getD 1 0
  sysTime : s.sysTime = l.getD 2 0
  idle : s.idle = l.getD 3 0
  iowait : s.iowait = l.getD 4 0
  sumUserTime : s.sumUserTime = l.getD 0 0 + l.getD 1 0
  sumIdle : s.sumIdle = l.getD 3 0 + l.getD 4 0

theorem getD_concat (l : List (BitVec 64)) (x : BitVec 64) (k : Nat) :
    (l ++ [x]).getD k 0 = if l.length = k then x else l.getD k 0 := by
  rcases Nat.lt_trichotomy k l.length with hlt | rfl | hgt
  · rw [if_neg hlt.ne', List.getD_append _ _ _ _ hlt]
  · rw [if_pos rfl, List.getD_append_right _ _ _ _ (Nat.le_refl _), Nat.sub_self]
    rfl
  · have hlen : (l ++ [x]).length ≤ k := by
      rw [List.length_append, List.length_singleton]
      exact hgt
    rw [if_neg hgt.ne, List.getD_eq_default _ _ hlen, List.getD_eq_default _ _ hgt.le]

theorem Reads.turn (h : Reads l s) (token : List Char) :
    Reads (l ++ [word token]) (statTurn s token) := by
  have hentry : ∀ k (x : BitVec 64), x = l.getD k 0 →
      (if s.i = k then word token else x) = (l ++ [word token]).getD k 0 := by
    rintro k x rfl
    rw [getD_concat, h.i]
  have huser := hentry 0 _ h.userTime
  have hnice := hentry 1 _ h.niceTime
  have hidle := hentry 3 _ h.idle
  have hiowait := hentry 4 _ h.iowait
  refine ⟨?_, ?_, huser, hnice, hentry 2 _ h.sysTime, hidle, hiowait, ?_, ?_⟩
  · show s.i + 1 = _
    rw [h.i, List.length_append, List.length_singleton]
  · show s.sum + word token = _
    rw [h.sum, List.sum_append, List.sum_singleton]
  · exact congrArg₂ (· + ·) huser hnice
  · exact congrArg₂ (· + ·) hidle hiowait

theorem Reads.loop (h : Reads l s) (tokens : List (List Char)) :
    Reads (l ++ tokens.map word) (tokens.foldl statTurn s) := by
  induction tokens generalizing l s with
  | nil => rwa [List.map_nil, List.append_nil]
  | cons token tokens ih =>
      rw [List.map_cons, List.append_cons, List.foldl_cons]
      exact ih (h.turn token)

theorem readStat_reads (str : List Char) :
    Reads ((strtok ' ' str).tail.map word) (readStat str) := by
  have hstart : Reads [] .start := ⟨rfl, rfl, rfl, rfl, rfl, rfl, rfl, rfl, rfl⟩
  exact hstart.loop _

theorem sum_eq_getD {n : Nat} (h : l.length ≤ n) : l.sum = ∑ k : Fin n, l.getD k 0 := by
  induction n generalizing l with
  | zero =>
      obtain rfl := List.eq_nil_of_length_eq_zero (Nat.le_zero.mp h)
      rfl
  | succ n ih =>
      cases l with
      | nil => simp
      | cons x l =>
          rw [Fin.sum_univ_succ, List.sum_cons, ih (Nat.le_of_succ_le_succ h)]
          rfl

end Loop

/-! ### The line -/

section Line

variable {s : CpuTimes}

/-- A counter as it is found in the buffer. -/
def seen (s : CpuTimes) (k : Fin 10) : BitVec 64 :=
  ((strtok ' ' ((statLine s ++ ['\n']).take 99)).tail.map word).getD k 0

/-- The first token is the name of the line. -/
theorem tokens_statLine (s : CpuTimes) :
    (strtok ' ' ((statLine s ++ ['\n']).take 99)).tail
      = strtok ' ' ((spaced (List.ofFn fun k => (s k).toNat) ++ ['\n']).take 95) := by
  have hname : strtok ' ' "cpu".toList = ["cpu".toList] := strtok_single (by decide) (by decide)
  have hcut : (statLine s ++ ['\n']).take 99 = "cpu".toList ++ ' ' ::
      (spaced (List.ofFn fun k => (s k).toNat) ++ ['\n']).take 95 := rfl
  rw [hcut, strtok_append, hname]
  rfl

theorem ofFn_ne_nil (s : CpuTimes) : (List.ofFn fun k => (s k).toNat) ≠ [] :=
  List.ne_nil_of_length_pos (by rw [List.length_ofFn]; decide)

/-- What the loop makes of a line. -/
theorem readStat_statLine (s : CpuTimes) :
    let r := readStat ((statLine s ++ ['\n']).take 99)
    r.sum = ∑ k, seen s k ∧ r.sumUserTime = seen s 0 + seen s 1 ∧ r.sysTime = seen s 2 ∧
      r.sumIdle = seen s 3 + seen s 4 := by
  intro r
  have hreads := readStat_reads ((statLine s ++ ['\n']).take 99)
  refine ⟨?_, hreads.sumUserTime, hreads.sysTime, hreads.sumIdle⟩
  refine hreads.sum.trans (sum_eq_getD ?_)
  have hfree : ' ' ∉ ['\n'] := by decide
  have hlen := length_strtok_spaced (ofFn_ne_nil s) hfree 95
  rw [List.length_ofFn] at hlen
  rwa [List.length_map, tokens_statLine]

/-- **What is found of a counter** is what is visible of it. -/
theorem seen_eq (s : CpuTimes) (k : Fin 10) : seen s k = ((visible s k : Int) : BitVec 64) := by
  have hvalue : ((strtok ' ' ((spaced (List.ofFn fun k => (s k).toNat) ++ ['\n']).take 95)).map
      strtol).getD k 0 = (visible s k : Int) := by
    have hk : (List.ofFn fun k => (s k).toNat)[k.val]? = some (s k).toNat := by
      rw [List.getElem?_ofFn, dif_pos k.isLt]
    have hhead : ∀ c ∈ ['\n'].head?, c.isDigit = false := by
      intro c hc
      obtain rfl := Option.some.inj hc
      rfl
    have hcut : column s k - 99 = columnBehind (List.ofFn fun k => (s k).toNat) k - 95 := by
      rw [column]
      omega
    rw [strtol_take_spaced (by decide) hhead 95 hk, ← hcut, visible, Nat.cast_min]
    rfl
  have hword : word = BitVec.ofInt 64 ∘ strtol := rfl
  have hzero : (0 : BitVec 64) = BitVec.ofInt 64 0 := rfl
  rw [seen, tokens_statLine, hword, ← List.map_map, hzero, List.getD_map, hvalue]
  rfl

theorem newline_notMem_statLine (s : CpuTimes) : '\n' ∉ statLine s := by
  intro h
  rcases List.mem_append.mp h with h | h
  · exact absurd h (by decide)
  · exact absurd (of_mem_spaced h) (by decide)

end Line

/-! ### A call -/

section Call

variable {p s : CpuTimes} {rest : List Char} {c : UtilCall} {g : UtilGlobals} {t : UtilTrace}
variable {ks : Finset (Fin 10)} {key : List Char} {mem : MemInfo}

/-- The globals behind a call that has read these counters. -/
def globalsOf (s : CpuTimes) (state : Bool) : UtilGlobals where
  lastSum := ∑ k, seen s k
  lastUserTime := seen s 0 + seen s 1
  lastSysTime := seen s 2
  lastIdle := seen s 3 + seen s 4
  state := state

/-- The object of the host behind such a call. -/
def hostOf (c : UtilCall) (s : CpuTimes) (mem : MemInfo) (g : UtilGlobals) : Object :=
  setReal memoryUtil (memUtil g mem)
    (inObject cpuKey
      (setUtilization (utilization g (readStat ((statLine s ++ ['\n']).take 99))))
      (setIfNone timestampKey (.integer c.ts) c.host.fields))

theorem fgets_input (hstat : c.stat = some (s, rest)) :
    c.input.stat.bind (fgets 100) = some ((statLine s ++ ['\n']).take 99) := by
  have hinput : c.input.stat = some (statLine s ++ '\n' :: rest) := by
    rw [UtilCall.input, hstat]
    rfl
  rw [hinput]
  exact fgets_append (newline_notMem_statLine s) rest

theorem call_eq (hstat : c.stat = some (s, rest)) (hmem : c.mem = some mem) (g : UtilGlobals) :
    variorumGetUtilizationJson c.input g = (0, some (hostOf c s mem g), globalsOf s true) := by
  obtain ⟨hsum, huser, hsys, hidle⟩ := readStat_statLine s
  have hmem : c.input.mem = some mem := hmem
  rw [variorumGetUtilizationJson, fgets_input hstat, hmem]
  simp only [hsum, huser, hsys, hidle]
  rfl

theorem call_of_no_mem (hstat : c.stat = some (s, rest)) (hmem : c.mem = none) (g : UtilGlobals) :
    variorumGetUtilizationJson c.input g = (-1, none, globalsOf s g.state) := by
  obtain ⟨hsum, huser, hsys, hidle⟩ := readStat_statLine s
  have hmem : c.input.mem = none := hmem
  rw [variorumGetUtilizationJson, fgets_input hstat, hmem]
  simp only [hsum, huser, hsys, hidle]
  rfl

theorem call_of_no_stat (hstat : c.stat = none) (g : UtilGlobals) :
    variorumGetUtilizationJson c.input g = (-1, none, g) := by
  have hinput : c.input.stat = none := by
    rw [UtilCall.input, hstat]
    rfl
  rw [variorumGetUtilizationJson, hinput]
  rfl

/-! What is stored. -/

theorem get_setReal_self (x : Option ℚ) {obj : Object} (h : Fields.get key obj = none) :
    Fields.get key (setReal key x obj) = x.map .real := by
  cases x with
  | none => exact h
  | some x => exact Fields.get_set_self

theorem get_setReal_of_ne {key' : List Char} (h : key' ≠ key) (x : Option ℚ) (obj : Object) :
    Fields.get key (setReal key' x obj) = Fields.get key obj := by
  cases x with
  | none => rfl
  | some x => exact Fields.get_set_of_ne h

theorem get_setUtilization (u : Utilization) :
    Fields.get totalUtil (setUtilization u []) = u.cpuUtil.map .real ∧
      Fields.get userUtil (setUtilization u []) = u.userUtil.map .real ∧
      Fields.get systemUtil (setUtilization u []) = u.sysUtil.map .real := by
  refine ⟨?_, ?_, ?_⟩
  · rw [setUtilization, get_setReal_of_ne (by decide), get_setReal_of_ne (by decide)]
    exact get_setReal_self _ rfl
  · rw [setUtilization, get_setReal_of_ne (by decide)]
    apply get_setReal_self
    rw [get_setReal_of_ne (by decide)]
    rfl
  · apply get_setReal_self
    rw [get_setReal_of_ne (by decide), get_setReal_of_ne (by decide)]
    rfl

/-- The object of the CPUs is new. -/
theorem cpuValue_stored (host : HostObject) (ts : Int) (u : Utilization) (x : Option ℚ)
    (key : List Char) :
    cpuValue (setReal memoryUtil x (inObject cpuKey (setUtilization u)
        (setIfNone timestampKey (.integer ts) host.fields))) key
      = Fields.get key (setUtilization u []) := by
  have hfresh : Fields.get cpuKey (setIfNone timestampKey (.integer ts) host.fields) = none := by
    rw [setIfNone]
    split
    · rw [Fields.get_set_of_ne (by decide), host.fresh]
    · exact host.fresh
  rw [cpuValue, get_setReal_of_ne (by decide), get_inObject_self, hfresh]
  rfl

theorem cpuValue_hostOf (c : UtilCall) (s : CpuTimes) (mem : MemInfo) (g : UtilGlobals)
    (key : List Char) : cpuValue (hostOf c s mem g) key
      = Fields.get key (setUtilization
          (utilization g (readStat ((statLine s ++ ['\n']).take 99))) []) :=
  cpuValue_stored c.host c.ts _ _ key

theorem reported_iff {host : Object} {x : Option ℚ} (h : cpuValue host key = x.map .real) :
    Reported host key p s ks ↔ ∃ y, x = some y ∧ Percentage p s ks y := by
  rw [Reported, h]
  cases x with
  | none => simp
  | some x => simp

/-! The changes. -/

theorem total_eq_zero_iff (hgrows : ∀ k, p k ≤ s k) : total p s = 0 ↔ p = s := by
  rw [total, Finset.sum_eq_zero_iff]
  constructor
  · intro h
    funext k
    have hk := h k (Finset.mem_univ k)
    have hle := BitVec.le_def.mp (hgrows k)
    apply BitVec.eq_of_toNat_eq
    rw [delta] at hk
    omega
  · rintro rfl k -
    exact Nat.sub_self _

theorem sum_delta_le (p s : CpuTimes) (ks : Finset (Fin 10)) :
    ∑ k ∈ ks, delta p s k ≤ total p s :=
  Finset.sum_le_sum_of_subset (Finset.subset_univ ks)

/-- The change that a call computes is the visible one. -/
theorem toNat_sum_seen (p s : CpuTimes) (ks : Finset (Fin 10)) :
    (∑ k ∈ ks, (seen s k - seen p k)).toNat = visibleChange p s ks := by
  have hcast : ∑ k ∈ ks, (seen s k - seen p k)
      = ((∑ k ∈ ks, ((visible s k : Int) - visible p k) : Int) : BitVec 64) := by
    rw [Int.cast_sum]
    refine Finset.sum_congr rfl fun k _ => ?_
    rw [seen_eq, seen_eq, Int.cast_sub]
  rw [hcast]
  exact BitVec.toNat_ofInt _

/-- A line that fits is visible as it is. -/
theorem Fits.visible_eq (h : Fits s) (k : Fin 10) : visible s k = (s k).toNat := by
  have hk : column s k ≤ column s 9 :=
    Nat.add_le_add_left (columnBehind_mono _ (Nat.le_of_lt_succ k.isLt)) 4
  rw [visible, Nat.sub_eq_zero_of_le (hk.trans h.line), Nat.pow_zero, Nat.div_one]
  exact Nat.min_eq_right (Nat.le_sub_one_of_lt (h.long k))

/-- So are the changes between two lines that fit. -/
theorem BothFit.visibleChange_eq (h : BothFit p s) (hgrows : ∀ k, p k ≤ s k)
    (ks : Finset (Fin 10)) : visibleChange p s ks = ∑ k ∈ ks, delta p s k := by
  have hchange : ∀ k, (visible s k : Int) - visible p k = (delta p s k : Int) := by
    intro k
    rw [h.after.visible_eq, h.before.visible_eq, delta,
      Nat.cast_sub (BitVec.le_def.mp (hgrows k))]
  have hlt : ∑ k ∈ ks, delta p s k < 2 ^ 64 := (sum_delta_le p s ks).trans_lt h.few
  rw [visibleChange, Finset.sum_congr rfl fun k _ => hchange k, ← Nat.cast_sum]
  omega

/-- Then they are in proportion, if there are any. -/
theorem BothFit.inProportion_iff (h : BothFit p s) (hgrows : ∀ k, p k ≤ s k) :
    InProportion p s ↔ p ≠ s := by
  have hall : visibleChange p s Finset.univ = total p s := h.visibleChange_eq hgrows Finset.univ
  have hproportional : ∀ ks, Proportional p s ks := by
    intro ks
    rw [Proportional, hall, h.visibleChange_eq hgrows]
  have hmoves : visibleChange p s Finset.univ ≠ 0 ↔ p ≠ s := by
    rw [hall]
    exact not_congr (total_eq_zero_iff hgrows)
  exact ⟨fun h => hmoves.mp h.moves,
    fun hne => ⟨hmoves.mpr hne, hproportional _, hproportional _, hproportional _⟩⟩

/-- A share is a percentage. -/
theorem Percentage.of_share {x : ℚ} (htotal : 0 < total p s)
    (hshare : x * total p s = 100 * (∑ k ∈ ks, delta p s k : Nat)) : Percentage p s ks x := by
  have hpos : (0 : ℚ) < total p s := Nat.cast_pos.mpr htotal
  have hle : ((∑ k ∈ ks, delta p s k : Nat) : ℚ) ≤ total p s :=
    Nat.cast_le.mpr (sum_delta_le p s ks)
  have hnonneg : (0 : ℚ) ≤ (∑ k ∈ ks, delta p s k : Nat) := Nat.cast_nonneg _
  refine ⟨?_, ?_, hshare⟩
  · apply nonneg_of_mul_nonneg_left _ hpos
    rw [hshare]
    linarith
  · apply le_of_mul_le_mul_right _ hpos
    rw [hshare]
    linarith

theorem Percentage.compl {x : ℚ} (h : Percentage p s ks x) : Percentage p s ksᶜ (100 - x) := by
  have hsplit : ((∑ k ∈ ks, delta p s k : Nat) : ℚ) + (∑ k ∈ ksᶜ, delta p s k : Nat)
      = total p s := by
    rw [← Nat.cast_add, Finset.sum_add_sum_compl, total]
  have hshare := h.share
  refine ⟨sub_nonneg.mpr h.le, sub_le_self 100 h.nonneg, ?_⟩
  rw [← hsplit] at hshare ⊢
  linarith

theorem percentage_compl_iff {x : ℚ} : Percentage p s ksᶜ (100 - x) ↔ Percentage p s ks x := by
  constructor
  · intro h
    have hback := h.compl
    rwa [compl_compl, sub_sub_cancel] at hback
  · exact Percentage.compl

/-- The change of counters as a part of the change of all, as a call finds it. -/
def part (p s : CpuTimes) (ks : Finset (Fin 10)) : Option ℚ :=
  quotient (∑ k ∈ ks, (seen s k - seen p k)) (∑ k, seen s k - ∑ k, seen p k)

theorem visibleChange_univ_eq_zero :
    visibleChange p s Finset.univ = 0 ↔ ∑ k, seen s k - ∑ k, seen p k = 0 := by
  rw [← toNat_sum_seen, Finset.sum_sub_distrib]
  exact BitVec.toNat_inj (y := 0)

theorem part_of_still (h : visibleChange p s Finset.univ = 0) (ks : Finset (Fin 10)) :
    part p s ks = none := by
  rw [part, quotient, if_pos (visibleChange_univ_eq_zero.mp h)]

theorem part_of_moves (h : visibleChange p s Finset.univ ≠ 0) (ks : Finset (Fin 10)) :
    part p s ks = some ((visibleChange p s ks : ℚ) / visibleChange p s Finset.univ) := by
  rw [part, quotient, if_neg (mt visibleChange_univ_eq_zero.mpr h), ← Finset.sum_sub_distrib,
    toNat_sum_seen, toNat_sum_seen]

/-- Where a change is visible, counters have changed. -/
theorem total_pos (hgrows : ∀ k, p k ≤ s k) (hmoves : visibleChange p s Finset.univ ≠ 0) :
    0 < total p s := by
  apply Nat.pos_of_ne_zero
  intro hzero
  obtain rfl := (total_eq_zero_iff hgrows).mp hzero
  apply hmoves
  simp [visibleChange]

/-- The percentages of a call behind another one. -/
theorem utilization_eq (p s : CpuTimes) :
    utilization (globalsOf p true) (readStat ((statLine s ++ ['\n']).take 99))
      = { userUtil := (part p s {0, 1}).map (· * 100)
          sysUtil := (part p s {2}).map (· * 100)
          cpuUtil := (part p s {3, 4}).map fun x => (1 - x) * 100 } := by
  obtain ⟨hsum, huser, hsys, hidle⟩ := readStat_statLine s
  have hpair : ∀ i j : Fin 10, i ≠ j → seen s i + seen s j - (seen p i + seen p j)
      = ∑ k ∈ {i, j}, (seen s k - seen p k) := by
    intro i j hij
    rw [Finset.sum_pair hij, add_sub_add_comm]
  have hstate : (globalsOf p true).state = true := rfl
  rw [utilization, if_pos hstate, hsum, huser, hsys, hidle]
  simp only [globalsOf, hpair 0 1 (by decide), hpair 3 4 (by decide)]
  simp only [part, Finset.sum_singleton]

/-- What a later report stores under the three keys, from the counters before and now. -/
theorem values_hostOf (c : UtilCall) (p s : CpuTimes) (mem : MemInfo) :
    let host := hostOf c s mem (globalsOf p true)
    cpuValue host totalUtil = ((part p s {3, 4}).map fun x => (1 - x) * 100).map .real ∧
      cpuValue host userUtil = ((part p s {0, 1}).map (· * 100)).map .real ∧
      cpuValue host systemUtil = ((part p s {2}).map (· * 100)).map .real := by
  intro host
  obtain ⟨htotal, huser, hsystem⟩ := get_setUtilization
    (utilization (globalsOf p true) (readStat ((statLine s ++ ['\n']).take 99)))
  refine ⟨?_, ?_, ?_⟩
  · rw [cpuValue_hostOf, htotal, utilization_eq]
  · rw [cpuValue_hostOf, huser, utilization_eq]
  · rw [cpuValue_hostOf, hsystem, utilization_eq]

/-- A quotient is the percentage where the changes found are in proportion. -/
theorem percentage_part_iff (hgrows : ∀ k, p k ≤ s k) (ks : Finset (Fin 10)) :
    (∃ x, (part p s ks).map (· * 100) = some x ∧ Percentage p s ks x) ↔
      visibleChange p s Finset.univ ≠ 0 ∧ Proportional p s ks := by
  by_cases hstill : visibleChange p s Finset.univ = 0
  · rw [part_of_still hstill, Option.map_none]
    exact iff_of_false (fun ⟨_, hx, _⟩ => by cases hx) fun h => h.1 hstill
  · have hpos := total_pos hgrows hstill
    have hall : (visibleChange p s Finset.univ : ℚ) ≠ 0 := Nat.cast_ne_zero.mpr hstill
    have hshare : (visibleChange p s ks : ℚ) / visibleChange p s Finset.univ * 100 * total p s
          = 100 * (∑ k ∈ ks, delta p s k : Nat) ↔ Proportional p s ks := by
      rw [Proportional, ← Nat.cast_inj (R := ℚ), Nat.cast_mul, Nat.cast_mul]
      constructor
      · intro h
        field_simp at h
        linarith
      · intro h
        field_simp
        linarith
    rw [part_of_moves hstill, Option.map_some]
    constructor
    · rintro ⟨x, hx, hpercentage⟩
      obtain rfl := Option.some.inj hx
      exact ⟨hstill, hshare.mp hpercentage.share⟩
    · rintro ⟨-, hproportional⟩
      exact ⟨_, rfl, .of_share hpos (hshare.mpr hproportional)⟩

/-- What a quotient leaves of 1 is that of the other counters. -/
theorem percentage_rest_iff (hgrows : ∀ k, p k ≤ s k) (ks : Finset (Fin 10)) :
    (∃ x, (part p s ks).map (fun x => (1 - x) * 100) = some x ∧ Percentage p s ksᶜ x) ↔
      visibleChange p s Finset.univ ≠ 0 ∧ Proportional p s ks := by
  rw [← percentage_part_iff hgrows]
  cases part p s ks with
  | none => simp
  | some x =>
      have hrest : (1 - x) * 100 = 100 - x * 100 := by ring
      simp [hrest, percentage_compl_iff]

/-- **A report** has the percentages exactly where what is found is in proportion. -/
theorem percentages_iff_inProportion (hgrows : ∀ k, p k ≤ s k) (c : UtilCall) (mem : MemInfo) :
    Percentages (hostOf c s mem (globalsOf p true)) p s ↔ InProportion p s := by
  obtain ⟨htotal, huser, hsystem⟩ := values_hostOf c p s mem
  have htotal := (reported_iff htotal).trans (percentage_rest_iff hgrows {3, 4})
  have huser := (reported_iff huser).trans (percentage_part_iff hgrows {0, 1})
  have hsystem := (reported_iff hsystem).trans (percentage_part_iff hgrows {2})
  constructor
  · intro h
    have hidle := htotal.mp h.total
    exact ⟨hidle.1, hidle.2, (huser.mp h.user).2, (hsystem.mp h.system).2⟩
  · intro h
    exact ⟨htotal.mpr ⟨h.moves, h.idle⟩, huser.mpr ⟨h.moves, h.user⟩,
      hsystem.mpr ⟨h.moves, h.system⟩⟩

end Call

/-! ### A run -/

section Run

variable {t t' : UtilTrace} {c : UtilCall} {p s : CpuTimes}

/-- Between two calls the globals are those of the counters that were read last. -/
structure HoldsLastRead (t : UtilTrace) : Prop where
  state : t.globals.state = t.reported
  last : ∀ p, t.last = some p → t.globals = globalsOf p t.reported

theorem HoldsLastRead.start : HoldsLastRead .start := ⟨rfl, fun _ h => by cases h⟩

/-! A step, by what the call can open. -/

theorem step_of_no_stat (hstat : c.stat = none) (t : UtilTrace) :
    step t c = some ⟨t.globals, t.last, t.reported⟩ := by
  simp [step, call_of_no_stat hstat, hstat]

theorem step_of_no_mem {rest : List Char} (hstat : c.stat = some (s, rest)) (hmem : c.mem = none)
    (t : UtilTrace) : step t c = some ⟨globalsOf s t.globals.state, some s, t.reported⟩ := by
  simp [step, call_of_no_mem hstat hmem, hstat]

theorem step_of_both {rest : List Char} {mem : MemInfo} (hstat : c.stat = some (s, rest))
    (hmem : c.mem = some mem) (t : UtilTrace) :
    step t c = some ⟨globalsOf s true, some s, true⟩ := by
  simp [step, call_eq hstat hmem, hstat]

theorem HoldsLastRead.step (h : HoldsLastRead t) (hstep : step t c = some t') :
    HoldsLastRead t' := by
  cases hstat : c.stat with
  | none =>
      rw [step_of_no_stat hstat] at hstep
      exact Option.some.inj hstep ▸ h
  | some read =>
      obtain ⟨s, rest⟩ := read
      cases hmem : c.mem with
      | none =>
          rw [step_of_no_mem hstat hmem, h.state] at hstep
          obtain rfl := Option.some.inj hstep
          exact ⟨rfl, fun p hp => by rw [Option.some.inj hp]⟩
      | some mem =>
          rw [step_of_both hstat hmem] at hstep
          obtain rfl := Option.some.inj hstep
          exact ⟨rfl, fun p hp => by rw [Option.some.inj hp]⟩

/-- A call is right exactly where what it finds is in proportion. -/
theorem right_iff (h : HoldsLastRead t) (hgrows : GrowsAt t c) :
    ReportsRight t c ↔ ReportAt InProportion t c := by
  constructor
  · intro hright hreported hmem p s rest hlast hstat
    obtain ⟨mem, hmem⟩ := Option.isSome_iff_exists.mp hmem
    have hvalues := hright hreported p s rest hlast hstat _ _ (call_eq hstat hmem t.globals)
    rw [h.last p hlast, hreported] at hvalues
    exact (percentages_iff_inProportion (hgrows p s rest hlast hstat) c mem).mp hvalues
  · intro hfound hreported p s rest hlast hstat host g hcall
    cases hmem : c.mem with
    | none =>
        rw [call_of_no_mem hstat hmem] at hcall
        cases hcall
    | some mem =>
        rw [call_eq hstat hmem, h.last p hlast, hreported] at hcall
        obtain rfl := Option.some.inj (Prod.mk.inj (Prod.mk.inj hcall).2).1
        have hproportion : InProportion p s :=
          hfound hreported (Option.isSome_iff_exists.mpr ⟨mem, hmem⟩) p s rest hlast hstat
        exact (percentages_iff_inProportion (hgrows p s rest hlast hstat) c mem).mpr hproportion

theorem reportAt_iff (hgrows : GrowsAt t c) (hfit : FitAt t c) :
    ReportAt InProportion t c ↔ ReportAt (· ≠ ·) t c := by
  have hread : ReadAt InProportion t c ↔ ReadAt (· ≠ ·) t c :=
    forall_congr' fun p => forall_congr' fun s => forall_congr' fun rest =>
      imp_congr_right fun hlast => imp_congr_right fun hstat =>
        (hfit p s rest hlast hstat).inProportion_iff (hgrows p s rest hlast hstat)
  exact imp_congr_right fun _ => imp_congr_right fun _ => hread

/-- **The percentages, exactly.**  In a run whose counters do not decrease every report is
right where the visible changes are in proportion to the changes; and if all lines fit,
where some counter has changed. -/
theorem percentages_iff (calls : List UtilCall) (h : Runs.Along step GrowsAt .start calls) :
    (Runs.Along step ReportsRight .start calls ↔
      Runs.Along step (ReportAt InProportion) .start calls) ∧
    (Runs.Along step FitAt .start calls →
      (Runs.Along step ReportsRight .start calls ↔
        Runs.Along step (ReportAt (· ≠ ·)) .start calls)) := by
  have hexact := Runs.Along.iff_of_inv HoldsLastRead (fun hinv _ hstep => hinv.step hstep)
    (fun hinv hgrows => right_iff hinv hgrows) HoldsLastRead.start h
  refine ⟨hexact, fun hfit => hexact.trans ?_⟩
  exact Runs.Along.iff_of_inv HoldsLastRead (fun hinv _ hstep => hinv.step hstep)
    (fun _ hsees => reportAt_iff hsees.1 hsees.2) HoldsLastRead.start (h.and hfit)

/-- A call that finds these counters. -/
def callOf (s : CpuTimes) : UtilCall where
  ts := 0
  host := ⟨[], HostObject.fresh_nil⟩
  stat := some (s, [])
  mem := some ⟨1, 2⟩

/-- Ten seconds of a processor. -/
def tenSeconds : CpuTimes := ![100, 0, 50, 800, 50, 0, 0, 0, 0, 0]

/-- The counters of a line after twenty seconds. -/
def twentySeconds : CpuTimes := ![300, 0, 150, 1400, 150, 0, 0, 0, 0, 0]

theorem fits_tenSeconds : Fits tenSeconds := ⟨by decide, by decide⟩

theorem fits_twentySeconds : Fits twentySeconds := ⟨by decide, by decide⟩

theorem step_callOf (t : UtilTrace) (s : CpuTimes) :
    step t (callOf s) = some ⟨globalsOf s true, some s, true⟩ := step_of_both rfl rfl t

/-- Two calls, one after the other. -/
theorem along_callOf {P : UtilTrace → UtilCall → Prop} (p s : CpuTimes) :
    Runs.Along step P .start [callOf p, callOf s] ↔
      P .start (callOf p) ∧ P ⟨globalsOf p true, some p, true⟩ (callOf s) := by
  simp [Runs.Along, step_callOf]

/-- The first has nothing to compare with. -/
theorem along_readAt {P : CpuTimes → CpuTimes → Prop} {p s : CpuTimes} (h : P p s) :
    Runs.Along step (ReadAt P) .start [callOf p, callOf s] := by
  rw [along_callOf]
  constructor
  · intro p' s' rest hlast
    cases hlast
  intro p' s' rest hlast hstat
  obtain rfl : p = p' := Option.some.inj hlast
  obtain rfl : s = s' := (Prod.mk.inj (Option.some.inj hstat)).1
  exact h

/-- Twenty per cent of the time is user time, ten system time, and thirty not idle. -/
theorem percentages_twentySeconds :
    Runs.Along step ReportsRight .start [callOf tenSeconds, callOf twentySeconds] := by
  have hgrows : Runs.Along step GrowsAt .start [callOf tenSeconds, callOf twentySeconds] :=
    along_readAt (by decide)
  have hfit : Runs.Along step FitAt .start [callOf tenSeconds, callOf twentySeconds] :=
    along_readAt ⟨fits_tenSeconds, fits_twentySeconds, by decide⟩
  have hchanged := along_readAt (show tenSeconds ≠ twentySeconds by decide)
  refine ((percentages_iff _ hgrows).2 hfit).mpr ?_
  rw [along_callOf] at hchanged ⊢
  exact ⟨fun _ _ => hchanged.1, fun _ _ => hchanged.2⟩

/-- Two calls that find the same counters. -/
theorem not_percentages_same :
    Runs.Along step GrowsAt .start [callOf tenSeconds, callOf tenSeconds] ∧
      ¬ Runs.Along step ReportsRight .start [callOf tenSeconds, callOf tenSeconds] := by
  have hgrows : ∀ k, tenSeconds k ≤ tenSeconds k := fun k => BitVec.le_refl _
  refine ⟨along_readAt hgrows, fun h => ?_⟩
  have hright := ((along_callOf _ _).mp h).2
  have hvalues := hright rfl tenSeconds tenSeconds [] rfl rfl _ _ (call_eq rfl rfl _)
  have hmoves := ((percentages_iff_inProportion hgrows _ _).mp hvalues).moves
  exact hmoves (visibleChange_univ_eq_zero.mpr (sub_self _))

end Run

end CpuUtil

end Variorum
