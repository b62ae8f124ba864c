/-
Variorum/MonitorThread.lean

The process of `var_monitor`: its sampling thread and its main thread.

Both call `take_measurement`, which does its work under `mlock`: the thread in its
loop, for as long as `running` is set, and the main thread once more after it has
cleared the flag.  The thread is detached, so nobody waits for it, and the process
ends with the main thread.  What the two write goes to one log, and the headers
of the log and of the utilization file are flags that outlive a call.

A step is one operation of either thread (`next`), so a run is any interleaving of
the two.  The operation under the lock is an instance of `Locked`, and what the
log holds follows from the account that is kept there:

* `monitorLog` — in every interleaving, the log is the header, once, and the lines
  of the measurements in the order of the lock; only a line that is being written
  can be incomplete;
* `monitorStops` — behind the stop there is at most one measurement of the thread
  and one of the main thread, whatever is measured and printed, and the times of
  the summary are in order unless the clock is set back.
-/
import Variorum.Locked
import Variorum.MonitorCsv
import Variorum.Runs
import Variorum.UtilJson

namespace Variorum.MonitorThread

open Locked Runs UtilJson PowerJson
open Json (Object)

/-! ### `take_measurement` -/

/-- `struct thread_args`, without the interval. -/
structure MonitorArgs where
  measureAll : Bool
  powerWithUtil : Bool
  deriving DecidableEq, Repr

/-- `write_header` and `write_util_header`. -/
structure Headers where
  writeHeader : Bool
  writeUtilHeader : Bool
  deriving DecidableEq, Repr

/-- What a measurement finds: the number of sockets, the objects that the two JSON calls
return, where they return 0, and the texts that `variorum_monitoring` writes. -/
structure Reading where
  numSockets : Int
  power : Option PowerCall
  util : Option Object
  monitoring : List (List Char)

/-- The two files that a measurement writes to. -/
inductive OutputFile
  | logfile
  | utilfile
  deriving DecidableEq, Repr

/-- One `fprintf`, with the file and the text. -/
structure Write where
  file : OutputFile
  text : List Char

/-- A text of the utilization file, with the character behind it. -/
def fieldText (f : Field) : List Char := f.text ++ [f.stop]

/-- The header: the first two names, the next four, and one call for each device. -/
def headerWrites (fields : List Field) : List (List Char) :=
  if fields.isEmpty then []
  else (fields.take 2).flatMap fieldText :: ((fields.drop 2).take 4).flatMap fieldText ::
    (fields.drop 6).map fieldText

/-- The row, in which the last device and its newline are two calls. -/
def rowWrites (fields : List Field) : List (List Char) :=
  (fields.take 2).flatMap fieldText :: ((fields.drop 2).take 4).flatMap fieldText ::
    (fields.drop 6).flatMap fun f => if f.stop = '\n' then [f.text, ['\n']] else [fieldText f]

/-- What `parse_json_power_obj` writes. -/
def powerWrites (printed : Printed) : List Write :=
  [⟨.logfile, printed.header⟩, ⟨.logfile, printed.values⟩]

/-- What `parse_json_util_obj` writes. -/
def utilWrites (printed : UtilPrinted) : List Write :=
  (headerWrites printed.header ++ rowWrites printed.row).map fun text => ⟨.utilfile, text⟩

/-- `take_measurement`: what it writes, and the flags behind it unless it ends the process. -/
def takeMeasurement (args : MonitorArgs) : Op Reading Headers Write := fun headers r =>
  if args.measureAll then
    some (r.monitoring.map fun text => ⟨.logfile, text⟩, some headers)
  else if r.numSockets ≤ 0 then some ([], none)
  else
    match r.power with
    | none => some ([], none)
    | some call =>
        (parseJsonPowerObj r.numSockets.toNat headers.writeHeader call.hostname call.node).bind
          fun (printed, flag) =>
            if args.powerWithUtil then
              match r.util with
              -- the power has been written by now
              | none => some (powerWrites printed, none)
              | some util =>
                  (parseJsonUtilObj r.numSockets.toNat headers.writeUtilHeader util).map
                    fun (printedUtil, utilFlag) =>
                      (powerWrites printed ++ utilWrites printedUtil, some ⟨flag, utilFlag⟩)
            else some (powerWrites printed, some ⟨flag, headers.writeUtilHeader⟩)

/-! ### The two threads -/

inductive Party
  | main
  | sampler
  deriving DecidableEq, Repr

/-- Where the main thread is, behind `pthread_create`: it waits for the application, calls
`take_measurement`, is in it, reads the clock, writes the summary. -/
inductive MainPc
  | waiting
  | calling
  | measuring
  | ending
  | summarizing
  | exited
  deriving DecidableEq, Repr

/-- Where the thread is in `power_measurement`: before the clock, in `timer_sleep`, at the
test of the loop, before and in `take_measurement`. -/
inductive SamplerPc
  | created
  | napping
  | testing
  | calling
  | measuring
  | done
  deriving DecidableEq, Repr

/-- The process.  `start` and `end` are 0 until they are set; `clock` is what `now_ms`
would read, which is the realtime clock of the system. -/
structure Process where
  clock : Nat
  running : Bool
  main : MainPc
  sampler : SamplerPc
  shared : Shared Party Reading Headers Write
  start : Nat
  finish : Nat
  summary : Option (Nat × Nat)

/-- An operation of one of the threads, or one of the system: its clock goes on, or is
set, to another time. -/
inductive Action
  | shows (now : Nat)
  | starts
  | wakes
  | tests
  | stops
  | ends
  | summarizes
  | calls (p : Party)
  | section (p : Party) (m : Move Reading)
  | returns (p : Party)

namespace Process

/-- Behind `pthread_create`, with both headers still to be written. -/
def start₀ (clock : Nat) : Process :=
  ⟨clock, true, .waiting, .created, .start ⟨true, true⟩, 0, 0, none⟩

/-- A thread calls `take_measurement`, or returns from it. -/
def calls (s : Process) : Party → Option Process
  | .main =>
      if s.main = .calling then
        (s.shared.enter .main).map fun shared => { s with main := .measuring, shared := shared }
      else none
  | .sampler =>
      if s.sampler = .calling then
        (s.shared.enter .sampler).map fun shared =>
          { s with sampler := .measuring, shared := shared }
      else none

def returns (s : Process) : Party → Option Process
  | .main =>
      match s.shared.place .main with
      | .outside => if s.main = .measuring then some { s with main := .ending } else none
      | _ => none
  | .sampler =>
      match s.shared.place .sampler with
      | .outside => if s.sampler = .measuring then some { s with sampler := .napping } else none
      | _ => none

/-- One operation; `none` where no thread is at it, and when the process has ended. -/
def next (args : MonitorArgs) (s : Process) (a : Action) : Option Process :=
  if s.main = .exited then none
  else
    match a with
    | .shows now => some { s with clock := now }
    | .starts =>
        if s.sampler = .created then some { s with sampler := .napping, start := s.clock }
        else none
    | .wakes => if s.sampler = .napping then some { s with sampler := .testing } else none
    | .tests =>
        if s.sampler = .testing then
          some { s with sampler := if s.running then .calling else .done }
        else none
    | .stops =>
        if s.main = .waiting then some { s with main := .calling, running := false } else none
    | .ends =>
        if s.main = .ending then some { s with main := .summarizing, finish := s.clock } else none
    | .summarizes =>
        if s.main = .summarizing then
          some { s with main := .exited, summary := some (s.start, s.finish) }
        else none
    | .calls p => s.calls p
    | .section p m =>
        (s.shared.move (takeMeasurement args) p m).map fun shared => { s with shared := shared }
    | .returns p => s.returns p

/-! ### What a step does -/

/-- The operations, each with what it needs and what it changes. -/
inductive Step (args : MonitorArgs) (s : Process) : Action → Process → Prop
  | shows (now : Nat) : Step args s (.shows now) { s with clock := now }
  | starts : s.sampler = .created →
      Step args s .starts { s with sampler := .napping, start := s.clock }
  | wakes : s.sampler = .napping → Step args s .wakes { s with sampler := .testing }
  | tests : s.sampler = .testing →
      Step args s .tests { s with sampler := if s.running then .calling else .done }
  | stops : s.main = .waiting → Step args s .stops { s with main := .calling, running := false }
  | ends : s.main = .ending →
      Step args s .ends { s with main := .summarizing, finish := s.clock }
  | summarizes : s.main = .summarizing →
      Step args s .summarizes { s with main := .exited, summary := some (s.start, s.finish) }
  | mainCalls {shared} : s.main = .calling → s.shared.enter .main = some shared →
      Step args s (.calls .main) { s with main := .measuring, shared := shared }
  | samplerCalls {shared} : s.sampler = .calling → s.shared.enter .sampler = some shared →
      Step args s (.calls .sampler) { s with sampler := .measuring, shared := shared }
  | inside {p m shared} : s.shared.move (takeMeasurement args) p m = some shared →
      Step args s (.section p m) { s with shared := shared }
  | mainReturns : s.main = .measuring → s.shared.place .main = .outside →
      Step args s (.returns .main) { s with main := .ending }
  | samplerReturns : s.sampler = .measuring → s.shared.place .sampler = .outside →
      Step args s (.returns .sampler) { s with sampler := .napping }

variable {args : MonitorArgs} {s s' : Process} {a : Action}

theorem some_of_ite {α : Type*} {c : Prop} [Decidable c] {x y : α}
    (h : (if c then some x else none) = some y) : c ∧ y = x := by
  split at h
  case isTrue hc => exact ⟨hc, (Option.some.inj h).symm⟩
  case isFalse => cases h

theorem step_of_returns {p : Party} (h : s.returns p = some s') :
    Step args s (.returns p) s' := by
  cases p with
  | main =>
      rw [returns] at h
      cases hp : s.shared.place .main with
      | outside =>
          rw [hp] at h
          obtain ⟨hmain, rfl⟩ := some_of_ite h
          exact .mainReturns hmain hp
      | _ => rw [hp] at h; cases h
  | sampler =>
      rw [returns] at h
      cases hp : s.shared.place .sampler with
      | outside =>
          rw [hp] at h
          obtain ⟨hsampler, rfl⟩ := some_of_ite h
          exact .samplerReturns hsampler hp
      | _ => rw [hp] at h; cases h

theorem step_of_calls {p : Party} (h : s.calls p = some s') : Step args s (.calls p) s' := by
  cases p with
  | main =>
      rw [calls] at h
      split at h
      case isTrue hmain =>
        obtain ⟨shared, hshared, rfl⟩ := Option.map_eq_some_iff.mp h
        exact .mainCalls hmain hshared
      case isFalse => cases h
  | sampler =>
      rw [calls] at h
      split at h
      case isTrue hsampler =>
        obtain ⟨shared, hshared, rfl⟩ := Option.map_eq_some_iff.mp h
        exact .samplerCalls hsampler hshared
      case isFalse => cases h

/-- A process that has ended makes no step, and the others are these. -/
theorem step_of_next (h : s.next args a = some s') : s.main ≠ .exited ∧ Step args s a s' := by
  unfold next at h
  split at h
  case isTrue => cases h
  case isFalse hexited =>
    refine ⟨hexited, ?_⟩
    cases a with
    | shows now =>
        obtain rfl := Option.some.inj h
        exact .shows now
    | starts => obtain ⟨hc, rfl⟩ := some_of_ite h; exact .starts hc
    | wakes => obtain ⟨hc, rfl⟩ := some_of_ite h; exact .wakes hc
    | tests => obtain ⟨hc, rfl⟩ := some_of_ite h; exact .tests hc
    | stops => obtain ⟨hc, rfl⟩ := some_of_ite h; exact .stops hc
    | ends => obtain ⟨hc, rfl⟩ := some_of_ite h; exact .ends hc
    | summarizes => obtain ⟨hc, rfl⟩ := some_of_ite h; exact .summarizes hc
    | calls p => exact step_of_calls h
    | «section» p m =>
        obtain ⟨shared, hshared, rfl⟩ := Option.map_eq_some_iff.mp h
        exact .inside hshared
    | returns p => exact step_of_returns h

/-! ### The log -/

/-- **A step** keeps the account of the measurements. -/
theorem Step.serial {h₀ : Headers} (hs : Step args s a s')
    (h : Shared.Serial (takeMeasurement args) h₀ s.shared) :
    Shared.Serial (takeMeasurement args) h₀ s'.shared := by
  cases hs with
  | mainCalls _ hshared => exact h.enter hshared
  | samplerCalls _ hshared => exact h.enter hshared
  | inside hshared => exact h.move hshared
  | _ => exact h

/-- The account of every reachable state. -/
theorem serial {clock : Nat} {as : List Action}
    (hrun : exec (next args) (start₀ clock) as = some s) :
    Shared.Serial (takeMeasurement args) ⟨true, true⟩ s.shared :=
  exec_inv (fun s => Shared.Serial (takeMeasurement args) ⟨true, true⟩ s.shared)
    (fun h hs => (step_of_next hs).2.serial h) (Shared.serial_start _ _) hrun

end Process

/-- What has been written to the log. -/
def logText (writes : List Write) : List Char :=
  (writes.filter fun w => w.file = .logfile).flatMap Write.text

theorem logText_append (writes writes' : List Write) :
    logText (writes ++ writes') = logText writes ++ logText writes' := by
  simp [logText]

theorem logText_utilWrites (printed : UtilPrinted) : logText (utilWrites printed) = [] := by
  simp [logText, utilWrites]

theorem logText_powerWrites (printed : Printed) :
    logText (powerWrites printed) = printed.header ++ printed.values := by
  simp [logText, powerWrites]

/-- The text grows with what is written. -/
theorem logText_mono {writes writes' : List Write} (h : writes <+: writes') :
    logText writes <+: logText writes' := by
  obtain ⟨rest, rfl⟩ := h
  exact ⟨logText rest, (logText_append _ _).symm⟩

section Log

variable {args : MonitorArgs} {headers : Headers} {n : Nat} {r : Reading} {rs : List Reading}
  {outs : List Write} {next : Option Headers}

/-- What one measurement adds to the log: nothing where the power cannot be had, which
ends the process, and else what `parse_json_power_obj` prints. -/
theorem takeMeasurement_log (hargs : args.measureAll = false) (hn : 0 < n)
    (hr : r.numSockets = n) (h : takeMeasurement args headers r = some (outs, next)) :
    (r.power = none ∧ outs = [] ∧ next = none) ∨
      ∃ call printed flag, r.power = some call ∧
        parseJsonPowerObj n headers.writeHeader call.hostname call.node = some (printed, flag) ∧
        logText outs = printed.header ++ printed.values ∧
        ∀ headers', next = some headers' → headers'.writeHeader = flag := by
  rw [takeMeasurement, hargs, if_neg Bool.false_ne_true, hr,
    if_neg (not_le.mpr (Int.natCast_pos.mpr hn)), Int.toNat_natCast] at h
  -- without a power reading the process exits before anything is written
  cases hpower : r.power with
  | none =>
      rw [hpower] at h
      obtain ⟨rfl, rfl⟩ := Prod.mk.inj (Option.some.inj h)
      exact .inl ⟨rfl, rfl, rfl⟩
  | some call =>
      rw [hpower] at h
      obtain ⟨⟨printed, flag⟩, hparse, hrest⟩ := Option.bind_eq_some_iff.mp h
      refine .inr ⟨call, printed, flag, rfl, hparse, ?_⟩
      simp only at hrest
      split at hrest
      case isFalse =>
        obtain ⟨rfl, rfl⟩ := Prod.mk.inj (Option.some.inj hrest)
        refine ⟨logText_powerWrites printed, fun headers' h' => ?_⟩
        rw [← Option.some.inj h']
      case isTrue =>
        -- the lines of the utilisation go into another file, so the log does not see them
        cases hutil : r.util with
        | none =>
            rw [hutil] at hrest
            obtain ⟨rfl, rfl⟩ := Prod.mk.inj (Option.some.inj hrest)
            exact ⟨logText_powerWrites printed, nofun⟩
        | some util =>
            rw [hutil] at hrest
            obtain ⟨⟨printedUtil, utilFlag⟩, -, heq⟩ := Option.map_eq_some_iff.mp hrest
            obtain ⟨rfl, rfl⟩ := Prod.mk.inj heq
            refine ⟨?_, fun headers' h' => ?_⟩
            · rw [logText_append, logText_powerWrites, logText_utilWrites, List.append_nil]
            · rw [← Option.some.inj h']

/-- **Measurements one after the other** write to the log what `parse_json_power_obj`
prints of their powers one after the other. -/
theorem runMonitor_of_runOps (hargs : args.measureAll = false) (hn : 0 < n)
    (hrs : ∀ r ∈ rs, r.numSockets = n)
    (h : runOps (takeMeasurement args) (some headers) rs = some (outs, next)) :
    ∃ out, runMonitor n headers.writeHeader (rs.filterMap Reading.power) = some out ∧
      logText outs = logOf out := by
  -- by induction on the measurements; the flag of the header is what one hands to the next
  induction rs generalizing headers outs with
  | nil =>
      rw [runOps_nil] at h
      obtain ⟨rfl, -⟩ := Prod.mk.inj (Option.some.inj h)
      exact ⟨[], rfl, rfl⟩
  | cons r rs ih =>
      obtain ⟨hr, hrs⟩ := List.forall_mem_cons.mp hrs
      rw [runOps_cons] at h
      obtain ⟨⟨first, mid⟩, hfirst, hmap⟩ := Option.bind_eq_some_iff.mp h
      obtain ⟨⟨rest, last⟩, hrest, heq⟩ := Option.map_eq_some_iff.mp hmap
      obtain ⟨rfl, rfl⟩ := Prod.mk.inj heq
      rcases takeMeasurement_log hargs hn hr hfirst with
        ⟨hpower, rfl, rfl⟩ | ⟨call, printed, flag, hpower, hparse, htext, hflag⟩
      · -- the process has ended
        cases rs with
        | cons r' rs => cases hrest
        | nil =>
            obtain ⟨rfl, -⟩ := Prod.mk.inj (Option.some.inj hrest)
            rw [List.filterMap_cons_none hpower]
            exact ⟨[], rfl, rfl⟩
      -- the rest of the run, which is empty where this measurement was the last
      · have htail : ∃ out, runMonitor n flag (rs.filterMap Reading.power) = some out ∧
            logText rest = logOf out := by
          cases mid with
          | some headers' =>
              rw [← hflag headers' rfl]
              exact ih hrs hrest
          | none =>
              cases rs with
              | cons r' rs => cases hrest
              | nil =>
                  obtain ⟨rfl, -⟩ := Prod.mk.inj (Option.some.inj hrest)
                  exact ⟨[], rfl, rfl⟩
        obtain ⟨out, hout, hlog⟩ := htail
        refine ⟨printed :: out, ?_, ?_⟩
        · rw [List.filterMap_cons_some hpower, runMonitor, hparse]
          simp [hout]
        · rw [logText_append, htext, hlog]
          simp [logOf]

end Log

/-! ### The lines -/

/-- The header and the lines of some calls. -/
def wholeLog {sh : PowerShape} : List (ShapedCall sh) → List Char
  | [] => []
  | c :: cs => (c.headerLine :: (c :: cs).map ShapedCall.line).flatten

section Lines

variable {sh : PowerShape}

/-- The calls of a list, with the shape of their objects. -/
theorem exists_shaped {calls : List PowerCall}
    (h : ∀ call ∈ calls, ∃ x, sh.Matches x call.node) :
    ∃ cs : List (ShapedCall sh), cs.map ShapedCall.toPowerCall = calls := by
  induction calls with
  | nil => exact ⟨[], rfl⟩
  | cons call calls ih =>
      obtain ⟨⟨x, hx⟩, hrest⟩ := List.forall_mem_cons.mp h
      obtain ⟨cs, rfl⟩ := ih hrest
      exact ⟨⟨call, x, hx⟩ :: cs, rfl⟩

/-- What a run from the first call on writes. -/
theorem logOf_eq_wholeLog {cs : List (ShapedCall sh)} {out : List Printed}
    (h : runMonitor sh.sockets true (cs.map ShapedCall.toPowerCall) = some out) :
    logOf out = wholeLog cs := by
  cases cs with
  | nil =>
      obtain rfl := Option.some.inj h
      rfl
  | cons c cs =>
      obtain ⟨-, -, rfl⟩ := runMonitor_iff.mp h
      exact logOf_run c cs

/-- One call more or less. -/
theorem wholeLog_dropLast_prefix (cs : List (ShapedCall sh)) :
    wholeLog cs.dropLast <+: wholeLog cs := by
  cases cs with
  | nil => exact List.prefix_refl _
  | cons c cs =>
      cases cs with
      | nil => exact List.nil_prefix
      | cons c' cs =>
          show (c.headerLine :: (c :: (c' :: cs).dropLast).map ShapedCall.line).flatten <+: _
          have hdrop : (c :: (c' :: cs).dropLast) <+: c :: c' :: cs :=
            List.dropLast_prefix (c :: c' :: cs)
          obtain ⟨last, hlast⟩ := hdrop
          refine ⟨(last.map ShapedCall.line).flatten, ?_⟩
          rw [wholeLog, ← hlast]
          simp

end Lines

/-- **The log of `var_monitor`**, without the option `-v` and with measurements of one
shape.  However the two threads interleave, the log holds the header, once, and the
lines of the measurements in the order in which they had the lock; it is complete where
the lock is free, and elsewhere only the last line can be missing or cut, with the
header above it if it is the first one. -/
theorem monitorLog {args : MonitorArgs} (hargs : args.measureAll = false) {sh : PowerShape}
    {clock : Nat} {as : List Action} {s : Process}
    (hrun : exec (Process.next args) (Process.start₀ clock) as = some s)
    (hsockets : ∀ r ∈ s.shared.calls, r.numSockets = sh.sockets)
    (hshape : ∀ r ∈ s.shared.calls, ∀ call, r.power = some call →
      ∃ x, sh.Matches x call.node) :
    ∃ cs : List (ShapedCall sh),
      cs.map ShapedCall.toPowerCall = s.shared.calls.filterMap Reading.power ∧
      wholeLog cs.dropLast <+: logText s.shared.out ∧
      logText s.shared.out <+: wholeLog cs ∧
      (s.shared.lock = none → logText s.shared.out = wholeLog cs) := by
  have hserial := Process.serial hrun
  have hcalls : ∀ call ∈ s.shared.calls.filterMap Reading.power, ∃ x, sh.Matches x call.node := by
    intro call hcall
    obtain ⟨r, hr, hpower⟩ := List.mem_filterMap.mp hcall
    exact hshape r hr call hpower
  obtain ⟨cs, hcs⟩ := exists_shaped hcalls
  have hrunOf : ∀ rs : List Reading, (∀ r ∈ rs, r.numSockets = sh.sockets) →
      ∀ outs next, runOps (takeMeasurement args) (some ⟨true, true⟩) rs = some (outs, next) →
      ∃ out, runMonitor sh.sockets true (rs.filterMap Reading.power) = some out ∧
        logText outs = logOf out :=
    fun rs hrs outs next h => runMonitor_of_runOps hargs sh.sockets_pos hrs h
  -- all that has been written, with what is still owed, is the log of all calls
  obtain ⟨out, hout, hlog⟩ := hrunOf _ hsockets _ _ hserial.account
  rw [← hcs] at hout
  have hwhole : logText (s.shared.out ++ s.shared.owed.1) = wholeLog cs :=
    hlog.trans (logOf_eq_wholeLog hout)
  refine ⟨cs, hcs, ?_, ?_, fun hfree => ?_⟩
  · rcases List.eq_nil_or_concat' s.shared.calls with hnil | ⟨rs, r, hconcat⟩
    · rw [hnil] at hcs
      obtain rfl := List.map_eq_nil_iff.mp hcs
      exact List.nil_prefix
    -- before the last call everything was written
    · obtain ⟨front, mid, hfront, hcut⟩ := hserial.whole rs r hconcat
      have hrs : ∀ r ∈ rs, r.numSockets = sh.sockets := fun r' hr' =>
        hsockets r' (hconcat ▸ List.mem_append_left _ hr')
      obtain ⟨outFront, houtFront, hlogFront⟩ := hrunOf rs hrs front mid hfront
      refine List.IsPrefix.trans ?_ (logText_mono hcut)
      rw [hconcat, List.filterMap_append] at hcs
      cases hpower : r.power with
      | some call =>
          rw [List.filterMap_cons_some hpower, List.filterMap_nil] at hcs
          have hdrop : cs.dropLast.map ShapedCall.toPowerCall = rs.filterMap Reading.power := by
            rw [List.map_dropLast, hcs, List.dropLast_concat]
          rw [← hdrop] at houtFront
          rw [hlogFront, logOf_eq_wholeLog houtFront]
      | none =>
          rw [List.filterMap_cons_none hpower, List.filterMap_nil, List.append_nil] at hcs
          rw [← hcs] at houtFront
          rw [hlogFront, logOf_eq_wholeLog houtFront]
          exact wholeLog_dropLast_prefix cs
  · rw [← hwhole, logText_append]
    exact List.prefix_append _ _
  · rw [← hwhole, Shared.owed_of_free hfree, List.append_nil]

/-- A node with one socket and the power of its CPU. -/
def oneCpu : PowerShape :=
  ⟨1, Nat.one_pos, GpuNode.one_lt, false, fun _ => true, fun _ => false, none⟩

/-- The node object of a socket that has a CPU and nothing else. -/
def oneCpuNode : Object := [("socket_0".toList, .object [(powerCpuWatts, .real 5)])]

theorem oneCpu_matches :
    oneCpu.Matches ⟨0, fun _ => 5, fun _ => 0, fun _ => 0⟩ oneCpuNode where
  node := rfl
  gpus := rfl
  total h := absurd h (by decide)
  socket i hi := by
    obtain rfl : i = 0 := Nat.lt_one_iff.mp hi
    exact ⟨_, rfl, rfl, rfl, fun h => absurd h (by decide)⟩

/-- A measurement that finds this node. -/
def oneCpuReading : Reading := ⟨1, some ⟨['n'], oneCpuNode⟩, none, []⟩

/-- The thread has written the header and not yet its line, and the main thread waits. -/
def waitingRun : List Action :=
  [.starts, .wakes, .tests, .calls .sampler, .section .sampler .acquire, .stops, .calls .main,
    .section .sampler (.perform oneCpuReading), .section .sampler .emit]

theorem monitorLog_waiting :
    ∃ s, exec (Process.next ⟨false, false⟩) (Process.start₀ 7) waitingRun = some s ∧
      s.shared.lock = some .sampler ∧
      ∃ cs : List (ShapedCall oneCpu),
        cs.map ShapedCall.toPowerCall = s.shared.calls.filterMap Reading.power ∧
        wholeLog cs.dropLast <+: logText s.shared.out ∧
        logText s.shared.out <+: wholeLog cs ∧
        (s.shared.lock = none → logText s.shared.out = wholeLog cs) := by
  have hshape : ∀ call, oneCpuReading.power = some call → ∃ x, oneCpu.Matches x call.node := by
    intro call hcall
    obtain rfl := Option.some.inj hcall
    exact ⟨_, oneCpu_matches⟩
  refine ⟨_, rfl, rfl, @monitorLog ⟨false, false⟩ rfl oneCpu 7 waitingRun _ rfl ?_ ?_⟩
  · exact List.forall_mem_singleton.mpr rfl
  · exact List.forall_mem_singleton.mpr hshape

/-! ### The stop -/

namespace Process

/-- The calls of `take_measurement` that a thread is on its way to: one for the main
thread until it has performed it, and one for the other between its test and its call. -/
def due (s : Process) : Party → Nat
  | .main =>
      match s.main with
      | .waiting | .calling => 1
      | .measuring => (s.shared.place .main).due
      | .ending | .summarizing | .exited => 0
  | .sampler =>
      match s.sampler with
      | .calling => 1
      | .measuring => (s.shared.place .sampler).due
      | .created | .napping | .testing | .done => 0

/-- A thread that is in the operation has called `take_measurement`, and the flag is set
until the main thread clears it. -/
structure Orderly (s : Process) : Prop where
  main : s.shared.place .main ≠ .outside → s.main = .measuring
  sampler : s.shared.place .sampler ≠ .outside → s.sampler = .measuring
  running : s.running = true ↔ s.main = .waiting

variable {args : MonitorArgs} {s s' : Process} {a : Action}

theorem orderly_start (clock : Nat) : (start₀ clock).Orderly :=
  ⟨fun h => absurd rfl h, fun h => absurd rfl h, fun _ => rfl, fun _ => rfl⟩

/-- **A step** keeps the order. -/
theorem Step.orderly (hs : Step args s a s') (h : s.Orderly) : s'.Orderly := by
  -- a step moves one thread; of the other one nothing changes
  cases hs with
  | shows => exact ⟨h.main, h.sampler, h.running⟩
  | starts hc => exact ⟨h.main, fun hp => absurd (hc.symm.trans (h.sampler hp)) nofun, h.running⟩
  | wakes hc => exact ⟨h.main, fun hp => absurd (hc.symm.trans (h.sampler hp)) nofun, h.running⟩
  | tests hc => exact ⟨h.main, fun hp => absurd (hc.symm.trans (h.sampler hp)) nofun, h.running⟩
  | stops hc => exact ⟨fun hp => absurd (hc.symm.trans (h.main hp)) nofun, h.sampler, nofun, nofun⟩
  | ends hc =>
      refine ⟨fun hp => absurd (hc.symm.trans (h.main hp)) nofun, h.sampler, fun hr => ?_, nofun⟩
      exact absurd (hc.symm.trans (h.running.mp hr)) nofun
  | summarizes hc =>
      refine ⟨fun hp => absurd (hc.symm.trans (h.main hp)) nofun, h.sampler, fun hr => ?_, nofun⟩
      exact absurd (hc.symm.trans (h.running.mp hr)) nofun
  | mainCalls hc hshared =>
      obtain ⟨-, -, -, hothers⟩ := Shared.enter_due hshared
      refine ⟨fun _ => rfl, fun hp => h.sampler ?_, fun hr => ?_, nofun⟩
      · rw [← hothers .sampler nofun]
        exact hp
      · exact absurd (hc.symm.trans (h.running.mp hr)) nofun
  | samplerCalls hc hshared =>
      obtain ⟨-, -, -, hothers⟩ := Shared.enter_due hshared
      refine ⟨fun hp => h.main ?_, fun _ => rfl, h.running⟩
      rw [← hothers .main nofun]
      exact hp
  | @inside p m shared hshared =>
      obtain ⟨new, -, -, hothers⟩ := Shared.move_due hshared
      have hp := Shared.ne_outside_of_move hshared
      -- a thread that has a move is inside an operation, and its own clause says which
      cases p with
      | main =>
          refine ⟨fun _ => h.main hp, fun hsampler => h.sampler ?_, h.running⟩
          rw [← (hothers .sampler nofun).1]
          exact hsampler
      | sampler =>
          refine ⟨fun hmain => h.main ?_, fun _ => h.sampler hp, h.running⟩
          rw [← (hothers .main nofun).1]
          exact hmain
  | mainReturns hc hp =>
      refine ⟨fun hplace => absurd hp hplace, h.sampler, fun hr => ?_, nofun⟩
      exact absurd (hc.symm.trans (h.running.mp hr)) nofun
  | samplerReturns hc hp => exact ⟨h.main, fun hplace => absurd hp hplace, h.running⟩

/-- What a step adds to the measurements: those that the threads are no longer due.  Only
a test that finds the flag set makes one due. -/
theorem Step.due (hs : Step args s a s') (h : s.Orderly) :
    ∃ new, s'.shared.taken = s.shared.taken ++ new ∧
      s'.due .main + (new.map Prod.fst).count .main = s.due .main ∧
      (s.running = false →
        s'.due .sampler + (new.map Prod.fst).count .sampler = s.due .sampler) := by
  cases hs with
  | shows => exact ⟨[], (List.append_nil _).symm, rfl, fun _ => rfl⟩
  | starts hc =>
      refine ⟨[], (List.append_nil _).symm, rfl, fun _ => ?_⟩
      simp [Process.due, hc]
  | wakes hc =>
      refine ⟨[], (List.append_nil _).symm, rfl, fun _ => ?_⟩
      simp [Process.due, hc]
  -- the only step that makes a measurement due, and only while the flag is set
  | tests hc =>
      refine ⟨[], (List.append_nil _).symm, rfl, fun hr => ?_⟩
      simp [Process.due, hc, hr]
  | stops hc =>
      refine ⟨[], (List.append_nil _).symm, ?_, fun _ => rfl⟩
      simp [Process.due, hc]
  | ends hc =>
      refine ⟨[], (List.append_nil _).symm, ?_, fun _ => rfl⟩
      simp [Process.due, hc]
  | summarizes hc =>
      refine ⟨[], (List.append_nil _).symm, ?_, fun _ => rfl⟩
      simp [Process.due, hc]
  | mainCalls hc hshared =>
      obtain ⟨htaken, -, hdue, hothers⟩ := Shared.enter_due hshared
      refine ⟨[], htaken.trans (List.append_nil _).symm, ?_, fun _ => ?_⟩
      · simp [Process.due, hc, hdue]
      · simp [Process.due, hothers .sampler nofun]
  | samplerCalls hc hshared =>
      obtain ⟨htaken, -, hdue, hothers⟩ := Shared.enter_due hshared
      refine ⟨[], htaken.trans (List.append_nil _).symm, ?_, fun _ => ?_⟩
      · simp [Process.due, hothers .main nofun]
      · simp [Process.due, hc, hdue]
  -- inside the operation the account of the lock says what is due
  | @inside p m shared hshared =>
      obtain ⟨new, htaken, hdue, hothers⟩ := Shared.move_due hshared
      have hp := Shared.ne_outside_of_move hshared
      refine ⟨new, htaken, ?_, fun _ => ?_⟩
      · cases p with
        | main => simpa [Process.due, h.main hp] using hdue
        | sampler => simp [Process.due, hothers .main nofun]
      · cases p with
        | main => simp [Process.due, hothers .sampler nofun]
        | sampler => simpa [Process.due, h.sampler hp] using hdue
  | mainReturns hc hp =>
      refine ⟨[], (List.append_nil _).symm, ?_, fun _ => rfl⟩
      simp [Process.due, hc, hp, Place.due]
  | samplerReturns hc hp =>
      refine ⟨[], (List.append_nil _).symm, rfl, fun _ => ?_⟩
      simp [Process.due, hc, hp, Place.due]

/-- The main thread performs one measurement, or is still due it. -/
structure MainOnce (s : Process) : Prop extends s.Orderly where
  once : s.due .main + (s.shared.taken.map Prod.fst).count .main = 1

theorem Step.mainOnce (hs : Step args s a s') (h : s.MainOnce) : s'.MainOnce := by
  refine ⟨hs.orderly h.toOrderly, ?_⟩
  obtain ⟨new, htaken, hmain, -⟩ := hs.due h.toOrderly
  rw [htaken, List.map_append, List.count_append]
  have honce := h.once
  omega

/-- With the flag cleared, the measurements of a run are those that were due. -/
theorem due_of_run {as : List Action} (h : s.Orderly) (hstopped : s.main ≠ .waiting)
    (hrun : exec (next args) s as = some s') :
    ∃ new, s'.shared.taken = s.shared.taken ++ new ∧
      ∀ p, s'.due p + (new.map Prod.fst).count p = s.due p := by
  induction as generalizing s with
  | nil =>
      obtain rfl := Option.some.inj hrun
      exact ⟨[], (List.append_nil _).symm, fun _ => rfl⟩
  | cons a as ih =>
      obtain ⟨s₁, hs₁, hrest⟩ := Option.bind_eq_some_iff.mp hrun
      have hstep := (step_of_next hs₁).2
      have hstopped₁ : s₁.main ≠ .waiting := by
        cases hstep with
        | tests | shows | starts | wakes | samplerCalls | inside | samplerReturns => exact hstopped
        | _ => exact nofun
      obtain ⟨first, hfirst, hmain, hsampler⟩ := hstep.due h
      obtain ⟨rest, htaken, hdue⟩ := ih (hstep.orderly h) hstopped₁ hrest
      refine ⟨first ++ rest, by rw [htaken, hfirst, List.append_assoc], fun p => ?_⟩
      rw [List.map_append, List.count_append]
      have hrunning : s.running = false := by
        rw [← Bool.not_eq_true, h.running]
        exact hstopped
      cases p with
      | main => have hrestMain := hdue .main; omega
      | sampler =>
          have hrestSampler := hdue .sampler
          have hfirstSampler := hsampler hrunning
          omega

/-! ### The times -/

/-- The clock is not set back: where it comes to show another time, that is no earlier one.
Nothing in the program sees to this, for `now_ms` reads the realtime clock. -/
def GoesOn (s : Process) (a : Action) : Prop := ∀ now, a = .shows now → s.clock ≤ now

/-- The thread has read the clock at this time. -/
structure Started (t : Nat) (s : Process) : Prop where
  started : s.sampler ≠ .created
  start_eq : s.start = t
  summary : ∀ times, s.summary = some times → times.1 = t

/-- The start time that the thread has read stays that of the summary, whatever the clock
does. -/
theorem Step.started {t : Nat} (hs : Step args s a s') (h : s.Started t) : s'.Started t := by
  cases hs with
  | starts hc => exact absurd hc h.started
  | tests =>
      refine ⟨?_, h.start_eq, h.summary⟩
      show (if s.running = true then SamplerPc.calling else SamplerPc.done) ≠ .created
      cases s.running <;> exact nofun
  | summarizes =>
      refine ⟨h.started, h.start_eq, fun times htimes => ?_⟩
      obtain rfl := Option.some.inj htimes
      exact h.start_eq
  | wakes | samplerCalls | samplerReturns => exact ⟨nofun, h.start_eq, h.summary⟩
  | _ => exact ⟨h.started, h.start_eq, h.summary⟩

/-- The time that the thread has read is not ahead of the clock, and the end is behind it. -/
structure Timed (t : Nat) (s : Process) : Prop extends s.Started t where
  start_le : t ≤ s.clock
  finish_ge : s.main = .summarizing → t ≤ s.finish
  end_ge : ∀ times, s.summary = some times → t ≤ times.2

/-- **A step** that does not set the clock back keeps the times in order. -/
theorem Step.timed {t : Nat} (hs : Step args s a s') (hclock : s.GoesOn a) (h : s.Timed t) :
    s'.Timed t := by
  have hstarted := hs.started h.toStarted
  cases hs with
  | shows now => exact ⟨hstarted, h.start_le.trans (hclock now rfl), h.finish_ge, h.end_ge⟩
  | ends => exact ⟨hstarted, h.start_le, fun _ => h.start_le, h.end_ge⟩
  | summarizes hc =>
      refine ⟨hstarted, h.start_le, nofun, fun times htimes => ?_⟩
      obtain rfl := Option.some.inj htimes
      exact h.finish_ge hc
  | stops | mainCalls | mainReturns => exact ⟨hstarted, h.start_le, nofun, h.end_ge⟩
  | _ => exact ⟨hstarted, h.start_le, h.finish_ge, h.end_ge⟩

/-- The summary is the last thing that is written. -/
theorem Step.summary (hs : Step args s a s') (hexited : s.main ≠ .exited)
    (h : s.main ≠ .exited → s.summary = none) : s'.main ≠ .exited → s'.summary = none := by
  cases hs with
  | summarizes => exact fun hmain => absurd rfl hmain
  | _ => exact fun _ => h hexited

/-- Where the clock is not set back, it is not behind the start. -/
theorem Step.start_le (hs : Step args s a s') (hclock : s.GoesOn a) (h : s.start ≤ s.clock) :
    s'.start ≤ s'.clock := by
  cases hs with
  | shows now => exact h.trans (hclock now rfl)
  | starts => exact le_rfl
  | _ => exact h

end Process

/-- **The stop of the sampling.**  Until the main thread clears the flag, every measurement
is the thread's.  From then on, in any interleaving, each of the two performs at most
one, the main thread exactly one where it comes to the end of `main`.  If the thread had
read its clock by then, the start of the summary is what it read, and the end is no
earlier, unless the clock is set back in the run. -/
theorem monitorStops {args : MonitorArgs} {clock : Nat} {as bs : List Action}
    {s s₁ s' : Process} (hrun : exec (Process.next args) (Process.start₀ clock) as = some s)
    (hstop : s.next args .stops = some s₁)
    (hrest : exec (Process.next args) s₁ bs = some s') :
    (∀ x ∈ s.shared.taken, x.1 = .sampler) ∧
    (∃ new, s'.shared.taken = s.shared.taken ++ new ∧
      (∀ p, (new.map Prod.fst).count p ≤ 1) ∧
      (s'.main = .exited → (new.map Prod.fst).count .main = 1)) ∧
    (s.sampler ≠ .created → ∀ times, s'.summary = some times →
      times.1 = s.start ∧
        (Along (Process.next args) Process.GoesOn (Process.start₀ clock) (as ++ .stops :: bs) →
          times.1 ≤ times.2)) := by
  have honce : s.MainOnce := exec_inv Process.MainOnce
    (fun h hs => (Process.step_of_next hs).2.mainOnce h) ⟨Process.orderly_start clock, rfl⟩ hrun
  have hopen : s.main ≠ .exited → s.summary = none :=
    exec_inv (fun s => s.main ≠ .exited → s.summary = none)
      (fun h hs => (Process.step_of_next hs).2.summary (Process.step_of_next hs).1 h)
      (fun _ => rfl) hrun
  have hstep := (Process.step_of_next hstop).2
  have horderly := hstep.orderly honce.toOrderly
  cases hstep with
  | stops hwaiting =>
      obtain ⟨new, htaken, hdue⟩ := Process.due_of_run horderly MainPc.noConfusion hrest
      have hmain : s'.due .main + (new.map Prod.fst).count .main = 1 := hdue .main
      refine ⟨fun x hx => ?_, ⟨new, htaken, fun p => ?_, fun hexited => ?_⟩,
        fun hstarted times => ?_⟩
      · -- the main thread is still due its one measurement
        have hcount := honce.once
        have hwaits : s.due .main = 1 := by simp [Process.due, hwaiting]
        have hnone : Party.main ∉ s.shared.taken.map Prod.fst :=
          List.count_eq_zero.mp (by omega)
        cases hparty : x.1 with
        | sampler => rfl
        | main => exact absurd (hparty ▸ List.mem_map_of_mem hx) hnone
      · cases p with
        | main => omega
        | sampler =>
            have hsampler := hdue .sampler
            have hone : Process.due
                { s with main := .calling, running := false } .sampler ≤ 1 := by
              rw [Process.due]
              cases s.sampler with
              | measuring => cases s.shared.place .sampler <;> simp [Place.due]
              | _ => simp
            omega
      · have hdone : s'.due .main = 0 := by simp [Process.due, hexited]
        omega
      · have hsummary := hopen (by rw [hwaiting]; exact MainPc.noConfusion)
        have hstart : Process.Started s.start { s with main := .calling, running := false } :=
          ⟨hstarted, rfl, fun times htimes => by simp [hsummary] at htimes⟩
        have hends := exec_inv (Process.Started s.start)
          (fun h hs => (Process.step_of_next hs).2.started h) hstart hrest
        intro htimes
        have hfst := hends.summary times htimes
        refine ⟨hfst, fun hclock => ?_⟩
        -- the condition on the clock, before the stop and behind it
        obtain ⟨hbefore, hafter⟩ := along_append.mp hclock
        have hle := hbefore.exec_inv (fun s => s.start ≤ s.clock)
          (fun h hc hs => (Process.step_of_next hs).2.start_le hc h) (Nat.zero_le _) hrun
        have htimed : Process.Timed s.start { s with main := .calling, running := false } :=
          ⟨hstart, hle, MainPc.noConfusion, fun times htimes => by simp [hsummary] at htimes⟩
        have hlast := ((hafter s hrun).2 _ hstop).exec_inv (Process.Timed s.start)
          (fun h hc hs => (Process.step_of_next hs).2.timed hc h) htimed hrest
        rw [hfst]
        exact hlast.end_ge times htimes

/-- The main thread stops while the other is between its test and its call, measures first
and ends the process while the clock goes on. -/
def lateRun : List Action :=
  let measure (p : Party) : List Action :=
    [.section p .acquire, .section p (.perform ⟨1, none, none, [['a']]⟩), .section p .emit,
      .section p .store, .section p .release]
  .calls .main :: measure .main ++ .calls .sampler :: measure .sampler ++
    [.shows 9, .returns .main, .ends, .summarizes]

theorem monitorStops_late :
    ∃ s s₁ s', exec (Process.next ⟨true, false⟩) (Process.start₀ 7) [.starts, .wakes, .tests]
        = some s ∧
      s.next ⟨true, false⟩ .stops = some s₁ ∧
      exec (Process.next ⟨true, false⟩) s₁ lateRun = some s' ∧
      s'.shared.taken.map Prod.fst = [.main, .sampler] ∧
      s'.summary = some (7, 9) ∧
      (∀ x ∈ s.shared.taken, x.1 = .sampler) ∧
      (∃ new, s'.shared.taken = s.shared.taken ++ new ∧
        (∀ p, (new.map Prod.fst).count p ≤ 1) ∧
        (s'.main = .exited → (new.map Prod.fst).count .main = 1)) ∧
      (s.sampler ≠ .created → ∀ times, s'.summary = some times →
        times.1 = s.start ∧
          (Along (Process.next ⟨true, false⟩) Process.GoesOn (Process.start₀ 7)
              ([.starts, .wakes, .tests] ++ .stops :: lateRun) → times.1 ≤ times.2)) :=
  ⟨_, _, _, rfl, rfl, rfl, rfl, rfl,
    @monitorStops ⟨true, false⟩ 7 [.starts, .wakes, .tests] lateRun _ _ _ rfl rfl rfl⟩

end Variorum.MonitorThread
