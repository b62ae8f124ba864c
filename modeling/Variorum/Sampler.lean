/-
Variorum/Sampler.lean

The threads that sample the energy of a Power9 node.

`ibm_cpu_p9_get_energy` and `ibm_cpu_p9_get_node_energy_json` toggle one flag,
`active_sampling`.  A call that finds it clear opens a measurement window: it
sets the flag, clears the accumulator and creates a detached sampler thread.
The next call clears the flag and reports the accumulator.  The sampler tests
the flag between its sleeps, and nobody waits for it to see the stop.

A step is one operation of the caller or of a thread (`next`), so a run is any
sequence of calls to the two functions with any interleaving of the samplers
they have created.  The windows are numbered in the order of their starts; a
thread remembers in which one it was created.

`singleSampler` says when all goes well: a stop reports only while no sampler
is between its test and its addition, a sampler finds the flag set only in its
own window, and enters its loop only when no other is in it.
-/
import Variorum.NodeEnergy
import Variorum.Runs

namespace Variorum

open Runs

/-! ### The caller and the threads -/

/-- The two functions that toggle the flag. -/
inductive EnergyApi
  | ibmCpuP9GetEnergy
  | ibmCpuP9GetNodeEnergyJson
  deriving DecidableEq, Repr

/-- Where the caller is: before an operation of the start branch, of the stop branch,
or in neither function. -/
inductive CallerPc
  | idle
  | setFlag (api : EnergyApi)
  | resetAcc (api : EnergyApi)
  | reportZero (api : EnergyApi)
  | create
  | clearFlag (api : EnergyApi)
  | report (api : EnergyApi)
  deriving DecidableEq, Repr

/-- Where a thread is in `power_measurement`: before the open, in the sleep and at the
test before the loop, in the loop before the lock, in its sleep and at its test. -/
inductive Phase
  | created
  | napping
  | entering
  | accumulating
  | sleeping
  | testing
  | done
  deriving DecidableEq, Repr

namespace Phase

/-- The thread is in its loop, where it may write to the accumulator. -/
def inside : Phase → Bool
  | accumulating | sleeping | testing => true
  | _ => false

/-- The `open` of the sensor file, which may fail. -/
def opens (ok : Bool) : Phase → Option Phase
  | created => some (if ok then napping else done)
  | _ => none

/-- The end of a `timer_sleep`. -/
def wakes : Phase → Option Phase
  | napping => some entering
  | sleeping => some testing
  | _ => none

/-- `while (active_sampling)`: the loop is entered again, or the thread is done. -/
def tests (active : Bool) : Phase → Option Phase
  | entering | testing => some (if active then accumulating else done)
  | _ => none

variable {phase p : Phase}

/-- A thread that opens its file is not in the loop afterwards. -/
theorem inside_of_opens {ok : Bool} (h : phase.opens ok = some p) : p.inside = false := by
  cases phase with
  | created =>
      obtain rfl := Option.some.inj h
      cases ok <;> rfl
  | _ => cases h

/-- It wakes up from either of its sleeps. -/
theorem wakes_cases (h : phase.wakes = some p) :
    phase = napping ∧ p = entering ∨ phase = sleeping ∧ p = testing := by
  cases phase with
  | napping => exact .inl ⟨rfl, (Option.some.inj h).symm⟩
  | sleeping => exact .inr ⟨rfl, (Option.some.inj h).symm⟩
  | _ => cases h

/-- It tests the flag before the loop or in it. -/
theorem tests_cases {active : Bool} (h : phase.tests active = some p) :
    (phase = entering ∨ phase = testing) ∧ p = if active then accumulating else done := by
  cases phase with
  | entering => exact ⟨.inl rfl, (Option.some.inj h).symm⟩
  | testing => exact ⟨.inr rfl, (Option.some.inj h).symm⟩
  | _ => cases h

end Phase

/-- A thread and the window it was created in. -/
structure Thread where
  window : Nat
  phase : Phase
  deriving DecidableEq, Repr

/-- The flag, the shared arguments, the caller, the threads and the values handed out.
The rest is not in memory: the number of windows opened, whether the last one has
been reported, the measurements its sampler has added, and how many additions
were made by anybody else. -/
structure Sampling where
  active : Bool
  args : ThreadArgs
  caller : CallerPc
  threads : List Thread
  reports : List (EnergyApi × BitVec 64)
  windows : Nat
  reported : Bool
  taken : List Measurement
  late : Nat

/-- An operation of the caller, or of one of the threads it has created. -/
inductive Action
  | call (api : EnergyApi)
  | store
  | reset
  | report
  | create (ok : Bool)
  | opens (i : Nat) (ok : Bool)
  | wakes (i : Nat)
  | tests (i : Nat)
  | accumulates (i : Nat) (m : Measurement)

namespace Sampling

/-- No function has been called. -/
def start : Sampling := ⟨false, ⟨0, 0⟩, .idle, [], [], 0, true, [], 0⟩

def setPhase (s : Sampling) (i : Nat) (t : Thread) (p : Phase) : Sampling :=
  { s with threads := s.threads.set i { t with phase := p } }

/-- Thread `i` goes from one phase to the next. -/
def moveThread (s : Sampling) (i : Nat) (f : Phase → Option Phase) : Option Sampling :=
  s.threads[i]?.bind fun t => (f t.phase).map fun p => s.setPhase i t p

/-- The thread belongs to the last window, and that has not been reported. -/
def Owns (s : Sampling) (t : Thread) : Prop := t.window = s.windows ∧ s.reported = false

instance (s : Sampling) (t : Thread) : Decidable (s.Owns t) :=
  inferInstanceAs (Decidable (_ ∧ _))

/-- `th_args.energy_acc += ..` under the lock, by thread `i`. -/
def addSample (s : Sampling) (i : Nat) (t : Thread) (m : Measurement) : Sampling :=
  { s.setPhase i t .sleeping with
    args := s.args.accumulate m
    taken := if s.Owns t then s.taken ++ [m] else s.taken
    late := if s.Owns t then s.late else s.late + 1 }

/-- One operation; `none` where the caller or the thread is not at it. -/
def next (s : Sampling) : Action → Option Sampling
  | .call api =>
      match s.caller with
      | .idle => some { s with caller := if s.active then .clearFlag api else .setFlag api }
      | _ => none
  | .store =>
      match s.caller with
      | .setFlag api => some { s with active := true, caller := .resetAcc api }
      | .clearFlag api => some { s with active := false, caller := .report api }
      | _ => none
  | .reset =>
      match s.caller with
      | .resetAcc api =>
          some { s with
            args := .start, caller := .reportZero api
            windows := s.windows + 1, reported := false, taken := [] }
      | _ => none
  | .report =>
      match s.caller with
      | .reportZero api =>
          some { s with reports := s.reports ++ [(api, s.args.energyAcc)], caller := .create }
      | .report api =>
          some { s with
            reports := s.reports ++ [(api, s.args.energyAcc)], caller := .idle
            reported := true }
      | _ => none
  | .create ok =>
      match s.caller with
      | .create =>
          -- the result of `pthread_create` is dropped
          some { s with
            caller := .idle
            threads := if ok then s.threads ++ [⟨s.windows, .created⟩] else s.threads }
      | _ => none
  | .opens i ok => s.moveThread i (Phase.opens ok)
  | .wakes i => s.moveThread i Phase.wakes
  | .tests i => s.moveThread i (Phase.tests s.active)
  | .accumulates i m =>
      s.threads[i]?.bind fun t =>
        if t.phase = .accumulating then some (s.addSample i t m) else none

/-! ### What is asked of a state -/

/-- At most one thread is in its loop. -/
def OneInside (s : Sampling) : Prop :=
  ∀ (i j : Nat) (t u : Thread), s.threads[i]? = some t → s.threads[j]? = some u →
    t.phase.inside = true → u.phase.inside = true → i = j

/-- At most one thread is in its loop, the accumulator holds the samples of its
window's sampler, each once, and nobody else has written to it, nor that one
after the report. -/
structure Safe (s : Sampling) : Prop where
  oneInside : s.OneInside
  account : s.windows ≠ 0 → s.args = s.taken.foldl ThreadArgs.accumulate .start
  late : s.late = 0

/-- The condition on a step: a stop reports while no thread is between its test and its
addition; a thread that finds the flag set is in its own window, which is open, and
if it comes to its loop, no other is in it. -/
def StepPre (s : Sampling) : Action → Prop
  | .report => (∃ api, s.caller = .report api) → ∀ t ∈ s.threads, t.phase ≠ .accumulating
  | .tests i => ∀ t, s.threads[i]? = some t → s.active = true →
      s.Owns t ∧ (t.phase = .entering → ∀ u ∈ s.threads, u.phase.inside = false)
  | _ => True

/-! ### What one step does to the threads -/

variable {s s' : Sampling} {i : Nat} {t : Thread} {p : Phase}

theorem moveThread_eq {f : Phase → Option Phase} (h : s.moveThread i f = some s') :
    ∃ t p, s.threads[i]? = some t ∧ f t.phase = some p ∧ s' = s.setPhase i t p := by
  obtain ⟨t, ht, hmap⟩ := Option.bind_eq_some_iff.mp h
  obtain ⟨p, hp, rfl⟩ := Option.map_eq_some_iff.mp hmap
  exact ⟨t, p, ht, hp, rfl⟩

/-- A thread of the new list is the one that moved or one of the old list. -/
theorem mem_setPhase {u : Thread} (hu : u ∈ (s.setPhase i t p).threads) :
    u ∈ s.threads ∨ u = { t with phase := p } :=
  List.mem_or_eq_of_mem_set hu

theorem getElem?_setPhase_of_ne {j : Nat} (h : i ≠ j) :
    (s.setPhase i t p).threads[j]? = s.threads[j]? :=
  List.getElem?_set_ne h

theorem getElem?_setPhase_self {u : Thread} (hu : (s.setPhase i t p).threads[i]? = some u) :
    u.phase = p := by
  rcases List.mem_or_eq_of_mem_set (List.mem_of_getElem? hu) with - | rfl
  · rw [setPhase, List.getElem?_set_self' ] at hu
    obtain ⟨v, -, rfl⟩ := Option.map_eq_some_iff.mp hu
    rfl
  · rfl

/-- A thread may move outside the loop, or on in its loop, or into the loop where no
other is. -/
theorem OneInside.setPhase (h : s.OneInside) (ht : s.threads[i]? = some t)
    (hp : p.inside = true → t.phase.inside = true ∨ ∀ u ∈ s.threads, u.phase.inside = false) :
    (s.setPhase i t p).OneInside := by
  -- the thread that moved against one that did not
  have hother : ∀ (j : Nat) (u : Thread), i ≠ j → s.threads[j]? = some u → p.inside = true →
      u.phase.inside = true → i = j := by
    intro j u hij hu hpin huin
    rcases hp hpin with hin | hnone
    · exact h i j t u ht hu hin huin
    · rw [hnone u (List.mem_of_getElem? hu)] at huin
      cases huin
  intro j k u v hu hv huin hvin
  by_cases hj : i = j
  · subst hj
    by_cases hk : i = k
    · exact hk
    · rw [getElem?_setPhase_self hu] at huin
      rw [getElem?_setPhase_of_ne hk] at hv
      exact hother k v hk hv huin hvin
  · rw [getElem?_setPhase_of_ne hj] at hu
    by_cases hk : i = k
    · subst hk
      rw [getElem?_setPhase_self hv] at hvin
      exact (hother j u hj hu hvin huin).symm
    · rw [getElem?_setPhase_of_ne hk] at hv
      exact h j k u v hu hv huin hvin

/-- A new thread is not in its loop. -/
theorem OneInside.append (h : s.OneInside) (w : Nat) :
    OneInside { s with threads := s.threads ++ [⟨w, .created⟩] } := by
  have hold : ∀ (j : Nat) (u : Thread), (s.threads ++ [⟨w, .created⟩])[j]? = some u →
      u.phase.inside = true → s.threads[j]? = some u := by
    intro j u hu hin
    by_cases hj : j < s.threads.length
    · rwa [List.getElem?_append_left hj] at hu
    · rw [List.getElem?_append_right (Nat.not_lt.mp hj)] at hu
      obtain rfl := List.mem_singleton.mp (List.mem_of_getElem? hu)
      cases hin
  intro j k u v hu hv huin hvin
  exact h j k u v (hold j u hu huin) (hold k v hv hvin) huin hvin

/-! ### Runs that meet the condition -/

/-- What the caller's place says: outside the start branch a clear flag means a
reported window. -/
def CallerOk (s : Sampling) : Prop :=
  match s.caller with
  | .idle => s.active = false → s.reported = true
  | .setFlag _ => s.reported = true
  | .resetAcc _ => s.active = true ∧ s.reported = true
  | .reportZero _ | .create => s.active = true
  | .clearFlag _ | .report _ => True

/-- Whoever is before its addition owns the window. -/
structure Orderly (s : Sampling) : Prop where
  safe : s.Safe
  owned : ∀ t ∈ s.threads, t.phase = .accumulating → s.Owns t
  caller : s.CallerOk

theorem orderly_start : start.Orderly where
  safe := ⟨nofun, fun h => absurd rfl h, rfl⟩
  owned := nofun
  caller := fun _ => rfl

/-- While the last window is reported nobody is before its addition. -/
theorem Orderly.not_accumulating (hs : s.Orderly) (h : s.reported = true) :
    ∀ t ∈ s.threads, t.phase ≠ .accumulating := by
  intro t ht hacc
  have howns := (hs.owned t ht hacc).2
  rw [h] at howns
  cases howns

/-- A move of one thread that adds nothing. -/
theorem Orderly.setPhase (hs : s.Orderly) (ht : s.threads[i]? = some t)
    (hin : p.inside = true → t.phase.inside = true ∨ ∀ u ∈ s.threads, u.phase.inside = false)
    (hown : p = .accumulating → s.Owns t) : (s.setPhase i t p).Orderly where
  safe := ⟨hs.safe.oneInside.setPhase ht hin, hs.safe.account, hs.safe.late⟩
  owned := by
    intro u hu hacc
    rcases mem_setPhase hu with hu | rfl
    · exact hs.owned u hu hacc
    · exact hown hacc
  caller := hs.caller

/-- The addition of a thread that owns the window. -/
theorem Orderly.addSample (hs : s.Orderly) (ht : s.threads[i]? = some t)
    (hacc : t.phase = .accumulating) (m : Measurement) : (s.addSample i t m).Orderly := by
  have howns := hs.owned t (List.mem_of_getElem? ht) hacc
  have hmoved : (s.setPhase i t .sleeping).Orderly :=
    hs.setPhase ht (fun _ => .inl (by rw [hacc]; rfl)) nofun
  refine ⟨⟨hmoved.safe.oneInside, ?_, ?_⟩, hmoved.owned, hmoved.caller⟩
  · intro hw
    show s.args.accumulate m = List.foldl _ _ (if s.Owns t then s.taken ++ [m] else s.taken)
    rw [if_pos howns, List.foldl_append, ← hs.safe.account hw]
    rfl
  · show (if s.Owns t then s.late else s.late + 1) = 0
    rw [if_pos howns]
    exact hs.safe.late

/-- The caller goes on, and stores at most to the flag. -/
theorem Orderly.turn (hs : s.Orderly) {active : Bool} {caller : CallerPc}
    {reports : List (EnergyApi × BitVec 64)}
    (hcaller : CallerOk { s with active := active, caller := caller, reports := reports }) :
    Orderly { s with active := active, caller := caller, reports := reports } :=
  ⟨⟨hs.safe.oneInside, hs.safe.account, hs.safe.late⟩, hs.owned, hcaller⟩

/-- **One step that meets the condition.** -/
theorem Orderly.step {a : Action} (hs : s.Orderly) (hpre : s.StepPre a)
    (h : s.next a = some s') : s'.Orderly := by
  cases a with
  | call api =>
      cases hpc : s.caller with
      | idle =>
          simp only [next, hpc] at h
          obtain rfl := Option.some.inj h
          have hclosed := hs.caller
          rw [CallerOk, hpc] at hclosed
          refine hs.turn ?_
          cases hactive : s.active with
          | false => exact hclosed hactive
          | true => trivial
      | _ =>
          simp only [next, hpc] at h
          cases h
  | store =>
      cases hpc : s.caller with
      | setFlag api =>
          simp only [next, hpc] at h
          obtain rfl := Option.some.inj h
          have hclosed := hs.caller
          rw [CallerOk, hpc] at hclosed
          exact hs.turn ⟨rfl, hclosed⟩
      | clearFlag api =>
          simp only [next, hpc] at h
          obtain rfl := Option.some.inj h
          exact hs.turn trivial
      | _ =>
          simp only [next, hpc] at h
          cases h
  | reset =>
      cases hpc : s.caller with
      | resetAcc api =>
          simp only [next, hpc] at h
          obtain rfl := Option.some.inj h
          have hclosed := hs.caller
          rw [CallerOk, hpc] at hclosed
          -- the window opens: a thread before its addition would now be late
          refine ⟨⟨hs.safe.oneInside, fun _ => rfl, hs.safe.late⟩, ?_, hclosed.1⟩
          intro t ht hacc
          exact absurd hacc (hs.not_accumulating hclosed.2 t ht)
      | _ =>
          simp only [next, hpc] at h
          cases h
  | report =>
      cases hpc : s.caller with
      | reportZero api =>
          simp only [next, hpc] at h
          obtain rfl := Option.some.inj h
          have hclosed := hs.caller
          rw [CallerOk, hpc] at hclosed
          exact hs.turn hclosed
      | report api =>
          simp only [next, hpc] at h
          obtain rfl := Option.some.inj h
          refine ⟨⟨hs.safe.oneInside, hs.safe.account, hs.safe.late⟩, ?_, fun _ => rfl⟩
          intro t ht hacc
          exact absurd hacc (hpre ⟨api, hpc⟩ t ht)
      | _ =>
          simp only [next, hpc] at h
          cases h
  | create ok =>
      cases hpc : s.caller with
      | create =>
          simp only [next, hpc] at h
          obtain rfl := Option.some.inj h
          have hclosed := hs.caller
          rw [CallerOk, hpc] at hclosed
          have hidle : s.active = false → s.reported = true := by
            intro hactive
            rw [hclosed] at hactive
            cases hactive
          cases ok with
          | false => exact hs.turn hidle
          | true =>
              refine ⟨⟨hs.safe.oneInside.append s.windows, hs.safe.account, hs.safe.late⟩, ?_,
                hidle⟩
              intro t ht hacc
              rcases List.mem_append.mp ht with ht | ht
              · exact hs.owned t ht hacc
              · rw [List.mem_singleton.mp ht] at hacc
                cases hacc
      | _ =>
          simp only [next, hpc] at h
          cases h
  | opens i ok =>
      obtain ⟨t, p, ht, hp, rfl⟩ := moveThread_eq h
      have hout := Phase.inside_of_opens hp
      exact hs.setPhase ht (fun hin => by rw [hout] at hin; cases hin)
        (fun hacc => by rw [hacc] at hout; cases hout)
  | wakes i =>
      obtain ⟨t, p, ht, hp, rfl⟩ := moveThread_eq h
      rcases Phase.wakes_cases hp with ⟨-, rfl⟩ | ⟨hsleeping, rfl⟩
      · exact hs.setPhase ht nofun nofun
      · exact hs.setPhase ht (fun _ => .inl (by rw [hsleeping]; rfl)) nofun
  | tests i =>
      obtain ⟨t, p, ht, hp, rfl⟩ := moveThread_eq h
      obtain ⟨hphase, rfl⟩ := Phase.tests_cases hp
      cases hactive : s.active with
      | false =>
          -- the flag is clear: the thread ends
          exact hs.setPhase ht nofun nofun
      | true =>
          obtain ⟨howns, hentering⟩ := hpre t ht hactive
          refine hs.setPhase ht (fun _ => ?_) (fun _ => howns)
          rcases hphase with hphase | hphase
          · exact .inr (hentering hphase)
          · exact .inl (by rw [hphase]; rfl)
  | accumulates i m =>
      obtain ⟨t, ht, hif⟩ := Option.bind_eq_some_iff.mp h
      by_cases hacc : t.phase = .accumulating
      · rw [if_pos hacc] at hif
        obtain rfl := Option.some.inj hif
        exact hs.addSample ht hacc m
      · rw [if_neg hacc] at hif
        cases hif

/-! ### Steps that do not -/

/-- An addition by a thread that does not own the window is one too many. -/
theorem not_safe_of_late (ht : s.threads[i]? = some t) (hacc : t.phase = .accumulating)
    (howns : ¬ s.Owns t) (m : Measurement) :
    ∃ s', s.next (.accumulates i m) = some s' ∧ ¬ s'.Safe := by
  refine ⟨s.addSample i t m, ?_, fun hsafe => ?_⟩
  · simp only [next, ht, Option.bind_some, if_pos hacc]
  · have hlate : s.late + 1 = 0 := by
      have h : (if s.Owns t then s.late else s.late + 1) = 0 := hsafe.late
      rwa [if_neg howns] at h
    exact Nat.succ_ne_zero _ hlate

/-- **A step that does not meet the condition can be followed to an unsafe state.** -/
theorem unsafe_of_not_stepPre {a : Action} (h : s.next a = some s') (hpre : ¬ s.StepPre a) :
    ∃ run s'', exec next s' run = some s'' ∧ ¬ s''.Safe := by
  cases a with
  | report =>
      -- a thread is before its addition, and the window is reported
      simp only [StepPre] at hpre
      push Not at hpre
      obtain ⟨⟨api, hpc⟩, t, ht, hacc⟩ := hpre
      obtain ⟨i, hi⟩ := List.mem_iff_getElem?.mp ht
      simp only [next, hpc] at h
      obtain rfl := Option.some.inj h
      obtain ⟨s'', hnext, hunsafe⟩ := not_safe_of_late (s := { s with
        reports := s.reports ++ [(api, s.args.energyAcc)], caller := .idle, reported := true })
        hi hacc (fun howns => Bool.noConfusion howns.2) ⟨false, [], 0⟩
      exact ⟨[.accumulates i ⟨false, [], 0⟩], s'', by rw [exec, hnext]; rfl, hunsafe⟩
  | tests i =>
      obtain ⟨t, p, ht, hp, rfl⟩ := moveThread_eq h
      have hactive : s.active = true := by
        by_contra hactive
        exact hpre fun _ _ hactive' => absurd hactive' hactive
      have hacc : p = .accumulating := by
        rw [(Phase.tests_cases hp).2, hactive]
        rfl
      have hlen : i < s.threads.length := (List.getElem?_eq_some_iff.mp ht).1
      have hi : (s.setPhase i t p).threads[i]? = some { t with phase := p } :=
        List.getElem?_set_self hlen
      by_cases howns : s.Owns t
      · -- another thread is in its loop
        have hboth : t.phase = .entering ∧ ∃ u ∈ s.threads, u.phase.inside = true := by
          by_contra hnone
          refine hpre fun v hv _ => ?_
          obtain rfl := Option.some.inj (ht.symm.trans hv)
          refine ⟨howns, fun hentering u hu => ?_⟩
          by_contra hin
          exact hnone ⟨hentering, u, hu, Bool.not_eq_false _ ▸ hin⟩
        obtain ⟨hentering, u, hu, hin⟩ := hboth
        obtain ⟨j, hj⟩ := List.mem_iff_getElem?.mp hu
        refine ⟨[], _, rfl, fun hsafe => ?_⟩
        have hij : i ≠ j := by
          rintro rfl
          obtain rfl := Option.some.inj (ht.symm.trans hj)
          rw [hentering] at hin
          cases hin
        have hj' : (s.setPhase i t p).threads[j]? = some u :=
          (getElem?_setPhase_of_ne hij).trans hj
        exact hij (hsafe.oneInside i j _ u hi hj' (by rw [hacc]; rfl) hin)
      · obtain ⟨s'', hnext, hunsafe⟩ := not_safe_of_late (s := s.setPhase i t p) hi hacc howns
          ⟨false, [], 0⟩
        exact ⟨[.accumulates i ⟨false, [], 0⟩], s'', by rw [exec, hnext]; rfl, hunsafe⟩
  | _ => exact absurd trivial hpre

end Sampling

open Sampling

/-- **One sampler.**  In every run of calls to the two functions, interleaved in any
way with the threads they create, whose steps meet the condition, at most one
thread is in its loop, and the accumulator is written only by the sampler of its
window, before the report.  A step that does not meet it can be followed to a state
where this fails. -/
theorem singleSampler (run : List Action) :
    (∀ s, Along next StepPre start run → exec next start run = some s → s.Safe) ∧
    (∀ s a s', exec next start run = some s → s.next a = some s' → ¬ s.StepPre a →
      ∃ run' s'', exec next s' run' = some s'' ∧ ¬ s''.Safe) := by
  constructor
  · intro s hpre hrun
    have horderly : s.Orderly := hpre.exec_inv Orderly Orderly.step orderly_start hrun
    exact horderly.safe
  · intro s a s' _ hstep hpre
    exact unsafe_of_not_stepPre hstep hpre

/-- The first call opens a window, and its sampler goes to its first test. -/
def opened : List Action :=
  [.call .ibmCpuP9GetEnergy, .store, .reset, .report, .create true, .opens 0 true, .wakes 0]

/-- A sampler that sleeps through the stop and the next start goes on beside the new
one; one that has passed its test adds behind the report. -/
theorem sampler_revived_or_late :
    (∃ s, exec next start (opened ++ [.tests 0, .accumulates 0 ⟨true, [0x00025800], 100⟩,
        .call .ibmCpuP9GetNodeEnergyJson, .store, .report,
        .call .ibmCpuP9GetEnergy, .store, .reset, .report, .create true,
        .wakes 0, .tests 0, .opens 1 true, .wakes 1, .tests 1]) = some s ∧ ¬ s.OneInside) ∧
    (∃ s, exec next start (opened ++ [.tests 0, .call .ibmCpuP9GetNodeEnergyJson, .store,
        .report, .accumulates 0 ⟨true, [0x00025800], 100⟩]) = some s ∧ s.late ≠ 0) := by
  constructor
  · refine ⟨_, rfl, fun h => ?_⟩
    exact absurd (h 0 1 _ _ rfl rfl rfl rfl) (by decide)
  · exact ⟨_, rfl, by decide⟩

end Variorum
