/-
Variorum/Highlander.lean

The rendezvous of `highlander` and `highlander_wait`.

One process, the highlander, creates the named semaphore K; the others, its
foes, find it there.  In `highlander` a foe posts K once; in `highlander_wait`
it takes K once and then posts L.  The highlander reads the value of K when it
calls `highlander_wait`, once, and while the value read is above one waits
on L.

A step is one semaphore operation of one process (`next`), so a run is any
interleaving.  The highlander calls `highlander_wait` only after all foes have
come back from `highlander`: that is the guard of its `ready` step.  By then
every handle has been opened, so the `sem_unlink` calls at the end concern
nobody and the end of either function is a single program point.

`rendezvous` says when the highlander may read K: with every foe in
`highlander_wait` already, and at most one of them not through its `sem_wait`.
Read at any other moment, the value lets it return too early or keeps it in its
loop for ever.
-/
import Mathlib.Algebra.BigOperators.Fin
import Mathlib.Algebra.Order.BigOperators.Group.Finset
import Variorum.Runs

namespace Variorum

open Runs

/-! ### The processes -/

/-- Where the highlander is: before an operation of `highlander`, between the
two functions, in the loop of `highlander_wait` with the value it read, or
back from it. -/
inductive HighlanderPc
  | openK
  | openL
  | ready
  | loop (v : Nat)
  | done
  deriving DecidableEq, Repr

/-- Where a foe is.  At `waitK` it has called `highlander_wait`. -/
inductive FoePc
  | openExcl
  | openK
  | openL
  | postK
  | getvalue
  | ready
  | waitK
  | postL
  | done
  deriving DecidableEq, Repr

namespace FoePc

/-- The foe is back from `highlander`. -/
def returned : FoePc → Bool
  | ready | waitK | postL | done => true
  | _ => false

/-- In `highlander_wait`, or back from it. -/
def called : FoePc → Bool
  | waitK | postL | done => true
  | _ => false

/-- The share of a foe in the value of K: one between its post and its wait. -/
def share : FoePc → Nat
  | getvalue | ready | waitK => 1
  | _ => 0

/-- The operations a foe has before it. -/
def remaining : FoePc → Nat
  | openExcl => 8
  | openK => 7
  | openL => 6
  | postK => 5
  | getvalue => 4
  | ready => 3
  | waitK => 2
  | postL => 1
  | done => 0

/-- Whether it has its handle of L. -/
def hasL : FoePc → Bool
  | openExcl | openK | openL => false
  | _ => true

end FoePc

/-- The named semaphores, `none` before they are created, and the processes. -/
structure Rendezvous (n : Nat) where
  semk : Option Nat
  seml : Option Nat
  highlander : HighlanderPc
  foes : Fin n → FoePc

/-- Who takes the next step. -/
inductive Party (n : Nat)
  | highlander
  | foe (i : Fin n)

variable {n : Nat}

/-- No process has called anything. -/
def Rendezvous.start (n : Nat) : Rendezvous n := ⟨none, none, .openK, fun _ => .openExcl⟩

namespace Rendezvous

/-- `sem_open(name, O_CREAT, 0600, 0)`. -/
def semOpen (sem : Option Nat) : Option Nat := some (sem.getD 0)

/-- `sem_wait`: one is taken, and at zero there is no step. -/
def semWait : Option Nat → Option Nat
  | some (v + 1) => some v
  | _ => none

def setFoe (s : Rendezvous n) (i : Fin n) (pc : FoePc) : Rendezvous n :=
  { s with foes := Function.update s.foes i pc }

/-- One operation of the highlander. -/
def highlanderStep (s : Rendezvous n) : Option (Rendezvous n) :=
  match s.highlander with
  | .openK =>
      -- `O_CREAT | O_EXCL`: the name must not exist yet
      if s.semk = none then some { s with semk := some 0, highlander := .openL } else none
  | .openL => some { s with seml := semOpen s.seml, highlander := .ready }
  | .ready =>
      if ∀ i, (s.foes i).returned = true then
        s.semk.map fun v => { s with highlander := .loop v }
      else none
  | .loop v =>
      if v > 1 then (semWait s.seml).map fun l => { s with seml := some l }
      else some { s with highlander := .done }
  | .done => none

/-- One operation of a foe. -/
def foeStep (s : Rendezvous n) (i : Fin n) : Option (Rendezvous n) :=
  match s.foes i with
  -- the exclusive open fails because K exists
  | .openExcl => if s.semk = none then none else some (s.setFoe i .openK)
  | .openK => some ({ s with semk := semOpen s.semk }.setFoe i .openL)
  | .openL => some ({ s with seml := semOpen s.seml }.setFoe i .postK)
  | .postK => s.semk.map fun v => { s with semk := some (v + 1) }.setFoe i .getvalue
  | .getvalue => some (s.setFoe i .ready)
  | .ready => some (s.setFoe i .waitK)
  | .waitK => (semWait s.semk).map fun v => { s with semk := some v }.setFoe i .postL
  | .postL => s.seml.map fun v => { s with seml := some (v + 1) }.setFoe i .done
  | .done => none

/-- One step of the system; `none` where the process named is blocked or
back from `highlander_wait`. -/
def next (s : Rendezvous n) : Party n → Option (Rendezvous n)
  | .highlander => s.highlanderStep
  | .foe i => s.foeStep i

/-! ### What is asked of a state -/

/-- The highlander is back only when every foe has called. -/
def Safe (s : Rendezvous n) : Prop :=
  s.highlander = .done → ∀ i, (s.foes i).called = true

/-- Every foe is back and the highlander will be in its loop for ever. -/
def Blocked (s : Rendezvous n) : Prop :=
  (∀ i, s.foes i = .done) ∧ (∃ v, s.highlander = .loop v) ∧
    ∀ run s', exec next s run = some s' → s'.highlander ≠ .done

/-- The moments at which the highlander may read K. -/
def ReadPre (s : Rendezvous n) : Prop :=
  (∀ i, (s.foes i).called = true) ∧ ∀ v, s.semk = some v → v ≤ 1

/-- The step is not a read of K at any other moment. -/
def StepPre (s : Rendezvous n) (p : Party n) : Prop :=
  p = .highlander → s.highlander = .ready → s.ReadPre

/-! ### What one step does -/

variable {s s' : Rendezvous n} {i : Fin n}

/-- A foe moves itself on by one operation, takes its share of K along and
leaves the highlander alone. -/
theorem foeStep_spec (h : s.foeStep i = some s') :
    ∃ pc, s'.foes = Function.update s.foes i pc ∧ s'.highlander = s.highlander ∧
      pc.remaining + 1 = (s.foes i).remaining ∧
      ((s.foes i).called = true → pc.called = true) ∧
      (∀ k, s.semk = some k → ∃ k', s'.semk = some k' ∧ k' + (s.foes i).share = k + pc.share) ∧
      (s.seml ≠ none → s'.seml ≠ none) ∧
      (pc.hasL = true → (s.foes i).hasL = true ∨ s'.seml ≠ none) := by
  unfold foeStep at h
  -- at every point of the program, what the operation there does to K and to L
  cases hpc : s.foes i with
  | openExcl =>
      simp only [hpc] at h
      split at h
      · cases h
      · obtain rfl := Option.some.inj h
        exact ⟨.openK, rfl, rfl, rfl, id, fun k hk => ⟨k, hk, rfl⟩, id, nofun⟩
  | openK =>
      simp only [hpc] at h
      obtain rfl := Option.some.inj h
      refine ⟨.openL, rfl, rfl, rfl, id, fun k hk => ⟨k, ?_, rfl⟩, id, nofun⟩
      simp [setFoe, semOpen, hk]
  | openL =>
      simp only [hpc] at h
      obtain rfl := Option.some.inj h
      exact ⟨.postK, rfl, rfl, rfl, id, fun k hk => ⟨k, hk, rfl⟩, fun _ => Option.some_ne_none _,
        fun _ => .inr (Option.some_ne_none _)⟩
  | postK =>
      simp only [hpc] at h
      obtain ⟨v, hv, rfl⟩ := Option.map_eq_some_iff.mp h
      refine ⟨.getvalue, rfl, rfl, rfl, id, fun k hk => ⟨k + 1, ?_, rfl⟩, id, fun _ => .inl rfl⟩
      obtain rfl := Option.some.inj (hv.symm.trans hk)
      rfl
  | getvalue =>
      simp only [hpc] at h
      obtain rfl := Option.some.inj h
      exact ⟨.ready, rfl, rfl, rfl, id, fun k hk => ⟨k, hk, rfl⟩, id, fun _ => .inl rfl⟩
  | ready =>
      simp only [hpc] at h
      obtain rfl := Option.some.inj h
      exact ⟨.waitK, rfl, rfl, rfl, nofun, fun k hk => ⟨k, hk, rfl⟩, id, fun _ => .inl rfl⟩
  | waitK =>
      simp only [hpc] at h
      obtain ⟨v, hv, rfl⟩ := Option.map_eq_some_iff.mp h
      refine ⟨.postL, rfl, rfl, rfl, id, fun k hk => ⟨v, rfl, ?_⟩, id, fun _ => .inl rfl⟩
      rw [hk] at hv
      -- a wait at zero would block, so there was a token to take
      cases k with
      | zero => cases hv
      | succ k =>
          obtain rfl := Option.some.inj hv
          rfl
  | postL =>
      simp only [hpc] at h
      obtain ⟨v, hv, rfl⟩ := Option.map_eq_some_iff.mp h
      exact ⟨.done, rfl, rfl, rfl, id, fun k hk => ⟨k, hk, rfl⟩,
        fun _ => Option.some_ne_none _, fun _ => .inl rfl⟩
  | done =>
      simp only [hpc] at h
      cases h

/-- The highlander moves no foe; the value it reads is that of K. -/
theorem highlanderStep_spec (h : s.highlanderStep = some s') :
    s'.foes = s.foes ∧ (s.seml ≠ none → s'.seml ≠ none) ∧
      (s.highlander = .openK ∧ s.semk = none ∧ s'.semk = some 0 ∧ s'.highlander = .openL ∨
        s'.semk = s.semk ∧
          (s.highlander = .openL ∧ s'.highlander = .ready ∨
            s.highlander = .ready ∧ (∃ v, s.semk = some v ∧ s'.highlander = .loop v) ∨
            ∃ v, s.highlander = .loop v ∧
              (v > 1 ∧ s'.highlander = .loop v ∨ v ≤ 1 ∧ s'.highlander = .done))) := by
  unfold highlanderStep at h
  -- at every point of the program, what the operation there needs of the semaphores and leaves
  cases hpc : s.highlander with
  | openK =>
      simp only [hpc] at h
      split at h
      · next hk =>
          obtain rfl := Option.some.inj h
          exact ⟨rfl, id, .inl ⟨rfl, hk, rfl, rfl⟩⟩
      · cases h
  | openL =>
      simp only [hpc] at h
      obtain rfl := Option.some.inj h
      exact ⟨rfl, fun _ => Option.some_ne_none _, .inr ⟨rfl, .inl ⟨rfl, rfl⟩⟩⟩
  | ready =>
      simp only [hpc] at h
      split at h
      · obtain ⟨v, hv, rfl⟩ := Option.map_eq_some_iff.mp h
        exact ⟨rfl, id, .inr ⟨rfl, .inr (.inl ⟨rfl, v, hv, rfl⟩)⟩⟩
      · cases h
  | loop v =>
      simp only [hpc] at h
      split at h
      · next hv =>
          obtain ⟨l, -, rfl⟩ := Option.map_eq_some_iff.mp h
          exact ⟨rfl, fun _ => Option.some_ne_none _,
            .inr ⟨rfl, .inr (.inr ⟨v, rfl, .inl ⟨hv, rfl⟩⟩)⟩⟩
      · next hv =>
          obtain rfl := Option.some.inj h
          exact ⟨rfl, id, .inr ⟨rfl, .inr (.inr ⟨v, rfl, .inr ⟨Nat.not_lt.mp hv, rfl⟩⟩)⟩⟩
  | done =>
      simp only [hpc] at h
      cases h

/-! ### Runs that read K at the right moment -/

/-- After a read at the right moment the highlander does not wait, and every
foe has called. -/
def MetAfterRead (s : Rendezvous n) : Prop :=
  (∀ v, s.highlander = .loop v → v ≤ 1 ∧ ∀ i, (s.foes i).called = true) ∧ s.Safe

theorem met_start : (start n).MetAfterRead := ⟨nofun, nofun⟩

theorem called_update {foes : Fin n → FoePc} {pc : FoePc}
    (hpc : (foes i).called = true → pc.called = true) (h : ∀ j, (foes j).called = true) :
    ∀ j, (Function.update foes i pc j).called = true := by
  intro j
  by_cases hj : j = i
  · subst hj
    rw [Function.update_self]
    exact hpc (h j)
  · rw [Function.update_of_ne hj]
    exact h j

theorem MetAfterRead.step {p : Party n} (hs : s.MetAfterRead) (hpre : s.StepPre p)
    (h : s.next p = some s') :
    s'.MetAfterRead := by
  cases p with
  | foe i =>
      obtain ⟨pc, hfoes, hhigh, -, hcalled, -⟩ := foeStep_spec h
      unfold MetAfterRead Safe
      rw [hhigh, hfoes]
      exact ⟨fun v hv => ⟨(hs.1 v hv).1, called_update hcalled (hs.1 v hv).2⟩,
        fun hd => called_update hcalled (hs.2 hd)⟩
  | highlander =>
      obtain ⟨hfoes, -, hcase⟩ := highlanderStep_spec h
      unfold MetAfterRead Safe
      rw [hfoes]
      rcases hcase with ⟨-, -, -, hh⟩ | ⟨-, ⟨-, hh⟩ | ⟨hready, v, hv, hh⟩ | ⟨v, hl, hcase⟩⟩
      · rw [hh]
        exact ⟨nofun, nofun⟩
      · rw [hh]
        exact ⟨nofun, nofun⟩
      · -- the read: the condition says what it finds
        obtain ⟨hcalled, hone⟩ := hpre rfl hready
        rw [hh]
        refine ⟨fun w hw => ?_, nofun⟩
        obtain rfl := HighlanderPc.loop.inj hw
        exact ⟨hone v hv, hcalled⟩
      -- it read at most one, so the loop is over and everyone has called
      · obtain ⟨hone, hcalled⟩ := hs.1 v hl
        rcases hcase with ⟨hgt, -⟩ | ⟨-, hh⟩
        · exact absurd hone (Nat.not_le.mpr hgt)
        · rw [hh]
          exact ⟨nofun, fun _ => hcalled⟩

/-- Such a highlander is not kept in its loop. -/
theorem MetAfterRead.not_blocked (hs : s.MetAfterRead) : ¬ s.Blocked := by
  rintro ⟨-, ⟨v, hv⟩, hforever⟩
  have hstep : exec next s [.highlander] = some { s with highlander := .done } := by
    have hone : ¬ v > 1 := Nat.not_lt.mpr (hs.1 v hv).1
    simp [exec, next, highlanderStep, hv, hone]
  exact hforever _ _ hstep rfl

/-! ### Runs that read it at another moment -/

/-- The value of K is the number of foes between their post and their wait, and
what a foe needs has been created. -/
structure TokensCounted (s : Rendezvous n) : Prop where
  fresh : s.semk = none → s.highlander = .openK ∧ ∀ i, s.foes i = .openExcl
  count : ∀ k, s.semk = some k → k = ∑ i, (s.foes i).share
  handle : ∀ i, (s.foes i).hasL = true → s.seml ≠ none

/-- A sum over the foes when one of them moves. -/
theorem sum_update (f : FoePc → Nat) (foes : Fin n → FoePc) (i : Fin n) (pc : FoePc) :
    ∑ j, f (Function.update foes i pc j) + f (foes i) = ∑ j, f (foes j) + f pc := by
  have hrest : ∑ j ∈ Finset.univ.erase i, f (Function.update foes i pc j)
      = ∑ j ∈ Finset.univ.erase i, f (foes j) := by
    refine Finset.sum_congr rfl fun j hj => ?_
    rw [Function.update_of_ne (Finset.ne_of_mem_erase hj)]
  rw [← Finset.add_sum_erase _ _ (Finset.mem_univ i), hrest, Function.update_self,
    ← Finset.add_sum_erase _ (fun j => f (foes j)) (Finset.mem_univ i)]
  omega

theorem counted_start : (start n).TokensCounted := ⟨fun _ => ⟨rfl, fun _ => rfl⟩, nofun, nofun⟩

theorem TokensCounted.step {p : Party n} (hs : s.TokensCounted) (h : s.next p = some s') :
    s'.TokensCounted := by
  cases p with
  | foe i =>
      obtain ⟨pc, hfoes, hhigh, -, -, hshare, hkeep, hhas⟩ := foeStep_spec h
      -- a foe that can move has been admitted, so K exists by then
      have hk : s.semk ≠ none := by
        intro hnone
        have hpc := (hs.fresh hnone).2 i
        simp [next, foeStep, hpc, hnone] at h
      obtain ⟨k, hk⟩ := Option.ne_none_iff_exists'.mp hk
      obtain ⟨k', hk', hsum⟩ := hshare k hk
      refine ⟨fun hnone => ?_, fun w hw => ?_, fun j hj => ?_⟩
      · rw [hk'] at hnone
        cases hnone
      · obtain rfl := Option.some.inj (hk'.symm.trans hw)
        have hold := hs.count k hk
        -- one share changes, and the count of K changes by as much
        have hupd := sum_update FoePc.share s.foes i pc
        rw [hfoes]
        omega
      · rw [hfoes] at hj
        by_cases hji : j = i
        · subst hji
          rw [Function.update_self] at hj
          rcases hhas hj with hold | hnew
          · exact hkeep (hs.handle j hold)
          · exact hnew
        · rw [Function.update_of_ne hji] at hj
          exact hkeep (hs.handle j hj)
  | highlander =>
      obtain ⟨hfoes, hkeep, hcase⟩ := highlanderStep_spec h
      have hhandle : ∀ i, (s'.foes i).hasL = true → s'.seml ≠ none := by
        rw [hfoes]
        exact fun i hi => hkeep (hs.handle i hi)
      -- either K is opened in this step, or it stays as it was
      rcases hcase with ⟨-, hnone, hk, -⟩ | ⟨hsame, hcase⟩
      · refine ⟨fun h => ?_, fun k hk' => ?_, hhandle⟩
        · rw [hk] at h
          cases h
        · -- nobody has posted before K exists
          obtain rfl := Option.some.inj (hk.symm.trans hk')
          rw [hfoes]
          simp [(hs.fresh hnone).2, FoePc.share]
      · refine ⟨fun h => ?_, fun k hk => ?_, hhandle⟩
        · rw [hsame] at h
          obtain ⟨hopen, -⟩ := hs.fresh h
          rcases hcase with ⟨hh, -⟩ | ⟨hh, -⟩ | ⟨v, hh, -⟩ <;> rw [hopen] at hh <;> cases hh
        · rw [hsame] at hk
          rw [hfoes]
          exact hs.count k hk

/-- Once K exists, a foe that is not back can move. -/
theorem TokensCounted.foe_moves (hs : s.TokensCounted) (hk : s.semk ≠ none)
    (hi : s.foes i ≠ .done) :
    ∃ s', s.next (.foe i) = some s' := by
  obtain ⟨k, hk⟩ := Option.ne_none_iff_exists'.mp hk
  show ∃ s', s.foeStep i = some s'
  unfold foeStep
  cases hpc : s.foes i with
  | done => exact absurd hpc hi
  | waitK =>
      -- its own share keeps K positive
      have hpos : 0 < k := by
        have hle : (s.foes i).share ≤ ∑ j, (s.foes j).share :=
          Finset.single_le_sum (f := fun j => (s.foes j).share) (fun _ _ => Nat.zero_le _)
            (Finset.mem_univ i)
        rw [hpc, ← hs.count k hk] at hle
        exact hle
      obtain ⟨k, rfl⟩ := Nat.exists_eq_add_one.mpr hpos
      simp only [hk, semWait]
      exact ⟨_, rfl⟩
  | postL =>
      obtain ⟨l, hl⟩ := Option.ne_none_iff_exists'.mp (hs.handle i (by rw [hpc]; rfl))
      simp only [hl]
      exact ⟨_, rfl⟩
  | _ =>
      simp only [hk]
      exact ⟨_, rfl⟩

/-- The foes can all come back while the highlander stays where it is. -/
theorem TokensCounted.foes_finish (hs : s.TokensCounted) (hk : s.semk ≠ none) :
    ∃ run s', exec next s run = some s' ∧ s'.highlander = s.highlander ∧
      ∀ i, s'.foes i = .done := by
  generalize hm : ∑ i, (s.foes i).remaining = m
  induction m using Nat.strong_induction_on generalizing s with
  | _ m ih =>
      by_cases hall : ∀ i, s.foes i = .done
      · exact ⟨[], s, rfl, rfl, hall⟩
      · obtain ⟨i, hi⟩ := not_forall.mp hall
        obtain ⟨s₁, h₁⟩ := hs.foe_moves hk hi
        obtain ⟨pc, hfoes, hhigh, hrem, -, hshare, -⟩ := foeStep_spec h₁
        obtain ⟨k, hk⟩ := Option.ne_none_iff_exists'.mp hk
        obtain ⟨k', hk', -⟩ := hshare k hk
        have hsum := sum_update FoePc.remaining s.foes i pc
        rw [← hfoes] at hsum
        obtain ⟨run, s', hrun, hhigh', hdone⟩ := ih (∑ j, (s₁.foes j).remaining) (by omega)
          (hs.step h₁) (by rw [hk']; exact Option.some_ne_none k') rfl
        refine ⟨.foe i :: run, s', ?_, hhigh'.trans hhigh, hdone⟩
        rw [exec, h₁, Option.bind_some, hrun]

/-- A value above one keeps the highlander in its loop for ever. -/
theorem loop_forever {v : Nat} (hv : v > 1) (hs : s.highlander = .loop v) :
    ∀ run s', exec next s run = some s' → s'.highlander ≠ .done := by
  intro run s' hrun
  have hloop : s'.highlander = .loop v := by
    refine exec_inv (fun s => s.highlander = .loop v) ?_ hs hrun
    intro s p s' hs hstep
    cases p with
    | foe i =>
        obtain ⟨_, -, hhigh, -⟩ := foeStep_spec hstep
        rw [hhigh, hs]
    | highlander =>
        simp only [next, highlanderStep, hs, hv, if_true] at hstep
        obtain ⟨l, -, rfl⟩ := Option.map_eq_some_iff.mp hstep
        rfl
  rw [hloop]
  nofun

/-- From a read at another moment the run can go on to where the rendezvous has
failed. -/
theorem TokensCounted.fails (hs : s.TokensCounted) (hready : s.highlander = .ready)
    (hread : s.next .highlander = some s') (hpre : ¬ s.ReadPre) :
    ∃ run s'', exec next s' run = some s'' ∧ (¬ s''.Safe ∨ s''.Blocked) := by
  obtain ⟨hfoes, -, hcase⟩ := highlanderStep_spec hread
  rcases hcase with ⟨hopen, -⟩ | ⟨hsame, ⟨hopen, -⟩ | ⟨-, v, hv, hh⟩ | ⟨v, hloop, -⟩⟩
  · rw [hready] at hopen
    cases hopen
  · rw [hready] at hopen
    cases hopen
  · by_cases hone : v ≤ 1
    · -- some foe has not called, and the highlander goes straight through
      have hcalled : ¬ ∀ i, (s.foes i).called = true := by
        refine fun hall => hpre ⟨hall, fun w hw => ?_⟩
        obtain rfl := Option.some.inj (hv.symm.trans hw)
        exact hone
      refine ⟨[.highlander], { s' with highlander := .done }, ?_, .inl fun hsafe => ?_⟩
      · simp [exec, next, highlanderStep, hh, Nat.not_lt.mpr hone]
      · refine hcalled ?_
        rw [← hfoes]
        exact hsafe rfl
    · have hk : s'.semk ≠ none := by
        rw [hsame, hv]
        exact Option.some_ne_none v
      obtain ⟨run, s'', hrun, hhigh, hdone⟩ := (hs.step hread).foes_finish hk
      rw [hh] at hhigh
      exact ⟨run, s'', hrun, .inr ⟨hdone, ⟨v, hhigh⟩, loop_forever (Nat.not_le.mp hone) hhigh⟩⟩
  · rw [hready] at hloop
    cases hloop

end Rendezvous

open Rendezvous

/-- **The rendezvous.**  For any number of foes, in every run that reads K only
at the right moment the highlander is back only after every foe has called, and
never in its loop for ever once they are all back.  A read at any other moment
can be followed to a state where one of the two fails. -/
theorem rendezvous (n : Nat) :
    (∀ run s, Along next StepPre (start n) run → exec next (start n) run = some s →
      s.Safe ∧ ¬ s.Blocked) ∧
    (∀ run s s', exec next (start n) run = some s → s.highlander = .ready →
      s.next .highlander = some s' → ¬ s.ReadPre →
      ∃ run' s'', exec next s' run' = some s'' ∧ (¬ s''.Safe ∨ s''.Blocked)) := by
  constructor
  · intro run s hpre hrun
    have hmet : s.MetAfterRead := hpre.exec_inv MetAfterRead MetAfterRead.step met_start hrun
    exact ⟨hmet.2, hmet.not_blocked⟩
  · intro run s s' hrun hready hread hpre
    have hcounted : s.TokensCounted := exec_inv TokensCounted TokensCounted.step counted_start hrun
    exact hcounted.fails hready hread hpre

/-- With one foe, which has come back from `highlander` and not called
`highlander_wait`, the highlander returns; with two, it reads a two, and is
still in its loop when both are back. -/
theorem highlander_too_early_or_never :
    (∃ s, exec next (start 1) ([.highlander, .highlander] ++ List.replicate 5 (.foe 0) ++
        [.highlander, .highlander]) = some s ∧ ¬ s.Safe) ∧
    (∃ s, exec next (start 2) ([.highlander, .highlander] ++ List.replicate 5 (.foe 0) ++
        List.replicate 5 (.foe 1) ++ [.highlander] ++ List.replicate 3 (.foe 0) ++
        List.replicate 3 (.foe 1)) = some s ∧ s.Blocked) := by
  constructor
  · refine ⟨_, rfl, fun h => ?_⟩
    exact absurd (h rfl 0) (by decide)
  · refine ⟨_, rfl, ?_, ⟨2, rfl⟩, loop_forever (v := 2) (by decide) rfl⟩
    exact Fin.forall_fin_two.mpr ⟨rfl, rfl⟩

end Variorum
