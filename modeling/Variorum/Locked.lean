/-
Variorum/Locked.lean

Operations that threads perform under one lock.

An operation `op` reads an argument and a state that outlives it, emits outputs one
after the other and leaves a new state behind, or ends the process there.  A
thread asks for the lock, performs the operation, emits its outputs, stores the
state and gives the lock back; between any two of these moves the others move
(`move`).  The calls of `op` are recorded in the order in which they were
performed.

`Serial` says that what has been emitted is what these calls, one after the other
and undisturbed (`runOps`), emit: all of it, but for the rest that the holder of
the lock still has in hand.  Every move keeps it (`Serial.move`), and so does a
thread's decision to ask for the lock (`Serial.enter`).

Nothing here mentions a particular operation.
-/
import Mathlib.Data.List.Basic
import Mathlib.Logic.Function.Basic

namespace Locked

variable {τ ρ σ ω : Type*}

/-- An operation: its outputs and the state behind it, no state where it ends the process;
no result where it is undefined. -/
abbrev Op (ρ σ ω : Type*) := σ → ρ → Option (List ω × Option σ)

/-! ### One after the other -/

/-- The calls of a list, each with the state that the one before it left. -/
def runOps (op : Op ρ σ ω) : Option σ → List ρ → Option (List ω × Option σ)
  | s, [] => some ([], s)
  | none, _ :: _ => none
  | some s, r :: rs =>
      (op s r).bind fun first =>
        (runOps op first.2 rs).map fun rest => (first.1 ++ rest.1, rest.2)

variable {op : Op ρ σ ω}

@[simp] theorem runOps_nil (s : Option σ) : runOps op s [] = some ([], s) := by
  cases s <;> rfl

@[simp] theorem runOps_cons (s : σ) (r : ρ) (rs : List ρ) :
    runOps op (some s) (r :: rs)
      = (op s r).bind fun first =>
          (runOps op first.2 rs).map fun rest => (first.1 ++ rest.1, rest.2) := rfl

@[simp] theorem runOps_none_cons (r : ρ) (rs : List ρ) : runOps op none (r :: rs) = none := rfl

/-- One more call behind the others. -/
theorem runOps_concat {s : Option σ} {rs : List ρ} {outs new : List ω} {mid : σ}
    {next : Option σ} {r : ρ} (h : runOps op s rs = some (outs, some mid))
    (hr : op mid r = some (new, next)) :
    runOps op s (rs ++ [r]) = some (outs ++ new, next) := by
  induction rs generalizing s outs with
  | nil =>
      rw [runOps_nil] at h
      obtain ⟨rfl, rfl⟩ := Prod.mk.inj (Option.some.inj h)
      simp [hr]
  | cons r' rs ih =>
      cases s with
      | none => simp at h
      | some s =>
          rw [runOps_cons] at h
          obtain ⟨first, hfirst, hmap⟩ := Option.bind_eq_some_iff.mp h
          obtain ⟨⟨rest, last⟩, hrest, heq⟩ := Option.map_eq_some_iff.mp hmap
          obtain ⟨rfl, rfl⟩ := Prod.mk.inj heq
          have hlast := ih hrest
          rw [List.cons_append, runOps_cons, hfirst]
          simp [hlast]

/-! ### The threads -/

/-- Where a thread is: not in the operation, before the lock, behind it, with outputs and
a state in hand, before it gives the lock back. -/
inductive Place (σ ω : Type*)
  | outside
  | locking
  | working
  | emitting (rest : List ω) (next : Option σ)
  | leaving

namespace Place

/-- The thread is behind the lock, and has not let go of it. -/
def holds : Place σ ω → Bool
  | outside | locking => false
  | working | emitting _ _ | leaving => true

/-- It has asked for the lock, and not performed the operation yet. -/
def due : Place σ ω → Nat
  | locking | working => 1
  | outside | emitting _ _ | leaving => 0

/-- What a thread there still has in hand, over a stored state. -/
def owes (stored : σ) : Place σ ω → List ω × Option σ
  | emitting rest next => (rest, next)
  | _ => ([], some stored)

@[simp] theorem owes_working (stored : σ) :
    (working : Place σ ω).owes stored = ([], some stored) := rfl

@[simp] theorem owes_emitting (stored : σ) (rest : List ω) (next : Option σ) :
    (emitting rest next).owes stored = (rest, next) := rfl

end Place

/-- What the threads share, and where each is.  `taken` is not in memory. -/
structure Shared (τ ρ σ ω : Type*) where
  lock : Option τ
  state : σ
  out : List ω
  place : τ → Place σ ω
  taken : List (τ × ρ)

/-- A move of a thread. -/
inductive Move (ρ : Type*)
  | acquire
  | perform (r : ρ)
  | emit
  | store
  | release

namespace Shared

/-- Nobody is in the operation. -/
def start (s₀ : σ) : Shared τ ρ σ ω := ⟨none, s₀, [], fun _ => .outside, []⟩

variable [DecidableEq τ]

def goto (s : Shared τ ρ σ ω) (t : τ) (p : Place σ ω) : Shared τ ρ σ ω :=
  { s with place := Function.update s.place t p }

/-- A thread asks for the lock. -/
def enter (s : Shared τ ρ σ ω) (t : τ) : Option (Shared τ ρ σ ω) :=
  match s.place t with
  | .outside => some (s.goto t .locking)
  | _ => none

/-- A move; `none` where the thread is not at it, or waits. -/
def move (op : Op ρ σ ω) (s : Shared τ ρ σ ω) (t : τ) : Move ρ → Option (Shared τ ρ σ ω)
  | .acquire =>
      match s.place t, s.lock with
      | .locking, none => some { s.goto t .working with lock := some t }
      | _, _ => none
  | .perform r =>
      match s.place t with
      | .working =>
          (op s.state r).map fun result =>
            { s.goto t (.emitting result.1 result.2) with taken := s.taken ++ [(t, r)] }
      | _ => none
  | .emit =>
      match s.place t with
      | .emitting (o :: rest) next =>
          some { s.goto t (.emitting rest next) with out := s.out ++ [o] }
      | _ => none
  | .store =>
      match s.place t with
      | .emitting [] (some next) => some { s.goto t .leaving with state := next }
      -- the operation has ended the process
      | _ => none
  | .release =>
      match s.place t with
      | .leaving => some { s.goto t .outside with lock := none }
      | _ => none

/-! ### What the moves keep -/

section Keeps

omit [DecidableEq τ]

/-- What the holder of the lock still has in hand, and the state behind it. -/
def owed (s : Shared τ ρ σ ω) : List ω × Option σ :=
  match s.lock with
  | some t => (s.place t).owes s.state
  | none => ([], some s.state)

/-- The calls, without who made them. -/
def calls (s : Shared τ ρ σ ω) : List ρ := s.taken.map Prod.snd

/-- The calls that have been performed, one after the other, emit what has been emitted
and what the holder has in hand; all but the last of them have emitted everything. -/
structure Serial (op : Op ρ σ ω) (s₀ : σ) (s : Shared τ ρ σ ω) : Prop where
  holder : ∀ t, (s.place t).holds = true ↔ s.lock = some t
  account : runOps op (some s₀) s.calls = some (s.out ++ s.owed.1, s.owed.2)
  whole : ∀ rs r, s.calls = rs ++ [r] →
    ∃ front mid, runOps op (some s₀) rs = some (front, mid) ∧ front <+: s.out

variable {s : Shared τ ρ σ ω} {s₀ : σ} {t : τ} {p : Place σ ω}

theorem serial_start (op : Op ρ σ ω) (s₀ : σ) :
    Serial op s₀ (start s₀ : Shared τ ρ σ ω) where
  holder _ := ⟨nofun, nofun⟩
  account := runOps_nil _
  whole rs r h := absurd (congrArg List.length h) (by simp [start, calls])

/-- Nothing is owed where the lock is free. -/
theorem owed_of_free (h : s.lock = none) : s.owed = ([], some s.state) := by
  simp [owed, h]

theorem owed_of_holder (h : s.lock = some t) : s.owed = (s.place t).owes s.state := by
  simp [owed, h]

/-- **In a free state** everything has been emitted. -/
theorem Serial.of_free (h : Serial op s₀ s) (hfree : s.lock = none) :
    runOps op (some s₀) s.calls = some (s.out, some s.state) := by
  have haccount := h.account
  rw [owed_of_free hfree] at haccount
  rwa [List.append_nil] at haccount

/-- The account of a thread behind the lock. -/
theorem Serial.of_holder (h : Serial op s₀ s) (hp : s.place t = p) (hholds : p.holds = true) :
    s.lock = some t ∧
      runOps op (some s₀) s.calls = some (s.out ++ (p.owes s.state).1, (p.owes s.state).2) := by
  have hlock : s.lock = some t := (h.holder t).mp (hp ▸ hholds)
  refine ⟨hlock, ?_⟩
  rw [h.account, owed_of_holder hlock, hp]

end Keeps

variable {s s' : Shared τ ρ σ ω} {s₀ : σ} {t u : τ} {p : Place σ ω}

@[simp] theorem goto_place_self : (s.goto t p).place t = p := Function.update_self ..

theorem goto_place_of_ne (h : u ≠ t) : (s.goto t p).place u = s.place u :=
  Function.update_of_ne h ..

/-! ### What each move does -/

theorem enter_eq (h : s.enter t = some s') : s.place t = .outside ∧ s' = s.goto t .locking := by
  rw [enter] at h
  cases hp : s.place t with
  | outside =>
      rw [hp] at h
      exact ⟨rfl, (Option.some.inj h).symm⟩
  | _ => rw [hp] at h; cases h

theorem acquire_eq (h : s.move op t .acquire = some s') :
    s.place t = .locking ∧ s.lock = none ∧ s' = { s.goto t .working with lock := some t } := by
  rw [move] at h
  cases hp : s.place t with
  | locking =>
      cases hlock : s.lock with
      | none =>
          rw [hp, hlock] at h
          exact ⟨rfl, rfl, (Option.some.inj h).symm⟩
      | some u => rw [hp, hlock] at h; cases h
  | _ => rw [hp] at h; cases h

theorem perform_eq {r : ρ} (h : s.move op t (.perform r) = some s') :
    s.place t = .working ∧ ∃ outs next, op s.state r = some (outs, next) ∧
      s' = { s.goto t (.emitting outs next) with taken := s.taken ++ [(t, r)] } := by
  rw [move] at h
  cases hp : s.place t with
  | working =>
      rw [hp] at h
      obtain ⟨⟨outs, next⟩, hop, rfl⟩ := Option.map_eq_some_iff.mp h
      exact ⟨rfl, outs, next, hop, rfl⟩
  | _ => rw [hp] at h; cases h

theorem emit_eq (h : s.move op t .emit = some s') :
    ∃ o rest next, s.place t = .emitting (o :: rest) next ∧
      s' = { s.goto t (.emitting rest next) with out := s.out ++ [o] } := by
  rw [move] at h
  cases hp : s.place t with
  | emitting rest next =>
      cases rest with
      | nil => rw [hp] at h; cases h
      | cons o rest =>
          rw [hp] at h
          exact ⟨o, rest, next, rfl, (Option.some.inj h).symm⟩
  | _ => rw [hp] at h; cases h

theorem store_eq (h : s.move op t .store = some s') :
    ∃ next, s.place t = .emitting [] (some next) ∧
      s' = { s.goto t .leaving with state := next } := by
  rw [move] at h
  cases hp : s.place t with
  | emitting rest next =>
      rw [hp] at h
      match rest, next with
      | [], some next => exact ⟨next, rfl, (Option.some.inj h).symm⟩
      | [], none => cases h
      | _ :: _, _ => cases h
  | _ => rw [hp] at h; cases h

theorem release_eq (h : s.move op t .release = some s') :
    s.place t = .leaving ∧ s' = { s.goto t .outside with lock := none } := by
  rw [move] at h
  cases hp : s.place t with
  | leaving =>
      rw [hp] at h
      exact ⟨rfl, (Option.some.inj h).symm⟩
  | _ => rw [hp] at h; cases h

/-! ### What every move keeps -/

/-- A thread that stays on its side of the lock. -/
theorem Serial.holder_goto (h : Serial op s₀ s) (hp : p.holds = (s.place t).holds) (u : τ) :
    ((s.goto t p).place u).holds = true ↔ s.lock = some u := by
  rcases eq_or_ne u t with rfl | hu
  · rw [goto_place_self, hp]
    exact h.holder u
  · rw [goto_place_of_ne hu]
    exact h.holder u

/-- A thread that changes its side, and the lock with it. -/
theorem holder_cross {lock : Option τ} (hothers : ∀ u, u ≠ t → (s.place u).holds = false)
    (hlock : lock = if p.holds then some t else none) (u : τ) :
    ((s.goto t p).place u).holds = true ↔ lock = some u := by
  rcases eq_or_ne u t with rfl | hu
  · rw [goto_place_self, hlock]
    cases p.holds <;> simp
  · rw [goto_place_of_ne hu, hothers u hu, hlock]
    cases p.holds <;> simp [hu.symm]

omit [DecidableEq τ] in
/-- Nobody but the holder is behind the lock. -/
theorem Serial.others (h : Serial op s₀ s) (hlock : ∀ u, s.lock = some u → u = t) {u : τ}
    (hu : u ≠ t) : (s.place u).holds = false := by
  rw [← Bool.not_eq_true, h.holder u]
  exact fun hlocked => hu (hlock u hlocked)

omit [DecidableEq τ] in
/-- The account of a state in which a thread is behind the lock. -/
theorem serial_of_holder (hholder : ∀ u, (s'.place u).holds = true ↔ s'.lock = some u)
    (hlock : s'.lock = some t) (hp : s'.place t = p)
    (haccount : runOps op (some s₀) s'.calls
      = some (s'.out ++ (p.owes s'.state).1, (p.owes s'.state).2))
    (hwhole : ∀ rs r, s'.calls = rs ++ [r] →
      ∃ front mid, runOps op (some s₀) rs = some (front, mid) ∧ front <+: s'.out) :
    Serial op s₀ s' := by
  refine ⟨hholder, ?_, hwhole⟩
  rw [haccount, owed_of_holder hlock, hp]

/-- A thread that asks for the lock owes nothing. -/
theorem Serial.enter (h : Serial op s₀ s) (hs : s.enter t = some s') : Serial op s₀ s' := by
  obtain ⟨hp, rfl⟩ := enter_eq hs
  have hholder := h.holder_goto (p := .locking) (by rw [hp]; rfl)
  cases hlock : s.lock with
  | none =>
      refine ⟨hholder, ?_, h.whole⟩
      rw [owed_of_free (s := s.goto t .locking) hlock, List.append_nil]
      exact h.of_free hlock
  | some u =>
      have hu : u ≠ t := by
        rintro rfl
        have hholds := (h.holder u).mpr hlock
        rw [hp] at hholds
        cases hholds
      obtain ⟨-, haccount⟩ := h.of_holder rfl ((h.holder u).mpr hlock)
      exact serial_of_holder hholder hlock (goto_place_of_ne hu) haccount h.whole

/-- **A move** keeps the account. -/
theorem Serial.move (h : Serial op s₀ s) {m : Move ρ} (hs : s.move op t m = some s') :
    Serial op s₀ s' := by
  -- one case for each move: taking the lock, computing, writing piece by piece, letting go
  cases m with
  | acquire =>
      obtain ⟨hp, hfree, rfl⟩ := acquire_eq hs
      have hothers : ∀ u, u ≠ t → (s.place u).holds = false := fun u hu =>
        h.others (fun v hv => absurd (hfree.symm.trans hv) nofun) hu
      refine serial_of_holder (t := t) (holder_cross hothers rfl) rfl goto_place_self ?_ h.whole
      rw [Place.owes_working, List.append_nil]
      exact h.of_free hfree
  | perform r =>
      obtain ⟨hp, outs, next, hop, rfl⟩ := perform_eq hs
      obtain ⟨hlock, haccount⟩ := h.of_holder hp rfl
      rw [Place.owes_working, List.append_nil] at haccount
      have hcalls : (s.taken ++ [(t, r)]).map Prod.snd = s.calls ++ [r] := List.map_append
      refine serial_of_holder (t := t) (h.holder_goto (by rw [hp]; rfl)) hlock
        goto_place_self ?_ fun rs r' hrs => ?_
      · exact (congrArg (runOps op (some s₀)) hcalls).trans (runOps_concat haccount hop)
      · obtain ⟨rfl, -⟩ := List.append_inj' (hcalls.symm.trans hrs) rfl
        exact ⟨s.out, _, haccount, List.prefix_refl _⟩
  | emit =>
      obtain ⟨o, rest, next, hp, rfl⟩ := emit_eq hs
      obtain ⟨hlock, haccount⟩ := h.of_holder hp rfl
      refine serial_of_holder (t := t) (h.holder_goto (by rw [hp]; rfl)) hlock
        goto_place_self ?_ fun rs r hrs => ?_
      · rw [Place.owes_emitting, List.append_cons] at haccount
        exact haccount
      · obtain ⟨front, mid, hfront, hcut⟩ := h.whole rs r hrs
        exact ⟨front, mid, hfront, hcut.trans (List.prefix_append _ _)⟩
  | store =>
      obtain ⟨next, hp, rfl⟩ := store_eq hs
      obtain ⟨hlock, haccount⟩ := h.of_holder hp rfl
      exact serial_of_holder (t := t) (h.holder_goto (by rw [hp]; rfl)) hlock
        goto_place_self haccount h.whole
  | release =>
      obtain ⟨hp, rfl⟩ := release_eq hs
      obtain ⟨hlock, haccount⟩ := h.of_holder hp rfl
      have hothers : ∀ u, u ≠ t → (s.place u).holds = false := fun u hu =>
        h.others (fun v hv => (Option.some.inj (hlock.symm.trans hv)).symm) hu
      refine ⟨holder_cross hothers rfl, ?_, h.whole⟩
      rw [owed_of_free rfl]
      exact haccount

/-! ### Each request is performed once -/

/-- A thread that asks for the lock is due a call, and nothing else changes. -/
theorem enter_due (h : s.enter t = some s') :
    s'.taken = s.taken ∧ s.place t = .outside ∧ (s'.place t).due = 1 ∧
      ∀ u, u ≠ t → s'.place u = s.place u := by
  obtain ⟨hp, rfl⟩ := enter_eq h
  exact ⟨rfl, hp, congrArg Place.due goto_place_self, fun u hu => goto_place_of_ne hu⟩

/-- A move makes the calls that the thread is no longer due, of its own. -/
theorem move_due {m : Move ρ} (h : s.move op t m = some s') :
    ∃ new, s'.taken = s.taken ++ new ∧
      (s'.place t).due + (new.map Prod.fst).count t = (s.place t).due ∧
      ∀ u, u ≠ t → s'.place u = s.place u ∧ (new.map Prod.fst).count u = 0 := by
  -- only performing the operation takes a call off what the thread is due
  cases m with
  | acquire =>
      obtain ⟨hp, -, rfl⟩ := acquire_eq h
      refine ⟨[], (List.append_nil _).symm, ?_, fun u hu => ⟨goto_place_of_ne hu, rfl⟩⟩
      show ((s.goto t .working).place t).due + 0 = _
      rw [goto_place_self, hp]
      rfl
  | perform r =>
      obtain ⟨hp, outs, next, -, rfl⟩ := perform_eq h
      refine ⟨[(t, r)], rfl, ?_, fun u hu => ⟨goto_place_of_ne hu, ?_⟩⟩
      · show ((s.goto t (.emitting outs next)).place t).due + _ = _
        rw [goto_place_self, hp]
        simp [Place.due]
      · simp [hu.symm]
  | emit =>
      obtain ⟨o, rest, next, hp, rfl⟩ := emit_eq h
      refine ⟨[], (List.append_nil _).symm, ?_, fun u hu => ⟨goto_place_of_ne hu, rfl⟩⟩
      show ((s.goto t (.emitting rest next)).place t).due + 0 = _
      rw [goto_place_self, hp]
      rfl
  | store =>
      obtain ⟨next, hp, rfl⟩ := store_eq h
      refine ⟨[], (List.append_nil _).symm, ?_, fun u hu => ⟨goto_place_of_ne hu, rfl⟩⟩
      show ((s.goto t .leaving).place t).due + 0 = _
      rw [goto_place_self, hp]
      rfl
  | release =>
      obtain ⟨hp, rfl⟩ := release_eq h
      refine ⟨[], (List.append_nil _).symm, ?_, fun u hu => ⟨goto_place_of_ne hu, rfl⟩⟩
      show ((s.goto t .outside).place t).due + 0 = _
      rw [goto_place_self, hp]
      rfl

/-- Only a thread in the operation moves. -/
theorem ne_outside_of_move {m : Move ρ} (h : s.move op t m = some s') :
    s.place t ≠ .outside := by
  intro hp
  cases m with
  | acquire => exact nomatch hp.symm.trans (acquire_eq h).1
  | perform r => exact nomatch hp.symm.trans (perform_eq h).1
  | emit =>
      obtain ⟨o, rest, next, hplace, -⟩ := emit_eq h
      exact nomatch hp.symm.trans hplace
  | store =>
      obtain ⟨next, hplace, -⟩ := store_eq h
      exact nomatch hp.symm.trans hplace
  | release => exact nomatch hp.symm.trans (release_eq h).1

end Shared

end Locked
