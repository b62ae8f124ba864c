/-
Variorum/Loop.lean

Loops that run until they end.

A turn of a loop either goes on in a new state or ends with a result.  `run`
takes a number of turns that it may use up; `Ends` says that some number is
enough, and then every greater one is, with the same result (`Ends.unique`).  A
measure that every turn lowers bounds the number of turns (`run_of_measure`), and an
invariant holds in the state it ends in (`run_of_inv`).

A loop that counts is a fold over a range, and what a turn hands on to the next
holds behind it (`foldlM_range`).  A loop over a list in which no turn fails is
`foldl` (`foldlM_eq_foldl`), and a variable that is assigned again and again has its
last value behind it (`foldl_ite_last`, and `foldl_elim_last` where a turn only undoes
the ones before it).

Nothing here mentions a particular loop.
-/
import Mathlib.Data.List.Induction
import Mathlib.Tactic.TypeStar

namespace Loop

variable {σ ε : Type*} {step : σ → σ ⊕ ε} {s s' : σ} {e e' : ε}

/-- The result after at most so many turns. -/
def run (step : σ → σ ⊕ ε) : Nat → σ → Option ε
  | 0, _ => none
  | fuel + 1, s =>
      match step s with
      | .inl s' => run step fuel s'
      | .inr e => some e

/-- The loop ends with this result. -/
def Ends (step : σ → σ ⊕ ε) (s : σ) (e : ε) : Prop := ∃ fuel, run step fuel s = some e

theorem run_of_inl (h : step s = .inl s') (fuel : Nat) :
    run step (fuel + 1) s = run step fuel s' := by
  rw [run, h]

theorem run_of_inr (h : step s = .inr e) (fuel : Nat) : run step (fuel + 1) s = some e := by
  rw [run, h]

theorem run_succ {fuel : Nat} (h : run step fuel s = some e) :
    run step (fuel + 1) s = some e := by
  induction fuel generalizing s with
  | zero => cases h
  | succ fuel ih =>
      cases hstep : step s with
      | inl s' =>
          rw [run_of_inl hstep] at h ⊢
          exact ih h
      | inr e' =>
          rw [run_of_inr hstep] at h ⊢
          exact h

theorem run_mono {fuel fuel' : Nat} (hle : fuel ≤ fuel') (h : run step fuel s = some e) :
    run step fuel' s = some e := by
  induction hle with
  | refl => exact h
  | step _ ih => exact run_succ ih

theorem Ends.done (h : step s = .inr e) : Ends step s e := ⟨1, run_of_inr h 0⟩

theorem Ends.next (h : step s = .inl s') (hends : Ends step s' e) : Ends step s e := by
  obtain ⟨fuel, hrun⟩ := hends
  exact ⟨fuel + 1, (run_of_inl h fuel).trans hrun⟩

/-- **A loop ends with one result.** -/
theorem Ends.unique (h : Ends step s e) (h' : Ends step s e') : e = e' := by
  obtain ⟨fuel, hrun⟩ := h
  obtain ⟨fuel', hrun'⟩ := h'
  have hle := run_mono (Nat.le_max_left fuel fuel') hrun
  rw [run_mono (Nat.le_max_right fuel fuel') hrun'] at hle
  exact (Option.some.inj hle).symm

/-- **A measure that every turn lowers** is enough. -/
theorem run_of_measure (μ : σ → Nat) (hμ : ∀ s s', step s = .inl s' → μ s' < μ s) {fuel : Nat}
    (h : μ s < fuel) : ∃ e, run step fuel s = some e := by
  induction fuel generalizing s with
  | zero => exact absurd h (Nat.not_lt_zero _)
  | succ fuel ih =>
      cases hstep : step s with
      | inl s' =>
          rw [run_of_inl hstep]
          exact ih (Nat.lt_of_lt_of_le (hμ s s' hstep) (Nat.le_of_lt_succ h))
      | inr e => exact ⟨e, run_of_inr hstep fuel⟩

/-- **An invariant and a measure**: the loop ends, and does so in a state that the invariant
holds in. -/
theorem run_of_inv (P : σ → Prop) (μ : σ → Nat)
    (hP : ∀ s s', P s → step s = .inl s' → P s' ∧ μ s' < μ s) {fuel : Nat} (h : P s)
    (hfuel : μ s < fuel) : ∃ e s', run step fuel s = some e ∧ P s' ∧ step s' = .inr e := by
  induction fuel generalizing s with
  | zero => exact absurd hfuel (Nat.not_lt_zero _)
  | succ fuel ih =>
      cases hstep : step s with
      | inl s' =>
          obtain ⟨hs', hlt⟩ := hP s s' h hstep
          rw [run_of_inl hstep]
          exact ih hs' (Nat.lt_of_lt_of_le hlt (Nat.le_of_lt_succ hfuel))
      | inr e => exact ⟨e, s, run_of_inr hstep fuel, h, hstep⟩

/-- **A loop that counts**, none of whose turns fails: what the `k`-th turn makes of `P k`
is `P (k + 1)`. -/
theorem foldlM_range {f : σ → Nat → Option σ} {n : Nat} (P : Nat → σ → Prop) (h0 : P 0 s)
    (hstep : ∀ k < n, ∀ s, P k s → ∃ s', f s k = some s' ∧ P (k + 1) s') :
    ∃ s', (List.range n).foldlM f s = some s' ∧ P n s' := by
  induction n with
  | zero => exact ⟨s, rfl, h0⟩
  | succ n ih =>
      obtain ⟨s₁, hs₁, hP⟩ := ih fun k hk => hstep k (Nat.lt_succ_of_lt hk)
      obtain ⟨s', hs', hP'⟩ := hstep n (Nat.lt_succ_self n) s₁ hP
      refine ⟨s', ?_, hP'⟩
      rw [List.range_succ, List.foldlM_append, hs₁]
      show f s₁ n >>= pure = some s'
      rw [hs']
      rfl

/-! ### Loops over a list -/

section Lists

variable {τ α : Type} {f : τ → α → Option τ} {g : τ → α → τ} {P : α → Prop} {l : List α} {t : τ}

/-- A loop none of whose turns fails is a fold. -/
theorem foldlM_eq_foldl (h : ∀ t, ∀ x ∈ l, f t x = some (g t x)) :
    l.foldlM f t = some (l.foldl g t) := by
  induction l generalizing t with
  | nil => rfl
  | cons x l ih =>
      rw [List.foldlM_cons, h t x List.mem_cons_self, List.foldl_cons]
      exact ih fun t y hy => h t y (List.mem_cons_of_mem x hy)

/-- A loop whose turns fail for what they are about alone. -/
theorem foldlM_isSome_iff (h : ∀ t, ∀ x ∈ l, (f t x).isSome ↔ P x) :
    (l.foldlM f t).isSome ↔ ∀ x ∈ l, P x := by
  induction l generalizing t with
  | nil => exact iff_of_true rfl nofun
  | cons x l ih =>
      have hx := h t x List.mem_cons_self
      rw [List.foldlM_cons, List.forall_mem_cons]
      cases hstep : f t x with
      | none =>
          rw [hstep] at hx
          exact iff_of_false (by simp) fun hall => by cases hx.mpr hall.1
      | some t' =>
          rw [hstep] at hx
          rw [and_iff_right (hx.mp rfl)]
          exact ih fun t y hy => h t y (List.mem_cons_of_mem x hy)

/-- A variable that some turns assign holds what the last of them has assigned. -/
theorem foldl_ite_last {β : Type} (p : α → Prop) [DecidablePred p] (value : α → β) (init : β)
    (l : List α) : l.foldl (fun v x => if p x then value x else v) init
      = ((l.filter p).getLast?.map value).getD init := by
  induction l using List.reverseRecOn with
  | nil => rfl
  | append_singleton l x ih =>
      rw [List.foldl_append, List.filter_append, List.getLast?_append]
      by_cases hx : p x
      · simp [hx]
      · simp [hx, ih]

/-- A value in which each of some turns undoes the ones before it is as the last of them
alone would have left it. -/
theorem foldl_elim_last {β γ : Type*} (op : β → γ → β) {pick : α → Option γ} (P : γ → Prop)
    (hop : ∀ v a b, P a → P b → op (op v a) b = op v b)
    (hpick : ∀ x ∈ l, ∀ a, pick x = some a → P a) (init : β) :
    l.foldl (fun v x => (pick x).elim v (op v)) init
      = (l.filterMap pick).getLast?.elim init (op init) := by
  induction l using List.reverseRecOn with
  | nil => rfl
  | append_singleton l x ih =>
      have ih := ih fun y hy => hpick y (List.mem_append_left _ hy)
      rw [List.foldl_append, List.foldl_cons, List.foldl_nil, ih, List.filterMap_append,
        List.getLast?_append]
      cases hx : pick x with
      | none => simp [hx]
      | some b =>
          have hb := hpick x (by simp) b hx
          cases hlast : (l.filterMap pick).getLast? with
          | none => simp [hx]
          | some a =>
              obtain ⟨y, hy, ha⟩ := List.mem_filterMap.mp (List.mem_of_getLast? hlast)
              have ha := hpick y (List.mem_append_left _ hy) a ha
              simp [hx, hop init a b ha hb]

end Lists

end Loop
