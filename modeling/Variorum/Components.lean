/-
Variorum/Components.lean

Runs of a system of components.

`view` shows a state as a family of components, and `key` says which of them an
action is for.  In a componentwise system the action takes that component one
step of its own, `loc`, and leaves the others where they are; where the component
is stuck, so is the system.  A run of the system is then one run of each
component, of the actions for it:

* `Componentwise.exec_view` — what a run makes of a component;
* `Componentwise.along_iff` — a run conforms iff each component's does;
* `Componentwise.interleave` — interleavings that keep the order of the actions
  for each component conform alike, and lead to the same components.

The law is only asked of the actions in `acts`, since a system may have others
that are not of this kind.  Nothing here mentions a particular system.
-/
import Mathlib.Logic.Function.Basic
import Variorum.Runs

namespace Runs

variable {σ α κ β : Type*} [DecidableEq κ]

/-- The actions for one component, in order. -/
def actionsOn (key : α → κ) (k : κ) (as : List α) : List α := as.filter fun a => key a = k

/-- An action in `acts` is a step of the component it is for. -/
structure Componentwise (step : σ → α → Option σ) (acts : α → Prop) (key : α → κ)
    (view : σ → κ → β) (loc : β → α → Option β) : Prop where
  step_view : ∀ s a, acts a →
    (step s a).map view = (loc (view s (key a)) a).map (Function.update (view s) (key a))

variable {step : σ → α → Option σ} {acts : α → Prop} {key : α → κ} {view : σ → κ → β}
variable {loc : β → α → Option β} {P : σ → α → Prop} {Q : β → α → Prop}

theorem actionsOn_cons_self (a : α) (as : List α) :
    actionsOn key (key a) (a :: as) = a :: actionsOn key (key a) as := by
  simp [actionsOn]

theorem actionsOn_cons_of_ne {a : α} {k : κ} (h : k ≠ key a) (as : List α) :
    actionsOn key k (a :: as) = actionsOn key k as := by
  simp [actionsOn, Ne.symm h]

namespace Componentwise

variable (h : Componentwise step acts key view loc)

include h

/-- The two sides of a step that is not stuck. -/
theorem of_step {s s' : σ} {a : α} (ha : acts a) (hs' : step s a = some s') :
    ∃ y, loc (view s (key a)) a = some y ∧ view s' = Function.update (view s) (key a) y := by
  have hlaw := h.step_view s a ha
  rw [hs', Option.map_some] at hlaw
  obtain ⟨y, hy, hview⟩ := Option.map_eq_some_iff.mp hlaw.symm
  exact ⟨y, hy, hview.symm⟩

/-- The system is only stuck where the component is. -/
theorem isSome_of_loc {s : σ} {a : α} {y : β} (ha : acts a)
    (hy : loc (view s (key a)) a = some y) : ∃ s', step s a = some s' := by
  have hlaw := h.step_view s a ha
  rw [hy, Option.map_some] at hlaw
  obtain ⟨s', hs', -⟩ := Option.map_eq_some_iff.mp hlaw
  exact ⟨s', hs'⟩

/-- **A run, component by component**, by induction on the run: an action for `k`
is the next step of `k`'s own run, any other leaves `k` where it is. -/
theorem exec_view {s s' : σ} {as : List α} (has : ∀ a ∈ as, acts a)
    (hexec : exec step s as = some s') (k : κ) :
    exec loc (view s k) (actionsOn key k as) = some (view s' k) := by
  induction as generalizing s with
  | nil =>
      obtain rfl := Option.some.inj hexec
      rfl
  | cons a as ih =>
      obtain ⟨ha, has⟩ := List.forall_mem_cons.mp has
      obtain ⟨s₁, hs₁, hrest⟩ := Option.bind_eq_some_iff.mp hexec
      obtain ⟨y, hy, hview⟩ := h.of_step ha hs₁
      have hk := ih has hrest
      rw [hview] at hk
      by_cases hka : k = key a
      · subst hka
        rw [Function.update_self] at hk
        rw [actionsOn_cons_self, exec, hy]
        exact hk
      · rw [Function.update_of_ne hka] at hk
        rw [actionsOn_cons_of_ne hka]
        exact hk

/-- **A run conforms iff each component's run does**, where conforming is a matter
of the component an action is for, and a conforming action is not stuck. -/
theorem along_iff (hPQ : ∀ s a, acts a → (P s a ↔ Q (view s (key a)) a))
    (hgo : ∀ y a, acts a → Q y a → ∃ y', loc y a = some y')
    {s : σ} {as : List α} (has : ∀ a ∈ as, acts a) :
    Along step P s as ↔ ∀ k, Along loc Q (view s k) (actionsOn key k as) := by
  -- by induction on the actions: the first belongs to one component, and the others do not see
  -- it
  induction as generalizing s with
  | nil => exact ⟨fun _ _ => trivial, fun _ => trivial⟩
  | cons a as ih =>
      obtain ⟨ha, has⟩ := List.forall_mem_cons.mp has
      constructor
      · rintro ⟨hP, hrest⟩ k
        have hQ := (hPQ s a ha).mp hP
        obtain ⟨y, hy⟩ := hgo _ a ha hQ
        obtain ⟨s₁, hs₁⟩ := h.isSome_of_loc ha hy
        obtain ⟨y', hy', hview⟩ := h.of_step ha hs₁
        have hk := (ih has).mp (hrest s₁ hs₁) k
        rw [hview] at hk
        by_cases hka : k = key a
        · subst hka
          rw [Function.update_self] at hk
          rw [actionsOn_cons_self]
          refine ⟨hQ, fun y'' hy'' => ?_⟩
          obtain rfl := Option.some.inj (hy'.symm.trans hy'')
          exact hk
        · rw [Function.update_of_ne hka] at hk
          rw [actionsOn_cons_of_ne hka]
          exact hk
      · intro hall
        have hself := hall (key a)
        rw [actionsOn_cons_self] at hself
        refine ⟨(hPQ s a ha).mpr hself.1, fun s₁ hs₁ => (ih has).mpr fun k => ?_⟩
        obtain ⟨y, hy, hview⟩ := h.of_step ha hs₁
        rw [hview]
        by_cases hka : k = key a
        · subst hka
          rw [Function.update_self]
          exact hself.2 y hy
        · rw [Function.update_of_ne hka, ← actionsOn_cons_of_ne hka as]
          exact hall k

/-- **Actions for different components commute.**  If a run conforms, so does every
interleaving with the same order for each component; neither is stuck, and they
lead to the same components. -/
theorem interleave (hPQ : ∀ s a, acts a → (P s a ↔ Q (view s (key a)) a))
    (hgo : ∀ y a, acts a → Q y a → ∃ y', loc y a = some y')
    {s : σ} {as bs : List α} (has : ∀ a ∈ as, acts a) (hbs : ∀ b ∈ bs, acts b)
    (hsame : ∀ k, actionsOn key k as = actionsOn key k bs) (hP : Along step P s as) :
    Along step P s bs ∧ ∃ s₁ s₂, exec step s as = some s₁ ∧ exec step s bs = some s₂ ∧
      view s₁ = view s₂ := by
  have hstep : ∀ {s a}, acts a ∧ P s a → ∃ s', step s a = some s' := by
    rintro s a ⟨ha, hPa⟩
    obtain ⟨y, hy⟩ := hgo _ a ha ((hPQ s a ha).mp hPa)
    exact h.isSome_of_loc ha hy
  have hP' : Along step P s bs := by
    rw [h.along_iff hPQ hgo hbs]
    intro k
    rw [← hsame k]
    exact (h.along_iff hPQ hgo has).mp hP k
  obtain ⟨s₁, hs₁⟩ := ((along_of_mem has).and hP).exec_isSome hstep
  obtain ⟨s₂, hs₂⟩ := ((along_of_mem hbs).and hP').exec_isSome hstep
  refine ⟨hP', s₁, s₂, hs₁, hs₂, funext fun k => ?_⟩
  have hk := h.exec_view has hs₁ k
  rw [hsame k, h.exec_view hbs hs₂ k] at hk
  exact (Option.some.inj hk).symm

end Componentwise

end Runs
