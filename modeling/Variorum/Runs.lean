/-
Variorum/Runs.lean

Runs of a deterministic system with partial steps.

A step `σ → α → Option σ` that answers `none` is stuck: the program has no
defined behaviour there, and no later action of the run is taken.  `Along`
says that a property of a state and the action about to be taken holds at
every point of a run.  It is the shape of a contract ("every step of the run
conforms") as well as of an assumption ("every step of the run meets the
condition"), so the rules below compare two such properties along one run:

* `Along.imp_of_inv` — under an invariant, one property entails the other;
* `along_iff_of_inv`, `Along.iff_of_inv` — under an invariant, they are equivalent;
* `Along.exec_inv`, `exec_inv` — the invariant holds in the state a run reaches;
* `Along.exec_isSome` — a run of steps that are not stuck is not stuck;
* `exec_total` — under an invariant, no run gets stuck;
* `along_append` — a property along a run is one along its beginning and, from where
  that leads, along the rest.

Nothing here mentions a particular system.
-/
import Mathlib.Logic.Basic
import Mathlib.Tactic.TypeStar

namespace Runs

variable {σ α : Type*}

/-- The state in which the actions `as` leave the system, if no step is stuck. -/
def exec (step : σ → α → Option σ) : σ → List α → Option σ
  | s, [] => some s
  | s, a :: as => (step s a).bind fun s' => exec step s' as

/-- `P` holds of every state the run visits, together with the action taken
there. -/
def Along (step : σ → α → Option σ) (P : σ → α → Prop) : σ → List α → Prop
  | _, [] => True
  | s, a :: as => P s a ∧ ∀ s', step s a = some s' → Along step P s' as

variable {step : σ → α → Option σ} {P Q : σ → α → Prop}

/-- A condition on the actions alone. -/
theorem along_of_mem {A : α → Prop} {s : σ} {as : List α} (h : ∀ a ∈ as, A a) :
    Along step (fun _ a => A a) s as := by
  induction as generalizing s with
  | nil => trivial
  | cons a as ih =>
      obtain ⟨ha, has⟩ := List.forall_mem_cons.mp h
      exact ⟨ha, fun _ _ => ih has⟩

/-- Every run meets the empty condition. -/
theorem along_true (s : σ) (as : List α) : Along step (fun _ _ => True) s as :=
  along_of_mem fun _ _ => trivial

theorem Along.and {s : σ} {as : List α} (h : Along step P s as) (h' : Along step Q s as) :
    Along step (fun s a => P s a ∧ Q s a) s as := by
  induction as generalizing s with
  | nil => trivial
  | cons a as ih => exact ⟨⟨h.1, h'.1⟩, fun s' hs' => ih (h.2 s' hs') (h'.2 s' hs')⟩

/-- Two properties hold along a run exactly when both do at every point. -/
theorem along_and_iff {s : σ} {as : List α} :
    Along step (fun s a => P s a ∧ Q s a) s as ↔ Along step P s as ∧ Along step Q s as := by
  constructor
  · intro h
    induction as generalizing s with
    | nil => exact ⟨trivial, trivial⟩
    | cons a as ih =>
        exact ⟨⟨h.1.1, fun s' hs' => (ih (h.2 s' hs')).1⟩, h.1.2, fun s' hs' => (ih (h.2 s' hs')).2⟩
  · exact fun h => h.1.and h.2

/-- A run in two parts: the second begins where the first one leads, if it leads
anywhere. -/
theorem along_append {s : σ} {as bs : List α} :
    Along step P s (as ++ bs) ↔
      Along step P s as ∧ ∀ s', exec step s as = some s' → Along step P s' bs := by
  induction as generalizing s with
  | nil => simp [Along, exec]
  | cons a as ih =>
      constructor
      · rintro ⟨ha, hrest⟩
        refine ⟨⟨ha, fun s₁ hs₁ => (ih.mp (hrest s₁ hs₁)).1⟩, fun s' hs' => ?_⟩
        obtain ⟨s₁, hs₁, hexec⟩ := Option.bind_eq_some_iff.mp hs'
        exact (ih.mp (hrest s₁ hs₁)).2 s' hexec
      · rintro ⟨⟨ha, hfirst⟩, hsecond⟩
        refine ⟨ha, fun s₁ hs₁ => ih.mpr ⟨hfirst s₁ hs₁, fun s' hexec => hsecond s' ?_⟩⟩
        rw [exec, hs₁]
        exact hexec

/-- Entailment along a run, under an invariant that conforming steps keep. -/
theorem Along.imp_of_inv (Inv : σ → Prop)
    (hstep : ∀ {s a s'}, Inv s → P s a → step s a = some s' → Inv s')
    (himp : ∀ {s a}, Inv s → P s a → Q s a) {s : σ} {as : List α}
    (hs : Inv s) (h : Along step P s as) : Along step Q s as := by
  induction as generalizing s with
  | nil => trivial
  | cons a as ih =>
      obtain ⟨hP, hrest⟩ := h
      exact ⟨himp hs hP, fun s' hs' => ih (hstep hs hP hs') (hrest s' hs')⟩

/-- Two properties that agree wherever the invariant holds agree along every
run. -/
theorem along_iff_of_inv (Inv : σ → Prop)
    (hstep : ∀ {s a s'}, Inv s → P s a → step s a = some s' → Inv s')
    (hiff : ∀ {s a}, Inv s → (P s a ↔ Q s a)) {s : σ} {as : List α}
    (hs : Inv s) : Along step P s as ↔ Along step Q s as := by
  constructor
  · exact Along.imp_of_inv Inv hstep (fun hi hP => (hiff hi).mp hP) hs
  · exact Along.imp_of_inv Inv (fun hi hQ => hstep hi ((hiff hi).mpr hQ))
      (fun hi hQ => (hiff hi).mpr hQ) hs

/-- Along a run that meets a condition, two properties that agree wherever the condition
and the invariant hold agree. -/
theorem Along.iff_of_inv {C : σ → α → Prop} (Inv : σ → Prop)
    (hstep : ∀ {s a s'}, Inv s → C s a → step s a = some s' → Inv s')
    (hiff : ∀ {s a}, Inv s → C s a → (P s a ↔ Q s a)) {s : σ} {as : List α}
    (hs : Inv s) (h : Along step C s as) : Along step P s as ↔ Along step Q s as := by
  induction as generalizing s with
  | nil => exact Iff.rfl
  | cons a as ih =>
      obtain ⟨hC, hrest⟩ := h
      refine and_congr (hiff hs hC) (forall_congr' fun s' => imp_congr_right fun hs' => ?_)
      exact ih (hstep hs hC hs') (hrest s' hs')

/-- The invariant holds in the state a conforming run reaches. -/
theorem Along.exec_inv (Inv : σ → Prop)
    (hstep : ∀ {s a s'}, Inv s → P s a → step s a = some s' → Inv s')
    {s s' : σ} {as : List α} (hs : Inv s) (h : Along step P s as)
    (hexec : exec step s as = some s') : Inv s' := by
  induction as generalizing s with
  | nil =>
      obtain rfl := Option.some.inj hexec
      exact hs
  | cons a as ih =>
      obtain ⟨s₁, hs₁, hrest⟩ := Option.bind_eq_some_iff.mp hexec
      exact ih (hstep hs h.1 hs₁) (h.2 s₁ hs₁) hrest

/-- An invariant that every step keeps holds wherever a run leads. -/
theorem exec_inv (Inv : σ → Prop)
    (hstep : ∀ {s a s'}, Inv s → step s a = some s' → Inv s') {s s' : σ} {as : List α}
    (hs : Inv s) (hexec : exec step s as = some s') : Inv s' :=
  (along_true s as).exec_inv Inv (fun hi _ h => hstep hi h) hs hexec

/-- A conforming run does not get stuck if no conforming step does. -/
theorem Along.exec_isSome (hstep : ∀ {s a}, P s a → ∃ s', step s a = some s') {s : σ}
    {as : List α} (h : Along step P s as) : ∃ s', exec step s as = some s' := by
  induction as generalizing s with
  | nil => exact ⟨s, rfl⟩
  | cons a as ih =>
      obtain ⟨s₁, hs₁⟩ := hstep h.1
      obtain ⟨s', hs'⟩ := ih (h.2 s₁ hs₁)
      refine ⟨s', ?_⟩
      rw [exec, hs₁]
      exact hs'

/-- Where every action of a run is possible under the invariant, and keeps it, the run
does not get stuck. -/
theorem exec_total (Inv : σ → Prop) {as : List α}
    (hstep : ∀ s, ∀ a ∈ as, Inv s → ∃ s', step s a = some s' ∧ Inv s') {s : σ} (hs : Inv s) :
    ∃ s', exec step s as = some s' ∧ Inv s' := by
  induction as generalizing s with
  | nil => exact ⟨s, rfl, hs⟩
  | cons a as ih =>
      obtain ⟨s₁, hs₁, hinv⟩ := hstep s a List.mem_cons_self hs
      obtain ⟨s', hs', hinv'⟩ := ih (fun s a ha => hstep s a (List.mem_cons_of_mem _ ha)) hinv
      refine ⟨s', ?_, hinv'⟩
      rw [exec, hs₁]
      exact hs'

end Runs
