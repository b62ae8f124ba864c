/-
Variorum/Status.lean

One status variable for a sequence of steps.

Code in the C style keeps the status of its steps in a variable, zero for
success, and returns it.  Where every step assigns the variable, without a look
at what is in it, the value returned is that of the last step, whatever
happened before (`overwritten_eq_last`).  Such a variable tells success from
failure exactly for the sequences whose last step fails and for those without a
failure (`faithful_iff`).

Nothing here mentions a particular program.
-/
import Mathlib.Data.List.Induction

namespace Status

variable {α : Type*} [Zero α]

/-- The variable after the steps have assigned `rs` to it in turn. -/
def overwritten (status : α) (rs : List α) : α := rs.foldl (fun _ r => r) status

omit [Zero α] in
theorem overwritten_concat (status : α) (rs : List α) (r : α) :
    overwritten status (rs ++ [r]) = r := by
  unfold overwritten
  rw [List.foldl_append]
  rfl

omit [Zero α] in
/-- Only the last assignment counts. -/
theorem overwritten_eq_last (status : α) (rs : List α) :
    overwritten status rs = rs.getLast?.getD status := by
  induction rs using List.reverseRecOn with
  | nil => rfl
  | append_singleton rs r _ =>
      rw [overwritten_concat, List.getLast?_append]
      rfl

/-- The variable tells whether all steps succeeded. -/
def Faithful (rs : List α) : Prop := overwritten 0 rs = 0 ↔ ∀ r ∈ rs, r = 0

/-- **When the last status stands for all of them**: when it is a failure, or
nothing failed. -/
theorem faithful_iff (rs : List α) :
    Faithful rs ↔ (∃ r ∈ rs.getLast?, r ≠ 0) ∨ ∀ r ∈ rs, r = 0 := by
  unfold Faithful
  rw [overwritten_eq_last]
  rcases hlast : rs.getLast? with - | r
  · obtain rfl := List.getLast?_eq_none_iff.mp hlast
    simp
  · have hmem : r ∈ rs := List.mem_of_getLast? hlast
    show (r = 0 ↔ ∀ r ∈ rs, r = 0) ↔ _
    constructor
    · intro h
      by_cases hr : r = 0
      · exact .inr (h.mp hr)
      · exact .inl ⟨r, rfl, hr⟩
    · rintro (⟨r', hr', hne⟩ | hall)
      · obtain rfl := Option.some.inj hr'
        exact ⟨fun h => absurd h hne, fun h => absurd (h r hmem) hne⟩
      · exact ⟨fun _ => hall, fun h => h r hmem⟩

end Status
