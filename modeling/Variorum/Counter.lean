/-
Variorum/Counter.lean

Free-running counters.

A counter counts without bound but shows only its count modulo `M`.  As long as
it advances by less than `M` between two readings, the advance can be recovered
from the readings alone (`advance_mod`), whether or not the counter wrapped.

Nothing here mentions a particular counter.
-/
import Mathlib.Algebra.Ring.Nat


namespace Counter

/-- The advance between two readings of a counter that wrapped at most once. -/
def advance (M old new : ℕ) : ℕ := (new + (M - old)) % M

variable {M : ℕ}

/-- The advance of a counter that did not wrap. -/
theorem advance_of_le {old new : ℕ} (h : old ≤ new) (hnew : new < M) :
    advance M old new = new - old := by
  rw [advance, show new + (M - old) = new - old + M by omega, Nat.add_mod_right,
    Nat.mod_eq_of_lt (by omega)]

/-- The advance of a counter that did. -/
theorem advance_of_lt {old new : ℕ} (h : new < old) (hold : old ≤ M) :
    advance M old new = new + (M - old) := by
  rw [advance, Nat.mod_eq_of_lt (by omega)]

/-- The reading after an advance that does not wrap. -/
theorem mod_add_of_lt {e u : ℕ} (h : e % M + u < M) : (e + u) % M = e % M + u := by
  rw [Nat.add_mod, Nat.mod_eq_of_lt (show u < M by omega), Nat.mod_eq_of_lt h]

/-- The reading after an advance that does. -/
theorem mod_add_of_le {e u : ℕ} (hu : u < M) (h : M ≤ e % M + u) :
    (e + u) % M + M = e % M + u := by
  have hr : e % M < M := Nat.mod_lt e (by omega)
  rw [Nat.add_mod, Nat.mod_eq_of_lt hu, Nat.mod_eq_sub_mod h, Nat.mod_eq_of_lt (by omega)]
  omega

/-- **The advance is recovered from the readings.** -/
theorem advance_mod {e u : ℕ} (hu : u < M) : advance M (e % M) ((e + u) % M) = u := by
  have hr : e % M < M := Nat.mod_lt e (by omega)
  unfold advance
  by_cases h : e % M + u < M
  · rw [mod_add_of_lt h, show e % M + u + (M - e % M) = u + M by omega, Nat.add_mod_right,
      Nat.mod_eq_of_lt hu]
  · have hwrap := mod_add_of_le hu (Nat.not_lt.mp h)
    rw [show (e + u) % M + (M - e % M) = u by omega, Nat.mod_eq_of_lt hu]

end Counter
