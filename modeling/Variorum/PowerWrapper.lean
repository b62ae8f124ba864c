/-
Variorum/PowerWrapper.lean

The dynamic power wrapper: the limits that `power_set_measurement` programs.

Every fifth poll moves the limit by 5 W, downwards from the user's cap and upwards from
30 W.  Under any cap the limits stay on a bounded walk (`Walk.adjust`): they never leave
the residue class of the cap modulo 5, so on the way up they meet a cap above 30 W
exactly.  With a cap of at most 30 W both thresholds hold at once, the second wins, and
the first adjustment goes above the cap (`respectsCap_iff`).
-/
import Mathlib.Algebra.Group.Int.Defs
import Mathlib.Data.List.Chain
import Mathlib.Tactic.TypeStar

namespace Variorum

/-! ### The loop -/

/-- `poll_num`, `watts` and `poll_dir`. -/
structure WrapperState where
  pollNum : BitVec 64
  watts : Int
  pollDir : Int

/-- The statements under `if (poll_num % 5 == 0)`, up to the call. -/
def WrapperState.adjust (wattCap : Int) (st : WrapperState) : WrapperState :=
  let pollDir := if st.watts ≥ wattCap then -5 else st.pollDir
  let pollDir := if st.watts ≤ 30 then 5 else pollDir
  { st with watts := st.watts + pollDir, pollDir := pollDir }

/-- `poll_num++`, the one thing that every poll does. -/
def WrapperState.next (st : WrapperState) : WrapperState := { st with pollNum := st.pollNum + 1 }

/-- The loop of `power_set_measurement` for so many polls: the limits it hands to
`variorum_cap_each_socket_power_limit`. -/
def pollLoop (wattCap : Int) : Nat → WrapperState → List Int
  | 0, _ => []
  | polls + 1, st =>
      if st.pollNum % 5 = 0 then
        (st.adjust wattCap).watts :: pollLoop wattCap polls (st.adjust wattCap).next
      else pollLoop wattCap polls st.next

/-- `power_set_measurement`: the limits it programs until `running` is cleared, with the
value that the global `poll_dir` has at the start. -/
def powerSetMeasurement (wattCap pollDir : Int) (polls : Nat) : List Int :=
  wattCap :: pollLoop wattCap polls ⟨1, wattCap, pollDir⟩

/-! ### What the limits are for -/

/-- No limit is above the cap, none is at 25 W or below if the cap is above 30 W, and two
in a row are 5 W apart. -/
structure RespectsCap (wattCap : Int) (limits : List Int) : Prop where
  le : ∀ w ∈ limits, w ≤ wattCap
  gt : 30 < wattCap → ∀ w ∈ limits, 25 < w
  steps : limits.IsChain fun w w' => (w' - w).natAbs = 5

/-! ### The walk -/

/-- Where the limit is after any number of polls. -/
structure Walk (wattCap watts : Int) : Prop where
  le : watts ≤ max wattCap 35
  ge : min wattCap 26 ≤ watts
  residue : (wattCap - watts) % 5 = 0

/-- The direction is set, or about to be. -/
def WrapperState.Directed (wattCap : Int) (st : WrapperState) : Prop :=
  st.pollDir = 5 ∨ st.pollDir = -5 ∨ st.watts = wattCap

section Loop

variable {wattCap pollDir : Int} {st : WrapperState} {polls : Nat}

theorem adjust_watts (wattCap : Int) (st : WrapperState) :
    (st.adjust wattCap).watts = st.watts + (st.adjust wattCap).pollDir := rfl

theorem adjust_pollDir (wattCap : Int) (st : WrapperState) :
    (st.adjust wattCap).pollDir
      = if st.watts ≤ 30 then 5 else if st.watts ≥ wattCap then -5 else st.pollDir := rfl

/-- An adjustment goes up or down by 5 W. -/
theorem adjust_dir (h : st.Directed wattCap) :
    (st.adjust wattCap).pollDir = 5 ∨ (st.adjust wattCap).pollDir = -5 := by
  rw [adjust_pollDir]
  split
  · exact .inl rfl
  · split
    · exact .inr rfl
    · next hbelow =>
        rcases h with hup | hdown | hcap
        · exact .inl hup
        · exact .inr hdown
        · exact absurd (Int.le_of_eq hcap.symm) hbelow

theorem adjust_directed (h : st.Directed wattCap) : (st.adjust wattCap).Directed wattCap := by
  rcases adjust_dir h with hup | hdown
  · exact .inl hup
  · exact .inr (.inl hdown)

/-- **One adjustment** keeps to the walk. -/
theorem Walk.adjust (h : Walk wattCap st.watts) (hdir : st.Directed wattCap) :
    Walk wattCap (st.adjust wattCap).watts := by
  obtain ⟨hle, hge, hres⟩ := h
  rw [adjust_watts, adjust_pollDir]
  split
  · exact ⟨by omega, by omega, by omega⟩
  · split
    · exact ⟨by omega, by omega, by omega⟩
    · next hhigh hbelow =>
        -- below the cap in its residue class, so at least 5 W below
        rcases hdir with hup | hdown | hcap
        · exact ⟨by omega, by omega, by omega⟩
        · exact ⟨by omega, by omega, by omega⟩
        · exact absurd (Int.le_of_eq hcap.symm) hbelow

/-- The walk does not leave the range of an `int`. -/
theorem Walk.fits {watts : Int} (h : Walk wattCap watts) (hmin : -2 ^ 31 ≤ wattCap)
    (hmax : wattCap < 2 ^ 31) : -2 ^ 31 ≤ watts ∧ watts < 2 ^ 31 := by
  have hle := h.le
  have hge := h.ge
  omega

/-- Under a cap above 30 W it stays between the cap and 25 W. -/
theorem Walk.between {watts : Int} (h : Walk wattCap watts) (hcap : 30 < wattCap) :
    watts ≤ wattCap ∧ 25 < watts := by
  obtain ⟨hle, hge, hres⟩ := h
  omega

/-- The limits of the loop, by induction on the polls: 5 W apart from the one before
the loop on. -/
theorem pollLoop_chain (h : st.Directed wattCap) (polls : Nat) :
    (st.watts :: pollLoop wattCap polls st).IsChain fun w w' => (w' - w).natAbs = 5 := by
  induction polls generalizing st with
  | zero => exact .singleton _
  | succ polls ih =>
      rw [pollLoop]
      split
      · refine .cons_cons ?_ ?_
        · have hdir := adjust_dir h
          rw [adjust_watts]
          omega
        · have hnext : (st.adjust wattCap).next.Directed wattCap := adjust_directed h
          exact ih hnext
      · have hnext : st.next.Directed wattCap := h
        exact ih hnext

/-- The limits of the loop, by induction on the polls: all on the walk. -/
theorem pollLoop_walk (hwalk : Walk wattCap st.watts) (hdir : st.Directed wattCap)
    (polls : Nat) :
    ∀ w ∈ pollLoop wattCap polls st, Walk wattCap w := by
  induction polls generalizing st with
  | zero => nofun
  | succ polls ih =>
      rw [pollLoop]
      split
      · have hnext := hwalk.adjust hdir
        have hdir' : (st.adjust wattCap).next.Directed wattCap := adjust_directed hdir
        exact List.forall_mem_cons.mpr ⟨hnext, ih hnext hdir'⟩
      · have hdir' : st.next.Directed wattCap := hdir
        exact ih hwalk hdir'

theorem pollLoop_skip (h : st.pollNum % 5 ≠ 0) :
    pollLoop wattCap (polls + 1) st = pollLoop wattCap polls st.next := by
  rw [pollLoop, if_neg h]

theorem pollLoop_adjust (h : st.pollNum % 5 = 0) :
    pollLoop wattCap (polls + 1) st
      = (st.adjust wattCap).watts :: pollLoop wattCap polls (st.adjust wattCap).next := by
  rw [pollLoop, if_pos h]

/-- The first five polls adjust once, at the fifth. -/
theorem pollLoop_five (wattCap : Int) (polls : Nat) (watts pollDir : Int) :
    pollLoop wattCap (polls + 5) ⟨1, watts, pollDir⟩
      = (WrapperState.adjust wattCap ⟨5, watts, pollDir⟩).watts ::
        pollLoop wattCap polls (WrapperState.adjust wattCap ⟨5, watts, pollDir⟩).next := by
  have h₁ : (1 : BitVec 64) % 5 ≠ 0 := by decide
  have h₂ : (1 + 1 : BitVec 64) % 5 ≠ 0 := by decide
  have h₃ : (1 + 1 + 1 : BitVec 64) % 5 ≠ 0 := by decide
  have h₄ : (1 + 1 + 1 + 1 : BitVec 64) % 5 ≠ 0 := by decide
  rw [pollLoop_skip h₁, pollLoop_skip h₂, pollLoop_skip h₃, pollLoop_skip h₄]
  exact pollLoop_adjust (show (1 + 1 + 1 + 1 + 1 : BitVec 64) % 5 = 0 by decide)

/-- Fewer than five polls adjust nothing. -/
theorem pollLoop_few (wattCap : Int) (h : polls < 5) (watts pollDir : Int) :
    pollLoop wattCap polls ⟨1, watts, pollDir⟩ = [] := by
  match polls, h with
  | 0, _ => rfl
  | 1, _ => rfl
  | 2, _ => rfl
  | 3, _ => rfl
  | 4, _ => rfl

/-- **The walk of a whole run.** -/
theorem powerSetMeasurement_walk (wattCap pollDir : Int) (polls : Nat) :
    ∀ w ∈ powerSetMeasurement wattCap pollDir polls, Walk wattCap w := by
  have hdir : (⟨1, wattCap, pollDir⟩ : WrapperState).Directed wattCap := .inr (.inr rfl)
  have hstart : Walk wattCap wattCap := ⟨by omega, by omega, by omega⟩
  exact List.forall_mem_cons.mpr ⟨hstart, pollLoop_walk hstart hdir polls⟩

/-- **The limits, exactly.**  For every cap, direction at the start and number of polls,
they respect the cap when it is above 30 W, and in runs that end before the first
adjustment, which comes with the fifth poll. -/
theorem respectsCap_iff (wattCap pollDir : Int) (polls : Nat) :
    RespectsCap wattCap (powerSetMeasurement wattCap pollDir polls) ↔
      30 < wattCap ∨ polls < 5 := by
  constructor
  · intro h
    by_contra hneg
    obtain ⟨hcap, hpolls⟩ := not_or.mp hneg
    obtain ⟨rest, rfl⟩ := Nat.exists_eq_add_of_le (Nat.not_lt.mp hpolls)
    -- at the fifth poll the limit is the cap, and goes up by 5 W
    have hfirst : (WrapperState.adjust wattCap ⟨5, wattCap, pollDir⟩).watts = wattCap + 5 := by
      rw [adjust_watts, adjust_pollDir, if_pos (Int.not_lt.mp hcap)]
    have hmem : wattCap + 5 ∈ powerSetMeasurement wattCap pollDir (5 + rest) := by
      apply List.mem_cons_of_mem
      rw [Nat.add_comm, pollLoop_five, hfirst]
      exact List.mem_cons_self
    have habove := h.le _ hmem
    omega
  · rintro (hcap | hfew)
    · have hwalk := powerSetMeasurement_walk wattCap pollDir polls
      refine ⟨fun w hw => ((hwalk w hw).between hcap).1,
        fun _ w hw => ((hwalk w hw).between hcap).2, ?_⟩
      have hdir : (⟨1, wattCap, pollDir⟩ : WrapperState).Directed wattCap := .inr (.inr rfl)
      exact pollLoop_chain hdir polls
    · rw [powerSetMeasurement, pollLoop_few wattCap hfew]
      refine ⟨?_, ?_, .singleton _⟩
      · intro w hw
        exact Int.le_of_eq (List.mem_singleton.mp hw)
      · intro hcap w hw
        have heq := List.mem_singleton.mp hw
        omega

/-- A cap of 20 W, five polls: the wrapper programs 25 W. -/
theorem powerSetMeasurement_above :
    powerSetMeasurement 20 5 5 = [20, 25] ∧ ¬ RespectsCap 20 (powerSetMeasurement 20 5 5) := by
  have hlimits : powerSetMeasurement 20 5 5 = [20, 25] := by decide
  refine ⟨hlimits, fun h => ?_⟩
  have habove := h.le 25 (by rw [hlimits]; decide)
  exact absurd habove (by decide)

end Loop

end Variorum
