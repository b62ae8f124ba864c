/-
Variorum/ApiDispatch.lean

Which platforms a control or energy call reaches.

`InOrder` is the contract of a loop over the platform table: the functions that
are there run once each, in the order of the platforms, up to and including the
first that fails.  The loop with `continue` meets it for every table
(`platformLoop_skips`).  The control calls leave the loop at a NULL entry
instead, with `return 0`, and so keep any platform behind it from being called:
`dispatch_iff` says for which tables that makes no difference.
-/
import Mathlib.Data.List.Sort
import Variorum.Api

namespace Variorum

/-! ### The contract -/

/-- `calls` are the positions of the implementing platforms, each once and in
order, up to and including the first that fails. -/
structure InOrder (rs : List (Option Int)) (calls : List Nat) : Prop where
  order : calls.Pairwise (· < ·)
  mem : ∀ j, j ∈ calls ↔
    (∃ v, rs[j]? = some (some v)) ∧ ∀ k < j, ∀ v, rs[k]? = some (some v) → v = 0

/-- The calls of `variorum.h` that set a limit or report energy, for all
platforms. -/
inductive ControlApi
  | capEachSocketPowerLimit (socketPowerLimit : Int)
  | capEachCoreFrequencyLimit (coreFreqMhz : Int)
  | capSocketFrequencyLimit (socketid socketFreqMhz : Int)
  | capEachGpuPowerLimit (gpuPowerLimit : Int)
  | printEnergy
  | getEnergyJson

namespace ControlApi

def body : ControlApi → Body
  | capEachSocketPowerLimit w => variorumCapEachSocketPowerLimit w
  | capEachCoreFrequencyLimit f => variorumCapEachCoreFrequencyLimit f
  | capSocketFrequencyLimit socketid f => variorumCapSocketFrequencyLimit socketid f
  | capEachGpuPowerLimit w => variorumCapEachGpuPowerLimit w
  | printEnergy => variorumPrintEnergy
  | getEnergyJson => variorumGetEnergyJson

def feature : ControlApi → Feature
  | capEachSocketPowerLimit _ => .capEachSocketPowerLimit
  | capEachCoreFrequencyLimit _ => .capEachCoreFrequencyLimit
  | capSocketFrequencyLimit _ _ => .capSocketFrequencyLimit
  | capEachGpuPowerLimit _ => .capEachGpuPowerLimit
  | printEnergy => .printEnergy
  | getEnergyJson => .getEnergyJson

end ControlApi

/-- `variorum_enter` and `variorum_exit` when they succeed. -/
def Lifecycle.succeeding (σ : Type*) : Lifecycle σ :=
  ⟨fun s => some (0, s), fun s => some (0, s)⟩

/-- The mark that records which platforms are called. -/
def record (i : Nat) (calls : List Nat) : List Nat := calls ++ [i]

/-- What came of a call on a column of results: it came to an end (no NULL
pointer was called), it ran the functions as `InOrder` says, and it returned 0
only if every platform that has the function was called and returned 0. -/
def Dispatched (rs : List (Option Int)) (outcome : Option (Int × List Nat)) : Prop :=
  ∃ ret calls, outcome = some (ret, calls) ∧ InOrder rs calls ∧
    (ret = 0 → ∀ (j : Nat) v, rs[j]? = some (some v) → j ∈ calls ∧ v = 0)

/-- A control call dispatches on a platform table. -/
def Dispatches (b : Build) (proc : ProcFiles) (tbl : List (Feature → Option Int))
    (api : ControlApi) : Prop :=
  Dispatched (tbl.map fun results => results api.feature)
    (callApi b (.succeeding _) (scriptedTable record tbl) proc api.body [])

/-- Nothing that is implemented stands behind a NULL entry, unless a platform
before the NULL entry fails. -/
def Uncut : List (Option Int) → Prop
  | [] => True
  | none :: rs => ∀ r ∈ rs, r = none
  | some r :: rs => r ≠ 0 ∨ Uncut rs

/-- The tables with which a call dispatches: for the caps those that are not cut
short; on a build with a CPU platform the same for `variorum_print_energy`,
and for `variorum_get_energy_json` those without NULL and without failure; on
other builds, for both, those where no platform has the feature. -/
def DispatchPre (b : Build) (rs : List (Option Int)) : ControlApi → Prop
  | .printEnergy => if b.hasCpu then Uncut rs else ∀ r ∈ rs, r = none
  | .getEnergyJson => if b.hasCpu then ∀ r ∈ rs, r = some 0 else ∀ r ∈ rs, r = none
  | _ => Uncut rs

/-! ### The calls up to the first failure -/

section UpToFailure

variable {i j : Nat} {rs : List (Option Int)}

theorem le_of_mem_upToFailure {k : Nat} (h : k ∈ upToFailure i rs) : i ≤ k := by
  induction rs generalizing i with
  | nil => cases h
  | cons r rs ih =>
      cases r with
      | none => exact (Nat.le_succ i).trans (ih h)
      | some r =>
          rcases List.mem_cons.mp h with rfl | h
          · exact le_rfl
          · by_cases hr : r ≠ 0
            · rw [if_pos hr] at h
              cases h
            · rw [if_neg hr] at h
              exact (Nat.le_succ i).trans (ih h)

theorem mem_upToFailure :
    i + j ∈ upToFailure i rs ↔
      (∃ v, rs[j]? = some (some v)) ∧ ∀ k < j, ∀ v, rs[k]? = some (some v) → v = 0 := by
  induction rs generalizing i j with
  | nil => simp [upToFailure]
  | cons r rs ih =>
      cases j with
      | zero =>
          cases r with
          | none =>
              have hnot : i ∉ upToFailure (i + 1) rs :=
                fun h => Nat.not_succ_le_self i (le_of_mem_upToFailure h)
              simp [upToFailure, hnot]
          | some r => simp [upToFailure]
      | succ j =>
          have hshift : i + (j + 1) = i + 1 + j := by omega
          rw [hshift, Nat.forall_lt_succ_left]
          simp only [List.getElem?_cons_succ, List.getElem?_cons_zero, Option.some.injEq]
          cases r with
          | none =>
              show _ ∈ upToFailure (i + 1) rs ↔ _
              rw [ih]
              simp
          | some r =>
              have hne : i + 1 + j ≠ i := by omega
              by_cases hr : r = 0
              · simp [upToFailure, hr, hne, ih]
              · simp [upToFailure, hr, hne]

theorem pairwise_upToFailure : (upToFailure i rs).Pairwise (· < ·) := by
  induction rs generalizing i with
  | nil => exact List.Pairwise.nil
  | cons r rs ih =>
      cases r with
      | none => exact ih
      | some r =>
          by_cases hr : r ≠ 0
          · simp only [upToFailure, if_pos hr, List.pairwise_singleton]
          · simp only [upToFailure, if_neg hr]
            exact List.Pairwise.cons (fun k hk => le_of_mem_upToFailure hk) ih

theorem upToFailure_eq_nil_iff : upToFailure i rs = [] ↔ ∀ r ∈ rs, r = none := by
  induction rs generalizing i with
  | nil => simp [upToFailure]
  | cons r rs ih =>
      cases r with
      | none => simp [upToFailure, ih]
      | some r => simp [upToFailure]

/-- Where nothing is missing and nothing fails, everything is called. -/
theorem upToFailure_of_zero (h : ∀ r ∈ rs, r = some 0) :
    upToFailure i rs = List.range' i rs.length := by
  induction rs generalizing i with
  | nil => rfl
  | cons r rs ih =>
      obtain ⟨rfl, hrest⟩ := List.forall_mem_cons.mp h
      rw [List.length_cons, List.range'_succ, ← ih hrest]
      rfl

/-- The contract leaves no choice. -/
theorem inOrder_iff {calls : List Nat} : InOrder rs calls ↔ calls = upToFailure 0 rs := by
  have hmem : ∀ k, k ∈ upToFailure 0 rs ↔
      (∃ v, rs[k]? = some (some v)) ∧ ∀ l < k, ∀ v, rs[l]? = some (some v) → v = 0 := by
    intro k
    rw [← mem_upToFailure, Nat.zero_add]
  constructor
  · intro h
    exact h.order.eq_of_mem_iff pairwise_upToFailure (fun k => (h.mem k).trans (hmem k).symm)
  · rintro rfl
    exact ⟨pairwise_upToFailure, hmem⟩

end UpToFailure

/-! ### The loops on a scripted table -/

section Loops

variable {σ : Type*} (mark : Nat → σ → σ)

@[simp] theorem marks_nil (s : σ) : marks mark [] s = s := rfl

@[simp] theorem marks_cons (i : Nat) (calls : List Nat) (s : σ) :
    marks mark (i :: calls) s = marks mark calls (mark i s) := rfl

theorem marks_record (calls trace : List Nat) : marks record calls trace = trace ++ calls := by
  induction calls generalizing trace with
  | nil => exact (List.append_nil trace).symm
  | cons i calls ih =>
      rw [marks_cons, ih, record, List.append_assoc, List.singleton_append]

/-- **The loop of the print calls** meets the contract for every table. -/
theorem platformLoop_skips (i : Nat) (rs : List (Option Int)) (s : σ) :
    platformLoop .skips (column mark i rs) s
      = some (if ∀ r ∈ rs, r = none ∨ r = some 0 then .finished else .returned (-1),
          marks mark (upToFailure i rs) s) := by
  induction rs generalizing i s with
  | nil => rfl
  | cons r rs ih =>
      cases r with
      | none =>
          show platformLoop .skips (column mark (i + 1) rs) s = _
          rw [ih]
          simp [upToFailure]
      | some r =>
          by_cases hr : r = 0
          · subst hr
            show platformLoop .skips (column mark (i + 1) rs) (mark i s) = _
            rw [ih]
            simp [upToFailure]
          · simp [column, platformLoop, upToFailure, hr]

/-- The loop of `variorum_get_frequency_json` always comes to its end. -/
theorem platformLoop_reports (i : Nat) (rs : List (Option Int)) (s : σ) :
    ∃ calls, platformLoop .reports (column mark i rs) s
      = some (.finished, marks mark calls s) := by
  induction rs generalizing i s with
  | nil => exact ⟨[], rfl⟩
  | cons r rs ih =>
      cases r with
      | none => exact ih (i + 1) s
      | some r =>
          obtain ⟨calls, hrun⟩ := ih (i + 1) (mark i s)
          refine ⟨i :: calls, ?_⟩
          simpa [column, platformLoop] using hrun

/-- The loop of the control calls.  It goes as far as it should exactly when the
table does not cut it short, and then it does not hide a failure. -/
theorem platformLoop_stops (i : Nat) (rs : List (Option Int)) (s : σ) :
    ∃ e calls, platformLoop .stops (column mark i rs) s = some (e, marks mark calls s) ∧
      (calls = upToFailure i rs ↔ Uncut rs) ∧
      (Uncut rs → e ≠ .returned (-1) → ∀ v, some v ∈ rs → v = 0) ∧
      (e = .finished ↔ ∀ r ∈ rs, r = some 0) := by
  -- by induction on the platforms; an empty entry ends the loop, and so does a failure
  induction rs generalizing i s with
  | nil => exact ⟨.finished, [], rfl, by simp [upToFailure, Uncut], by simp, by simp⟩
  | cons r rs ih =>
      cases r with
      | none =>
          refine ⟨.returned 0, [], rfl, ?_, ?_, by simp⟩
          · -- nothing is called any more, so nothing may be left to call
            rw [eq_comm, upToFailure_eq_nil_iff]
            simp [Uncut]
          · intro huncut _ v hv
            rcases List.mem_cons.mp hv with h | h
            · cases h
            · cases huncut _ h
      | some r =>
          by_cases hr : r = 0
          · subst hr
            obtain ⟨e, calls, hrun, hcalls, hzero, hend⟩ := ih (i + 1) (mark i s)
            refine ⟨e, i :: calls, hrun, ?_, ?_, ?_⟩
            · simp [upToFailure, Uncut, hcalls]
            · intro huncut hne v hv
              rcases List.mem_cons.mp hv with h | h
              · exact Option.some.inj h
              · exact hzero (huncut.resolve_left (fun h => h rfl)) hne v h
            · rw [hend, List.forall_mem_cons, and_iff_right rfl]
          · refine ⟨.returned (-1), [i], ?_, ?_, fun _ h => absurd rfl h, by simp [hr]⟩
            · simp [column, platformLoop, hr]
            · simp [upToFailure, Uncut, hr]

/-- The loop of `variorum_get_energy_json` runs through the whole table. -/
theorem platformLoop_calls (i : Nat) (rs : List (Option Int)) (s : σ) :
    platformLoop .calls (column mark i rs) s
      = if none ∈ rs then none
        else some (.finished, marks mark (List.range' i rs.length) s) := by
  induction rs generalizing i s with
  | nil => rfl
  | cons r rs ih =>
      cases r with
      | none => simp [column, platformLoop]
      | some r =>
          have hstep : platformLoop .calls (column mark i (some r :: rs)) s
              = platformLoop .calls (column mark (i + 1) rs) (mark i s) := by
            simp [column, platformLoop]
          rw [hstep, ih]
          simp [List.range'_succ]

end Loops

/-! ### Dispatch -/

/-- The value an API function returns for the end its work comes to, when
`variorum_exit` succeeds. -/
def BodyEnd.ret : BodyEnd → Int
  | finished => 0
  | returned ret => ret

section Dispatch

variable {b : Build} {proc : ProcFiles} {tbl : List (Feature → Option Int)}
variable {rs : List (Option Int)}

theorem callApi_succeeding {σ : Type*} (g : List (Platform σ)) (body : Body) (s : σ) :
    callApi b (.succeeding σ) g proc body s
      = (body.run b g proc s).map fun (e, s) => (e.ret, s) := by
  simp only [callApi, Lifecycle.succeeding, ne_eq, not_true_eq_false, if_false]
  rcases body.run b g proc s with - | ⟨- | ret, s⟩ <;> rfl

/-- The loop that leaves at a NULL entry. -/
theorem dispatched_stops :
    Dispatched rs ((platformLoop .stops (column record 0 rs) []).map fun (e, s) => (e.ret, s)) ↔
      Uncut rs := by
  obtain ⟨e, calls, hrun, hcalls, hzero, -⟩ := platformLoop_stops record 0 rs []
  rw [marks_record, List.nil_append] at hrun
  rw [hrun]
  constructor
  · rintro ⟨ret, calls', h, hinOrder, -⟩
    obtain ⟨-, rfl⟩ := Prod.mk.inj (Option.some.inj h)
    exact hcalls.mp (inOrder_iff.mp hinOrder)
  · intro huncut
    have hinOrder := inOrder_iff.mpr (hcalls.mpr huncut)
    refine ⟨e.ret, calls, rfl, hinOrder, fun hret j v hj => ?_⟩
    have hall : ∀ v, some v ∈ rs → v = 0 := by
      refine hzero huncut ?_
      rintro rfl
      exact absurd hret (by decide)
    refine ⟨(hinOrder.mem j).mpr ⟨⟨v, hj⟩, fun k _ w hk => ?_⟩, ?_⟩
    · exact hall w (List.mem_of_getElem? hk)
    · exact hall v (List.mem_of_getElem? hj)

/-- The loop that tests for NULL and calls all the same. -/
theorem dispatched_calls :
    Dispatched rs ((platformLoop .calls (column record 0 rs) []).map fun (e, s) => (e.ret, s)) ↔
      ∀ r ∈ rs, r = some 0 := by
  rw [platformLoop_calls]
  by_cases hnull : none ∈ rs
  · rw [if_pos hnull]
    refine iff_of_false ?_ (fun h => by cases h _ hnull)
    rintro ⟨ret, calls, h, -⟩
    cases h
  · rw [if_neg hnull, marks_record, List.nil_append]
    constructor
    · rintro ⟨ret, calls, h, -, hret⟩ r hr
      obtain ⟨rfl, -⟩ := Prod.mk.inj (Option.some.inj h)
      obtain ⟨j, hj⟩ := List.getElem?_of_mem hr
      cases r with
      | none => exact absurd hr hnull
      | some v => rw [(hret rfl j v hj).2]
    · intro hzero
      refine ⟨0, _, rfl, inOrder_iff.mpr (upToFailure_of_zero hzero).symm, fun _ j v hj => ?_⟩
      have hlt := (List.getElem?_eq_some_iff.mp hj).1
      refine ⟨List.mem_range'_1.mpr ⟨Nat.zero_le j, by omega⟩, ?_⟩
      exact Option.some.inj (hzero _ (List.mem_of_getElem? hj))

/-- To call nothing and return 0. -/
theorem dispatched_nothing : Dispatched rs (some (0, [])) ↔ ∀ r ∈ rs, r = none := by
  constructor
  · rintro ⟨ret, calls, h, hinOrder, -⟩
    obtain ⟨-, rfl⟩ := Prod.mk.inj (Option.some.inj h)
    exact upToFailure_eq_nil_iff.mp (inOrder_iff.mp hinOrder).symm
  · intro hnone
    refine ⟨0, [], rfl, inOrder_iff.mpr (upToFailure_eq_nil_iff.mpr hnone).symm, ?_⟩
    intro _ j v hj
    cases hnone _ (List.mem_of_getElem? hj)

/-- A call whose work is the loop of the control calls. -/
theorem dispatched_each (f : Feature) (args : f.Args) :
    Dispatched (tbl.map fun results => results f)
        (callApi b (.succeeding _) (scriptedTable record tbl) proc (.each .stops f args) []) ↔
      Uncut (tbl.map fun results => results f) := by
  rw [callApi_succeeding]
  show Dispatched _ ((platformLoop .stops (entries _ f args) []).map _) ↔ _
  rw [entries_scriptedTable]
  exact dispatched_stops

/-- A call whose work is a loop on builds with a CPU platform only. -/
theorem dispatched_eachWithCpu (style : LoopStyle) (f : Feature) (args : f.Args) {P : Prop}
    (hloop : Dispatched (tbl.map fun results => results f)
      ((platformLoop style (column record 0 (tbl.map fun results => results f)) []).map
        fun (e, s) => (e.ret, s)) ↔ P) :
    Dispatched (tbl.map fun results => results f)
        (callApi b (.succeeding _) (scriptedTable record tbl) proc (.eachWithCpu style f args) []) ↔
      if b.hasCpu then P else ∀ r ∈ tbl.map fun results => results f, r = none := by
  rw [callApi_succeeding]
  simp only [Body.run]
  cases b.hasCpu with
  | true =>
      rw [if_pos rfl, if_pos rfl, entries_scriptedTable]
      exact hloop
  | false => exact dispatched_nothing

/-- **Dispatch of the control calls.**  For every table of any length, with any
pattern of NULL entries and results: a call reaches the platforms it should,
and reports what they returned, if and only if the table does not cut it
short. -/
theorem dispatch_iff (b : Build) (proc : ProcFiles) (tbl : List (Feature → Option Int))
    (api : ControlApi) :
    Dispatches b proc tbl api ↔
      DispatchPre b (tbl.map fun results => results api.feature) api := by
  unfold Dispatches
  cases api with
  | capEachSocketPowerLimit w => exact dispatched_each .capEachSocketPowerLimit w
  | capEachCoreFrequencyLimit f => exact dispatched_each .capEachCoreFrequencyLimit f
  | capSocketFrequencyLimit socketid f =>
      exact dispatched_each .capSocketFrequencyLimit (socketid, f)
  | capEachGpuPowerLimit w => exact dispatched_each .capEachGpuPowerLimit (BitVec.ofInt 32 w)
  | printEnergy => exact dispatched_eachWithCpu .stops .printEnergy (0 : Int) dispatched_stops
  | getEnergyJson => exact dispatched_eachWithCpu .calls .getEnergyJson () dispatched_calls

/-- A CPU platform without GPU caps in front of a GPU platform with them: the GPU
is never asked, and the call returns 0. -/
theorem capEachGpuPowerLimit_cut :
    ¬ Dispatches (fun k => k = .intelCpu ∨ k = .nvidiaGpu) ⟨true, true, true⟩
      [fun _ => none, fun _ => some 0] (.capEachGpuPowerLimit 100) := by
  rintro ⟨ret, calls, h, hinOrder, -⟩
  obtain ⟨-, rfl⟩ := Prod.mk.inj (Option.some.inj h)
  exact absurd ((hinOrder.mem 1).mpr ⟨⟨0, rfl⟩, fun k hk v hv => by
    obtain rfl := Nat.lt_one_iff.mp hk
    cases hv⟩) (by decide)

end Dispatch

end Variorum
