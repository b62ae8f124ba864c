/-
Variorum/JsonApi.lean

What `variorum_get_power_json` and `variorum_get_energy_json` return and what
they store through their argument.

The header promises 0 if successful and -1 otherwise, also where nobody
implements the feature, "so that users don't have to explicitly check for NULL
strings".  Both functions have the platforms write to one node object and hand
out its text.  `variorum_get_power_json` does so behind its loop, and only a
platform that fails keeps it from it.  `variorum_get_energy_json` does so after
each platform, whatever that returned, and calls a NULL entry; on a build
without a CPU platform it hands out an object to which nobody has written, and
returns 0.

A platform is scripted here: it returns a given value and leaves its position in
the node object.
-/
import Variorum.ApiDispatch

namespace Variorum

/-- The node object, by the platforms that have written to it, and the texts stored
through the argument, the latest last. -/
structure JsonState where
  node : List Nat
  stores : List (List Nat)

namespace JsonState

/-- `node_obj = json_object()`. -/
def newNode (s : JsonState) : JsonState := { s with node := [] }

/-- Platform `i` writes to the node object. -/
def contribute (i : Nat) (s : JsonState) : JsonState := { s with node := s.node ++ [i] }

/-- `*get_obj_str = json_dumps(..)`. -/
def dump (s : JsonState) : JsonState := { s with stores := s.stores ++ [s.node] }

end JsonState

/-! ### The functions -/

/-- `variorum_get_power_json`. -/
def callPowerJson (lc : Lifecycle JsonState) (g : List (Platform JsonState)) : Call JsonState :=
  fun s =>
    match lc.enter s with
    | none => none
    | some (err, s) =>
        if err ≠ 0 then some (-1, s)
        else
          match platformLoop .skips (entries g .getPowerJson ()) s.newNode with
          | none => none
          | some (.returned ret, s) => some (ret, s)
          | some (.finished, s) =>
              match lc.exit s.dump with
              | none => none
              | some (err, s) => if err ≠ 0 then some (-1, s) else some (err, s)

/-- A platform function with the `json_dumps` that stands behind its call. -/
def dumping (f : Call JsonState) : Call JsonState := fun s =>
  (f s).map fun (err, s) => (err, s.dump)

/-- `variorum_get_energy_json`. -/
def callEnergyJson (b : Build) (lc : Lifecycle JsonState) (g : List (Platform JsonState)) :
    Call JsonState :=
  fun s =>
    match lc.enter s with
    | none => none
    | some (err, s) =>
        if err ≠ 0 then some (-1, s)
        else if b.hasCpu then
          match platformLoop .calls ((entries g .getEnergyJson ()).map (·.map dumping))
              s.newNode with
          | none => none
          | some (.returned ret, s) => some (ret, s)
          | some (.finished, s) =>
              match lc.exit s with
              | none => none
              | some (err, s) => if err ≠ 0 then some (-1, s) else some (err, s)
        else some (0, s.newNode.dump)

/-- Without the node object and the texts, `variorum_get_power_json` is the API
function of its shape. -/
theorem callPowerJson_eq_callApi (b : Build) (lc : Lifecycle JsonState)
    (g : List (Platform JsonState)) (proc : ProcFiles) :
    callPowerJson lc g
      = callApi b
          { enter := fun s => (lc.enter s).map fun (err, s) =>
              (err, if err ≠ 0 then s else s.newNode)
            exit := fun s => lc.exit s.dump }
          g proc variorumGetPowerJson := by
  funext s
  unfold callPowerJson callApi
  cases henter : lc.enter s with
  | none => simp only [henter, Option.map_none]
  | some entered =>
      obtain ⟨err, s'⟩ := entered
      simp only [henter, Option.map_some]
      by_cases herr : err ≠ 0
      · simp only [if_pos herr]
      · simp only [if_neg herr]
        have hrun : variorumGetPowerJson.run b g proc s'.newNode
            = platformLoop .skips (entries g .getPowerJson ()) s'.newNode := rfl
        rw [hrun]
        rcases platformLoop .skips (entries g .getPowerJson ()) s'.newNode with
          - | ⟨- | ret, s''⟩
        · rfl
        · dsimp only
          rcases lc.exit s''.dump with - | ⟨err, s⟩
          · rfl
          · rfl
        · rfl

/-! ### The contract -/

/-- At least one platform has the function, and all that have it succeed. -/
def Delivers (rs : List (Option Int)) : Prop :=
  (∃ v, some v ∈ rs) ∧ ∀ v, some v ∈ rs → v = 0

/-- The contract of a JSON function for a column of results and nothing stored before:
where the platforms deliver, the call returns 0 and the last text stored has what
each of them wrote; otherwise it returns -1 and has stored nothing. -/
structure HonorsContract (rs : List (Option Int)) (reply : Option (Int × JsonState)) : Prop where
  delivers : Delivers rs → ∃ s' text, reply = some (0, s') ∧ s'.stores.getLast? = some text ∧
    ∀ (j : Nat) v, rs[j]? = some (some v) → j ∈ text
  fails : ¬ Delivers rs → ∃ s', reply = some (-1, s') ∧ s'.stores = []

/-- `variorum_enter` and `variorum_exit` with given results. -/
def Lifecycle.returning (enterRet exitRet : Int) : Lifecycle JsonState :=
  ⟨fun s => some (enterRet, s), fun s => some (exitRet, s)⟩

/-- The platforms of a build for a pattern of results. -/
def Build.table (b : Build) (results : PlatformKind → Feature → Option Int) :
    List (Platform JsonState) :=
  scriptedTable JsonState.contribute (b.platforms.map results)

/-- The results of a feature over the platforms of a build. -/
def Build.column (b : Build) (results : PlatformKind → Feature → Option Int) (f : Feature) :
    List (Option Int) :=
  b.platforms.map fun k => results k f

/-- Where `variorum_get_power_json` honors the contract: `variorum_enter` fails and the
platforms would not have delivered; or it succeeds, and a platform fails, or the
platforms deliver and `variorum_exit` succeeds. -/
def PowerHonored (enterRet exitRet : Int) (rs : List (Option Int)) : Prop :=
  if enterRet ≠ 0 then ¬ Delivers rs
  else (∃ v, some v ∈ rs ∧ v ≠ 0) ∨ Delivers rs ∧ exitRet = 0

/-- Where `variorum_get_energy_json` does: in the first case, or on a build with a CPU
platform when all platforms have the function, all succeed, and `variorum_exit`
as well. -/
def EnergyHonored (b : Build) (enterRet exitRet : Int) (rs : List (Option Int)) : Prop :=
  if enterRet ≠ 0 then ¬ Delivers rs
  else b.hasCpu = true ∧ (∀ r ∈ rs, r = some 0) ∧ exitRet = 0

section Contract

variable {rs : List (Option Int)} {ret : Int} {s : JsonState}

theorem honors_of_delivers (h : Delivers rs) :
    HonorsContract rs (some (ret, s)) ↔
      ret = 0 ∧ ∃ text, s.stores.getLast? = some text ∧
        ∀ (j : Nat) v, rs[j]? = some (some v) → j ∈ text := by
  constructor
  · rintro ⟨hdelivers, -⟩
    obtain ⟨s', text, heq, htext⟩ := hdelivers h
    obtain ⟨rfl, rfl⟩ := Prod.mk.inj (Option.some.inj heq)
    exact ⟨rfl, text, htext⟩
  · rintro ⟨rfl, text, htext⟩
    exact ⟨fun _ => ⟨s, text, rfl, htext⟩, fun hnot => absurd h hnot⟩

theorem honors_of_not_delivers (h : ¬ Delivers rs) :
    HonorsContract rs (some (ret, s)) ↔ ret = -1 ∧ s.stores = [] := by
  constructor
  · rintro ⟨-, hfails⟩
    obtain ⟨s', heq, hstores⟩ := hfails h
    obtain ⟨rfl, rfl⟩ := Prod.mk.inj (Option.some.inj heq)
    exact ⟨rfl, hstores⟩
  · rintro ⟨rfl, hstores⟩
    exact ⟨fun hd => absurd hd h, fun _ => ⟨s, rfl, hstores⟩⟩

/-- A call that ends the process honors nothing. -/
theorem not_honors_none : ¬ HonorsContract rs none := by
  rintro ⟨hdelivers, hfails⟩
  by_cases h : Delivers rs
  · obtain ⟨s', text, heq, -⟩ := hdelivers h
    cases heq
  · obtain ⟨s', heq, -⟩ := hfails h
    cases heq

/-- A call that returns -1 and has stored nothing honors the contract when the
platforms do not deliver. -/
theorem honors_minusOne_iff (hstores : s.stores = []) :
    HonorsContract rs (some (-1, s)) ↔ ¬ Delivers rs := by
  constructor
  · intro h hd
    have hret := ((honors_of_delivers hd).mp h).1
    exact absurd hret (by decide)
  · exact fun h => (honors_of_not_delivers h).mpr ⟨rfl, hstores⟩

/-! ### The loops -/

theorem marks_contribute (calls : List Nat) (s : JsonState) :
    marks JsonState.contribute calls s = { s with node := s.node ++ calls } := by
  induction calls generalizing s with
  | nil => rw [marks_nil, List.append_nil]
  | cons i calls ih =>
      rw [marks_cons, ih, JsonState.contribute, List.append_assoc, List.singleton_append]

/-- With a text stored after each platform, the last has what all of them wrote. -/
theorem marks_dump (calls : List Nat) (s : JsonState) (hne : calls ≠ []) :
    (marks (fun i s => (s.contribute i).dump) calls s).stores.getLast?
      = some (s.node ++ calls) := by
  induction calls generalizing s with
  | nil => exact absurd rfl hne
  | cons i calls ih =>
      rw [marks_cons]
      cases calls with
      | nil => simp [JsonState.dump, JsonState.contribute]
      | cons j calls =>
          rw [ih _ (List.cons_ne_nil _ _)]
          simp [JsonState.dump, JsonState.contribute]

/-- The functions of a scripted table that dump are those of another one. -/
theorem column_dumping (i : Nat) (rs : List (Option Int)) :
    (column JsonState.contribute i rs).map (·.map dumping)
      = column (fun i s => (s.contribute i).dump) i rs := by
  induction rs generalizing i with
  | nil => rfl
  | cons r rs ih =>
      rw [column, List.map_cons, ih, column]
      cases r <;> rfl

/-- Whoever has the function is among the first so many. -/
theorem mem_range_of_getElem? {j : Nat} {v : Int} (h : rs[j]? = some (some v)) :
    j ∈ List.range' 0 rs.length := by
  rw [List.mem_range'_1]
  have hlt := (List.getElem?_eq_some_iff.mp h).1
  omega

/-- Where nothing fails, all that have the function are called. -/
theorem mem_upToFailure_of_all (hall : ∀ r ∈ rs, r = none ∨ r = some 0) {j : Nat} {v : Int}
    (h : rs[j]? = some (some v)) : j ∈ upToFailure 0 rs := by
  rw [← Nat.zero_add j, mem_upToFailure]
  refine ⟨⟨v, h⟩, fun k _ w hw => ?_⟩
  rcases hall _ (List.mem_of_getElem? hw) with h | h
  · cases h
  · exact Option.some.inj h

/-- Where every platform has the function, they deliver when all succeed. -/
theorem delivers_iff_of_implemented (hne : rs ≠ []) (hnull : none ∉ rs) :
    Delivers rs ↔ ∀ r ∈ rs, r = some 0 := by
  constructor
  · rintro ⟨-, hall⟩ r hr
    cases r with
    | none => exact absurd hr hnull
    | some v => rw [hall v hr]
  · intro hall
    obtain ⟨r, hr⟩ := List.exists_mem_of_ne_nil rs hne
    exact ⟨⟨0, hall r hr ▸ hr⟩, fun v hv => Option.some.inj (hall _ hv)⟩

/-- Where the text that is stored has what the platforms wrote, the contract holds
exactly when they deliver and `variorum_exit` succeeds. -/
theorem honors_stored_iff {exitRet : Int} {text : List Nat} (hlast : s.stores.getLast? = some text)
    (hmem : ∀ (j : Nat) v, rs[j]? = some (some v) → j ∈ text) :
    HonorsContract rs (if exitRet ≠ 0 then some (-1, s) else some (exitRet, s)) ↔
      Delivers rs ∧ exitRet = 0 := by
  have hstores : s.stores ≠ [] := by
    intro h
    rw [h] at hlast
    cases hlast
  by_cases hexit : exitRet ≠ 0
  · rw [if_pos hexit]
    refine iff_of_false (fun h => ?_) fun h => hexit h.2
    by_cases hd : Delivers rs
    · exact absurd ((honors_of_delivers hd).mp h).1 (by decide)
    · exact hstores ((honors_of_not_delivers hd).mp h).2
  · rw [if_neg hexit, and_iff_left (not_not.mp hexit)]
    constructor
    · intro h
      by_contra hd
      exact hstores ((honors_of_not_delivers hd).mp h).2
    · intro hd
      exact (honors_of_delivers hd).mpr ⟨not_not.mp hexit, text, hlast, hmem⟩

end Contract

/-! ### The two functions -/

section Functions

variable {b : Build} {results : PlatformKind → Feature → Option Int} {enterRet exitRet : Int}

theorem entries_table (b : Build) (results : PlatformKind → Feature → Option Int) (f : Feature)
    (args : f.Args) :
    entries (b.table results) f args = column JsonState.contribute 0 (b.column results f) := by
  rw [Build.table, entries_scriptedTable, List.map_map]
  rfl

/-- A build with a CPU platform has a platform. -/
theorem Build.column_ne_nil (h : b.hasCpu = true) (results : PlatformKind → Feature → Option Int)
    (f : Feature) : b.column results f ≠ [] := by
  have hmem : ∃ k, k ∈ b.platforms := by
    rw [Build.hasCpu, Bool.or_eq_true, Bool.or_eq_true] at h
    rcases h with (h | h) | h <;> exact ⟨_, Build.mem_platforms.mpr h⟩
  obtain ⟨k, hk⟩ := hmem
  exact List.map_eq_nil_iff.not.mpr (List.ne_nil_of_mem hk)

/-- The state before a call: nothing written to the object, nothing stored. -/
def JsonState.start : JsonState := ⟨[], []⟩

/-- **`variorum_get_power_json`, exactly.**  It honors the contract under its condition,
for every build and all results. -/
theorem power_honors_iff (b : Build) (results : PlatformKind → Feature → Option Int)
    (enterRet exitRet : Int) :
    HonorsContract (b.column results .getPowerJson)
        (callPowerJson (.returning enterRet exitRet) (b.table results) .start) ↔
      PowerHonored enterRet exitRet (b.column results .getPowerJson) := by
  have hentries : entries (b.table results) .getPowerJson () = _ :=
    entries_table b results .getPowerJson ()
  unfold callPowerJson PowerHonored Lifecycle.returning
  simp only
  by_cases henter : enterRet ≠ 0
  · rw [if_pos henter, if_pos henter]
    exact honors_minusOne_iff rfl
  · rw [if_neg henter, if_neg henter, hentries, platformLoop_skips, marks_contribute]
    generalize b.column results .getPowerJson = rs
    by_cases hall : ∀ r ∈ rs, r = none ∨ r = some 0
    · -- no platform fails: the text is stored, whoever wrote to it
      have hfail : ¬ ∃ v, some v ∈ rs ∧ v ≠ 0 := by
        rintro ⟨v, hv, hne⟩
        rcases hall _ hv with h | h
        · cases h
        · exact hne (Option.some.inj h)
      rw [if_pos hall, or_iff_right hfail]
      exact honors_stored_iff rfl (fun j v h => mem_upToFailure_of_all hall h)
    · have hfail : ∃ v, some v ∈ rs ∧ v ≠ 0 := by
        push Not at hall
        obtain ⟨r, hr, hnone, hzero⟩ := hall
        obtain ⟨v, rfl⟩ := Option.ne_none_iff_exists'.mp hnone
        exact ⟨v, hr, fun h => hzero (congrArg some h)⟩
      -- the call ends at the failure with -1, and nothing is stored
      have hnot : ¬ Delivers rs := by
        obtain ⟨v, hv, hne⟩ := hfail
        exact fun hd => hne (hd.2 v hv)
      rw [if_neg hall]
      exact iff_of_true ((honors_minusOne_iff rfl).mpr hnot) (.inl hfail)

/-- **`variorum_get_energy_json`, exactly.**  It honors the contract under its
condition, for every build and all results. -/
theorem energy_honors_iff (b : Build) (results : PlatformKind → Feature → Option Int)
    (enterRet exitRet : Int) :
    HonorsContract (b.column results .getEnergyJson)
        (callEnergyJson b (.returning enterRet exitRet) (b.table results) .start) ↔
      EnergyHonored b enterRet exitRet (b.column results .getEnergyJson) := by
  have hentries : entries (b.table results) .getEnergyJson () = _ :=
    entries_table b results .getEnergyJson ()
  unfold callEnergyJson EnergyHonored Lifecycle.returning
  simp only
  by_cases henter : enterRet ≠ 0
  · rw [if_pos henter, if_pos henter]
    exact honors_minusOne_iff rfl
  · rw [if_neg henter, if_neg henter]
    cases hcpu : b.hasCpu with
    | false =>
        -- nobody has written to the object that is handed out
        rw [if_neg Bool.false_ne_true, iff_false_right (fun h => Bool.false_ne_true h.1)]
        by_cases hd : Delivers (b.column results .getEnergyJson)
        · rw [honors_of_delivers hd]
          rintro ⟨-, text, htext, hmem⟩
          obtain rfl := Option.some.inj htext
          obtain ⟨v, hv⟩ := hd.1
          obtain ⟨j, hj⟩ := List.mem_iff_getElem?.mp hv
          exact absurd (hmem j v hj) List.not_mem_nil
        · rw [honors_of_not_delivers hd]
          exact fun h => absurd h.1 (by decide)
    | true =>
        rw [if_pos rfl, and_iff_right rfl, hentries, column_dumping, platformLoop_calls]
        have hne : b.column results .getEnergyJson ≠ [] := b.column_ne_nil hcpu results _
        generalize b.column results .getEnergyJson = rs at hne ⊢
        by_cases hnull : none ∈ rs
        · rw [if_pos hnull]
          refine iff_of_false not_honors_none fun h => ?_
          cases h.1 none hnull
        · rw [if_neg hnull]
          rw [← delivers_iff_of_implemented hne hnull]
          have hrange : List.range' 0 rs.length ≠ [] := by
            rw [Ne, List.range'_eq_nil_iff]
            exact fun h => hne (List.length_eq_zero_iff.mp h)
          exact honors_stored_iff (marks_dump _ _ hrange)
            (fun j v h => List.mem_append_right _ (mem_range_of_getElem? h))

/-- **The two JSON functions honor their contract exactly under these conditions**, on
every build, for every pattern of platform functions and of results. -/
theorem jsonContract_iff (b : Build) (results : PlatformKind → Feature → Option Int)
    (enterRet exitRet : Int) :
    (HonorsContract (b.column results .getPowerJson)
        (callPowerJson (.returning enterRet exitRet) (b.table results) .start) ↔
      PowerHonored enterRet exitRet (b.column results .getPowerJson)) ∧
    (HonorsContract (b.column results .getEnergyJson)
        (callEnergyJson b (.returning enterRet exitRet) (b.table results) .start) ↔
      EnergyHonored b enterRet exitRet (b.column results .getEnergyJson)) :=
  ⟨power_honors_iff b results enterRet exitRet, energy_honors_iff b results enterRet exitRet⟩

/-- Intel GPUs alone, which have neither function. -/
def intelGpuOnly : Build := fun k => k = .intelGpu

/-- Both functions return 0 and hand out a text to which nobody has written. -/
theorem intelGpuOnly_not_honored :
    ¬ HonorsContract (intelGpuOnly.column (fun _ _ => none) .getPowerJson)
      (callPowerJson (.returning 0 0) (intelGpuOnly.table fun _ _ => none) .start) ∧
    ¬ HonorsContract (intelGpuOnly.column (fun _ _ => none) .getEnergyJson)
      (callEnergyJson intelGpuOnly (.returning 0 0) (intelGpuOnly.table fun _ _ => none)
        .start) := by
  have hcolumn : ∀ f, intelGpuOnly.column (fun _ _ => none) f = [none] := fun f => rfl
  have hnot : ¬ Delivers [none] := by
    rintro ⟨⟨v, hv⟩, -⟩
    cases List.mem_singleton.mp hv
  have hpower : callPowerJson (.returning 0 0) (intelGpuOnly.table fun _ _ => none) .start
      = some (0, ⟨[], [[]]⟩) := rfl
  have henergy : callEnergyJson intelGpuOnly (.returning 0 0)
      (intelGpuOnly.table fun _ _ => none) .start = some (0, ⟨[], [[]]⟩) := rfl
  constructor
  · rw [hcolumn, hpower, honors_of_not_delivers hnot]
    exact fun h => absurd h.1 (by decide)
  · rw [hcolumn, henergy, honors_of_not_delivers hnot]
    exact fun h => absurd h.1 (by decide)

end Functions

end Variorum
