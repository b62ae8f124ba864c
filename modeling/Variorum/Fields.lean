/-
Variorum/Fields.lean

Objects as lists of fields in the order of their insertion.

`set` replaces the value of a key where it stands and appends a new key at the
end; `modify` changes the value of a key in place.  The rules below say what
`get` finds after either (`get_set_self`, `get_set_of_ne`, `get_modify`), and
after a list of `set`s (`get_setAll`); `setAll_nil` says that an object built
from keys that differ has exactly the fields it was built from.

Nothing here mentions a particular kind of key or value.
-/
import Mathlib.Data.List.Basic
import Mathlib.Data.List.Induction
import Mathlib.Data.List.Nodup

namespace Fields

variable {K V : Type*} [DecidableEq K]

/-- The value of a key. -/
def get (k : K) : List (K × V) → Option V
  | [] => none
  | (k', v) :: l => if k' = k then some v else get k l

/-- The object with a value set. -/
def set (k : K) (v : V) : List (K × V) → List (K × V)
  | [] => [(k, v)]
  | (k', v') :: l => if k' = k then (k', v) :: l else (k', v') :: set k v l

/-- The object with the value of a key changed, where it has one. -/
def modify (k : K) (f : V → V) : List (K × V) → List (K × V)
  | [] => []
  | (k', v) :: l => if k' = k then (k', f v) :: l else (k', v) :: modify k f l

/-- The object with a list of values set, one after the other. -/
def setAll (l : List (K × V)) (kvs : List (K × V)) : List (K × V) :=
  kvs.foldl (fun l kv => set kv.1 kv.2 l) l

variable {k k' : K} {v v' : V} {f : V → V} {l kvs : List (K × V)}

@[simp] theorem get_set_self : get k (set k v l) = some v := by
  induction l with
  | nil => simp [set, get]
  | cons kv l ih =>
      by_cases h : kv.1 = k
      · simp [set, get, h]
      · simp [set, get, h, ih]

theorem get_set_of_ne (h : k' ≠ k) : get k (set k' v l) = get k l := by
  induction l with
  | nil => simp [set, get, h]
  | cons kv l ih =>
      by_cases hk : kv.1 = k'
      · have hne : kv.1 ≠ k := fun e => h (hk.symm.trans e)
        simp only [set, if_pos hk, get, if_neg hne]
      · simp only [set, if_neg hk, get, ih]

theorem get_modify_self : get k (modify k f l) = (get k l).map f := by
  induction l with
  | nil => rfl
  | cons kv l ih =>
      by_cases h : kv.1 = k
      · simp [modify, get, h]
      · simp only [modify, if_neg h, get, ih]

theorem get_modify_of_ne (h : k' ≠ k) : get k (modify k' f l) = get k l := by
  induction l with
  | nil => rfl
  | cons kv l ih =>
      by_cases hk : kv.1 = k'
      · have hne : kv.1 ≠ k := fun e => h (hk.symm.trans e)
        simp only [modify, if_pos hk, get, if_neg hne]
      · simp only [modify, if_neg hk, get, ih]

/-- A value that is changed as soon as it is set is set to the changed one. -/
@[simp] theorem modify_set_self : modify k f (set k v l) = set k (f v) l := by
  induction l with
  | nil => simp [set, modify]
  | cons kv l ih =>
      by_cases h : kv.1 = k
      · simp [set, modify, h]
      · simp [set, modify, h, ih]

/-- A key that is not there is appended. -/
theorem set_of_get_none (h : get k l = none) : set k v l = l ++ [(k, v)] := by
  induction l with
  | nil => rfl
  | cons kv l ih =>
      by_cases hk : kv.1 = k
      · simp only [get, if_pos hk] at h
        cases h
      · simp only [get, if_neg hk] at h
        simp only [set, if_neg hk, ih h, List.cons_append]

theorem get_eq_none_iff : get k l = none ↔ k ∉ l.map Prod.fst := by
  induction l with
  | nil => exact iff_of_true rfl List.not_mem_nil
  | cons kv l ih =>
      rw [List.map_cons, List.mem_cons, not_or, ← ih, get]
      by_cases hk : kv.1 = k
      · rw [if_pos hk]
        exact iff_of_false (Option.some_ne_none _) fun h => h.1 hk.symm
      · rw [if_neg hk]
        exact (and_iff_right fun e => hk e.symm).symm

/-- A value that is found is a field. -/
theorem mem_of_get (h : get k l = some v) : (k, v) ∈ l := by
  induction l with
  | nil => cases h
  | cons kv l ih =>
      by_cases hk : kv.1 = k
      · simp only [get, if_pos hk] at h
        rw [← hk, ← Option.some.inj h]
        exact List.mem_cons_self
      · simp only [get, if_neg hk] at h
        exact List.mem_cons_of_mem kv (ih h)

/-! ### Lists of settings -/

theorem setAll_append (l : List (K × V)) (kvs kvs' : List (K × V)) :
    setAll l (kvs ++ kvs') = setAll (setAll l kvs) kvs' :=
  List.foldl_append

/-- A key that none of them sets keeps its value. -/
theorem get_setAll_of_not_mem (h : k ∉ kvs.map Prod.fst) : get k (setAll l kvs) = get k l := by
  induction kvs generalizing l with
  | nil => rfl
  | cons kv kvs ih =>
      rw [List.map_cons, List.mem_cons, not_or] at h
      show get k (setAll (set kv.1 kv.2 l) kvs) = _
      rw [ih h.2, get_set_of_ne fun e => h.1 e.symm]

/-- **A key has the value it is set to, where all settings of it agree.** -/
theorem get_setAll (hmem : k ∈ kvs.map Prod.fst) (hvalue : ∀ kv ∈ kvs, kv.1 = k → kv.2 = v) :
    get k (setAll l kvs) = some v := by
  induction kvs generalizing l with
  | nil => cases hmem
  | cons kv kvs ih =>
      show get k (setAll (set kv.1 kv.2 l) kvs) = _
      by_cases hlater : k ∈ kvs.map Prod.fst
      · exact ih hlater fun kv' h => hvalue kv' (List.mem_cons_of_mem kv h)
      · have hk : kv.1 = k := by
          rcases List.mem_cons.mp hmem with h | h
          · exact h.symm
          · exact absurd h hlater
        rw [get_setAll_of_not_mem hlater, hvalue kv List.mem_cons_self hk, hk, get_set_self]

/-- What a key has is what it had or what it was set to. -/
theorem get_setAll_cases (k : K) (l kvs : List (K × V)) : get k (setAll l kvs) = get k l ∨
    ∃ kv ∈ kvs, kv.1 = k ∧ get k (setAll l kvs) = some kv.2 := by
  induction kvs generalizing l with
  | nil => exact .inl rfl
  | cons kv kvs ih =>
      rcases ih (set kv.1 kv.2 l) with h | ⟨kv', hkv', hk, h⟩
      · by_cases hk : kv.1 = k
        · subst hk
          exact .inr ⟨kv, List.mem_cons_self, rfl, h.trans get_set_self⟩
        · exact .inl (h.trans (get_set_of_ne hk))
      · exact .inr ⟨kv', List.mem_cons_of_mem kv hkv', hk, h⟩

/-- The fields of an object are what it had and what was set. -/
theorem mem_set {kv : K × V} (h : kv ∈ set k v l) : kv = (k, v) ∨ kv ∈ l := by
  induction l with
  | nil => exact .inl (List.mem_singleton.mp h)
  | cons kv' l ih =>
      by_cases hk : kv'.1 = k
      · simp only [set, if_pos hk] at h
        rw [hk] at h
        exact (List.mem_cons.mp h).imp_right (List.mem_cons_of_mem kv')
      · simp only [set, if_neg hk] at h
        rcases List.mem_cons.mp h with h | h
        · exact .inr (h ▸ List.mem_cons_self)
        · exact (ih h).imp_right (List.mem_cons_of_mem kv')

theorem mem_setAll {kv : K × V} (h : kv ∈ setAll l kvs) : kv ∈ l ∨ kv ∈ kvs := by
  induction kvs generalizing l with
  | nil => exact .inl h
  | cons kv' kvs ih =>
      rcases ih h with h | h
      · rcases mem_set h with h | h
        · exact .inr (h ▸ List.mem_cons_self)
        · exact .inl h
      · exact .inr (List.mem_cons_of_mem kv' h)

/-- What none of the settings is about stays in front. -/
theorem set_append_left {l' : List (K × V)} (h : k ∉ l.map Prod.fst) :
    set k v (l ++ l') = l ++ set k v l' := by
  induction l with
  | nil => rfl
  | cons kv l ih =>
      rw [List.map_cons, List.mem_cons, not_or] at h
      have hk : kv.1 ≠ k := fun e => h.1 e.symm
      simp only [List.cons_append, set, if_neg hk, ih h.2]

/-- **New keys that differ are appended.** -/
theorem setAll_of_new (hnodup : (kvs.map Prod.fst).Nodup)
    (hnew : ∀ k ∈ kvs.map Prod.fst, k ∉ l.map Prod.fst) : setAll l kvs = l ++ kvs := by
  induction kvs using List.reverseRecOn with
  | nil => exact (List.append_nil l).symm
  | append_singleton kvs kv ih =>
      rw [List.map_append, List.nodup_append] at hnodup
      obtain ⟨hkvs, -, hdisj⟩ := hnodup
      have hnone : get kv.1 (l ++ kvs) = none := by
        rw [get_eq_none_iff, List.map_append, List.mem_append, not_or]
        refine ⟨hnew kv.1 ?_, fun hmem => hdisj _ hmem _ (List.mem_singleton_self _) rfl⟩
        exact List.mem_map_of_mem (List.mem_append_right _ (List.mem_singleton_self _))
      rw [setAll_append, ih hkvs fun k hk => hnew k ?_]
      · exact (set_of_get_none hnone).trans (List.append_assoc l kvs [kv])
      · rw [List.map_append]
        exact List.mem_append_left _ hk

/-- **An object built from keys that differ has the fields it was built from.** -/
theorem setAll_nil (hnodup : (kvs.map Prod.fst).Nodup) : setAll [] kvs = kvs :=
  setAll_of_new hnodup fun _ _ => List.not_mem_nil

/-- A setting replaces a field or adds one. -/
theorem length_set_le : (set k v l).length ≤ l.length + 1 := by
  induction l with
  | nil => exact Nat.le_refl _
  | cons kv l ih =>
      by_cases hk : kv.1 = k
      · simp only [set, if_pos hk, List.length_cons]
        omega
      · simp only [set, if_neg hk, List.length_cons]
        omega

/-- It adds none where the key has one. -/
theorem length_set_of_get (h : get k l ≠ none) : (set k v l).length = l.length := by
  induction l with
  | nil => exact absurd rfl h
  | cons kv l ih =>
      by_cases hk : kv.1 = k
      · simp only [set, if_pos hk, List.length_cons]
      · simp only [get, if_neg hk] at h
        simp only [set, if_neg hk, List.length_cons, ih h]

theorem length_setAll_le (l kvs : List (K × V)) :
    (setAll l kvs).length ≤ l.length + kvs.length := by
  induction kvs using List.reverseRecOn with
  | nil => exact Nat.le_refl _
  | append_singleton kvs kv ih =>
      rw [setAll_append, List.length_append]
      exact Nat.le_trans length_set_le (Nat.succ_le_succ ih)

/-- **An object has a field more for each setting only if their keys are new and differ.** -/
theorem new_of_length_setAll (h : (setAll l kvs).length = l.length + kvs.length) :
    (kvs.map Prod.fst).Nodup ∧ ∀ k ∈ kvs.map Prod.fst, k ∉ l.map Prod.fst := by
  induction kvs using List.reverseRecOn with
  | nil => exact ⟨List.nodup_nil, nofun⟩
  | append_singleton kvs kv ih =>
      have hset : setAll l (kvs ++ [kv]) = set kv.1 kv.2 (setAll l kvs) := setAll_append _ _ _
      rw [hset, List.length_append, List.length_singleton] at h
      have hle := length_setAll_le l kvs
      have hnone : get kv.1 (setAll l kvs) = none := by
        by_contra hsome
        rw [length_set_of_get hsome] at h
        omega
      have hlen : (setAll l kvs).length = l.length + kvs.length := by
        have hgrow := @length_set_le K V _ kv.1 kv.2 (setAll l kvs)
        omega
      obtain ⟨hnodup, hnew⟩ := ih hlen
      rw [setAll_of_new hnodup hnew, get_eq_none_iff, List.map_append, List.mem_append,
        not_or] at hnone
      rw [List.map_append, List.map_singleton]
      refine ⟨hnodup.append (List.nodup_singleton _) (List.disjoint_singleton.mpr hnone.2), ?_⟩
      intro k hk
      rcases List.mem_append.mp hk with hk | hk
      · exact hnew k hk
      · rw [List.mem_singleton.mp hk]
        exact hnone.1

/-! ### Changes in place -/

/-- A key that is there splits the object. -/
theorem exists_split_of_get (h : get k l = some v) :
    ∃ before after, l = before ++ (k, v) :: after ∧ k ∉ before.map Prod.fst := by
  induction l with
  | nil => cases h
  | cons kv l ih =>
      by_cases hk : kv.1 = k
      · simp only [get, if_pos hk] at h
        refine ⟨[], l, ?_, List.not_mem_nil⟩
        rw [← hk, ← Option.some.inj h]
        rfl
      · simp only [get, if_neg hk] at h
        obtain ⟨before, after, rfl, hbefore⟩ := ih h
        refine ⟨kv :: before, after, rfl, ?_⟩
        rw [List.map_cons, List.mem_cons, not_or]
        exact ⟨fun e => hk e.symm, hbefore⟩

theorem modify_split {before after : List (K × V)} (h : k ∉ before.map Prod.fst) :
    modify k f (before ++ (k, v) :: after) = before ++ (k, f v) :: after := by
  induction before with
  | nil => exact if_pos rfl
  | cons kv before ih =>
      rw [List.map_cons, List.mem_cons, not_or] at h
      have hk : kv.1 ≠ k := fun e => h.1 e.symm
      simp only [List.cons_append, modify, if_neg hk, ih h.2]

theorem set_split {before after : List (K × V)} (h : k ∉ before.map Prod.fst) :
    set k v' (before ++ (k, v) :: after) = before ++ (k, v') :: after := by
  rw [set_append_left h]
  exact congrArg (before ++ ·) (if_pos rfl)

/-- A value that is there is changed by setting it. -/
theorem modify_of_get (h : get k l = some v) : modify k f l = set k (f v) l := by
  obtain ⟨before, after, rfl, hbefore⟩ := exists_split_of_get h
  rw [modify_split hbefore, set_split hbefore]

/-- Keys that differ go on differing. -/
theorem nodup_set (h : (l.map Prod.fst).Nodup) : ((set k v l).map Prod.fst).Nodup := by
  cases hget : get k l with
  | none =>
      rw [set_of_get_none hget, List.map_append, List.map_singleton]
      exact h.append (List.nodup_singleton k)
        (List.disjoint_singleton.mpr (get_eq_none_iff.mp hget))
  | some v' =>
      obtain ⟨before, after, rfl, hbefore⟩ := exists_split_of_get hget
      rw [set_split hbefore]
      simpa only [List.map_append, List.map_cons] using h

end Fields
