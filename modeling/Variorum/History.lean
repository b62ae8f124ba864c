/-
Variorum/History.lean

Histories with refusals, over any alphabet of entries.

A system that only ever appends to its history, next to an oracle that refuses
some entries by their position, has had a clean run when none of the entries it
added was refused (`Clean`).  Cleanness is compositional: a run through an
intermediate history is clean exactly when both halves are
(`clean_trans_iff`), so a loop is clean exactly when every iteration is.

`survivors` are the entries that the oracle lets through, and `lastFor` is the
last of a sequence of entries under a key, the one that has the last word when
the entries are stores.  Which entry that is among the survivors is a question
about positions (`lastFor_survivors_iff`).
-/
import Mathlib.Data.List.Induction
import Mathlib.Logic.Function.Basic

namespace History

section Refusals

variable {α : Type*} (refuses : Nat → α → Bool)

/-- None of the entries is refused when the first stands at position `n`. -/
def Accepted : Nat → List α → Prop
  | _, [] => True
  | n, a :: as => refuses n a = false ∧ Accepted (n + 1) as

/-- The history has grown from `l` to `l'` without a refusal. -/
def Clean (l l' : List α) : Prop :=
  ∃ added, l' = l ++ added ∧ Accepted refuses l.length added

variable {refuses} {l l' l'' : List α}

@[simp] theorem accepted_nil (n : Nat) : Accepted refuses n [] := trivial

@[simp] theorem accepted_cons (n : Nat) (a : α) (as : List α) :
    Accepted refuses n (a :: as) ↔ refuses n a = false ∧ Accepted refuses (n + 1) as := Iff.rfl

theorem accepted_append (n : Nat) (as bs : List α) :
    Accepted refuses n (as ++ bs) ↔
      Accepted refuses n as ∧ Accepted refuses (n + as.length) bs := by
  induction as generalizing n with
  | nil => simp
  | cons a as ih =>
      rw [List.cons_append, accepted_cons, accepted_cons, ih, List.length_cons, and_assoc,
        Nat.add_assoc, Nat.add_comm 1 as.length]

theorem accepted_getElem {n k : Nat} {as : List α} {a : α} (h : Accepted refuses n as)
    (ha : as[k]? = some a) : refuses (n + k) a = false := by
  induction as generalizing n k with
  | nil => cases ha
  | cons b as ih =>
      obtain ⟨hb, has⟩ := h
      cases k with
      | zero =>
          obtain rfl := Option.some.inj ha
          exact hb
      | succ k =>
          rw [← Nat.succ_add_eq_add_succ]
          exact ih has ha

/-- An oracle that lets everything through. -/
theorem accepted_of_never (h : ∀ n a, refuses n a = false) (n : Nat) (as : List α) :
    Accepted refuses n as := by
  induction as generalizing n with
  | nil => trivial
  | cons a as ih => exact ⟨h n a, ih (n + 1)⟩

theorem accepted_map {β : Type*} (f : β → α) (n : Nat) (bs : List β) :
    Accepted refuses n (bs.map f) ↔ Accepted (fun k b => refuses k (f b)) n bs := by
  induction bs generalizing n with
  | nil => exact Iff.rfl
  | cons b bs ih =>
      rw [List.map_cons, accepted_cons, accepted_cons, ih]

/-- What a run added decides whether it was clean. -/
theorem clean_append_iff (added : List α) :
    Clean refuses l (l ++ added) ↔ Accepted refuses l.length added := by
  constructor
  · rintro ⟨added', happ, hacc⟩
    rwa [List.append_cancel_left happ]
  · exact fun hacc => ⟨added, rfl, hacc⟩

theorem clean_of_never (h : ∀ n a, refuses n a = false) (hgrow : l <+: l') :
    Clean refuses l l' := by
  obtain ⟨added, rfl⟩ := hgrow
  exact ⟨added, rfl, accepted_of_never h _ _⟩

theorem clean_refl : Clean refuses l l := ⟨[], (List.append_nil l).symm, trivial⟩

/-- **Cleanness is compositional.**  Nothing was refused over a stretch just when
nothing was refused over its two parts. -/
theorem clean_trans_iff (h : l <+: l') (h' : l' <+: l'') :
    Clean refuses l l'' ↔ Clean refuses l l' ∧ Clean refuses l' l'' := by
  obtain ⟨first, rfl⟩ := h
  obtain ⟨second, rfl⟩ := h'
  rw [clean_append_iff, clean_append_iff, List.append_assoc, clean_append_iff, accepted_append,
    List.length_append]

/-- A run that adds `first` and goes on from there needs `first` let through,
and what the rest of it needs. -/
theorem clean_step_iff {first rest : List α} (h : l ++ first <+: l'')
    (hrest : Clean refuses (l ++ first) l'' ↔ Accepted refuses (l ++ first).length rest) :
    Clean refuses l l'' ↔ Accepted refuses l.length (first ++ rest) := by
  rw [clean_trans_iff (List.prefix_append l first) h, clean_append_iff, hrest, accepted_append,
    List.length_append]

/-- A history that is unchanged in the end was unchanged throughout. -/
theorem eq_trans_iff (h : l <+: l') (h' : l' <+: l'') : l'' = l ↔ l' = l ∧ l'' = l' := by
  constructor
  · intro heq
    have hback : l' <+: l := heq ▸ h'
    have hmid := hback.eq_of_length_le h.length_le
    exact ⟨hmid, heq.trans hmid.symm⟩
  · exact fun heq => heq.2.trans heq.1

/-- The entries that are let through when the first stands at position `n`. -/
def survivors (refuses : Nat → α → Bool) : Nat → List α → List α
  | _, [] => []
  | n, a :: as =>
      if refuses n a then survivors refuses (n + 1) as else a :: survivors refuses (n + 1) as

theorem survivors_append (n : Nat) (as bs : List α) :
    survivors refuses n (as ++ bs)
      = survivors refuses n as ++ survivors refuses (n + as.length) bs := by
  induction as generalizing n with
  | nil => rfl
  | cons a as ih =>
      rw [List.cons_append, survivors, survivors, ih, List.length_cons, Nat.add_assoc,
        Nat.add_comm 1 as.length]
      split <;> rfl

/-- With nothing refused every entry survives. -/
theorem survivors_of_accepted {n : Nat} {as : List α} (h : Accepted refuses n as) :
    survivors refuses n as = as := by
  induction as generalizing n with
  | nil => rfl
  | cons a as ih =>
      obtain ⟨ha, has⟩ := h
      rw [survivors, ha, if_neg Bool.false_ne_true, ih has]

theorem survivors_subset (n : Nat) (as : List α) : survivors refuses n as ⊆ as := by
  induction as generalizing n with
  | nil => exact fun _ h => h
  | cons a as ih =>
      rw [survivors]
      split
      · exact fun b hb => List.mem_cons_of_mem a (ih (n + 1) hb)
      · exact List.cons_subset_cons a (ih (n + 1))

end Refusals

section Stores

variable {ι κ : Type*} [DecidableEq κ]

/-- The last entry with key `k`. -/
def lastFor (key : ι → κ) (k : κ) (entries : List ι) : Option ι :=
  entries.reverse.find? fun i => key i = k

variable {key : ι → κ} {k : κ}

@[simp] theorem lastFor_nil : lastFor key k [] = none := rfl

/-- The last entry takes precedence over those before it. -/
theorem lastFor_concat (entries : List ι) (i : ι) :
    lastFor key k (entries ++ [i]) = if key i = k then some i else lastFor key k entries := by
  unfold lastFor
  rw [List.reverse_concat, List.find?_cons]
  by_cases hi : key i = k <;> simp [hi]

/-- An entry only counts when none of those after it has its key. -/
theorem lastFor_append (before after : List ι) :
    lastFor key k (before ++ after) = (lastFor key k after).or (lastFor key k before) := by
  unfold lastFor
  rw [List.reverse_append, List.find?_append]

theorem lastFor_singleton (i : ι) :
    lastFor key k [i] = if key i = k then some i else none := by
  rw [← List.nil_append [i], lastFor_concat, lastFor_nil]

theorem lastFor_isSome {entries : List ι} {i : ι} (hi : i ∈ entries) :
    (lastFor key (key i) entries).isSome := by
  rw [lastFor, List.find?_isSome]
  exact ⟨i, List.mem_reverse.mpr hi, by simp⟩

/-- Where keys differ, the last entry with the key of `i` is `i`. -/
theorem lastFor_of_injOn {entries : List ι} {i : ι} (hi : i ∈ entries)
    (hinj : ∀ j ∈ entries, key j = key i → j = i) : lastFor key (key i) entries = some i := by
  have hsome : (lastFor key (key i) entries).isSome := lastFor_isSome hi
  obtain ⟨j, hj⟩ := Option.isSome_iff_exists.mp hsome
  have hkey : key j = key i := by simpa using List.find?_some hj
  have hmem : j ∈ entries := List.mem_reverse.mp (List.mem_of_find?_eq_some hj)
  rw [hj, hinj j hmem hkey]

/-- The last entry under a key is one of them. -/
theorem mem_of_lastFor {entries : List ι} {i : ι} (h : lastFor key k entries = some i) :
    i ∈ entries ∧ key i = k := by
  refine ⟨List.mem_reverse.mp (List.mem_of_find?_eq_some h), ?_⟩
  simpa using List.find?_some h

/-- No entry counts exactly when none has the key. -/
theorem lastFor_eq_none_iff {entries : List ι} :
    lastFor key k entries = none ↔ ∀ i ∈ entries, key i ≠ k := by
  simp [lastFor]

/-- Where the entries under a key have one value, the last of them has it. -/
theorem lastFor_map_of_agree {β : Type*} {value : ι → β} {entries : List ι} {i : ι}
    (hi : i ∈ entries) (h : ∀ j ∈ entries, key j = key i → value j = value i) :
    (lastFor key (key i) entries).map value = some (value i) := by
  have hsome : (lastFor key (key i) entries).isSome := lastFor_isSome hi
  obtain ⟨j, hj⟩ := Option.isSome_iff_exists.mp hsome
  obtain ⟨hmem, hkey⟩ := mem_of_lastFor hj
  rw [hj, Option.map_some, h j hmem hkey]

/-- Then the order of the entries does not matter. -/
theorem lastFor_map_perm {β : Type*} {value : ι → β} {entries entries' : List ι}
    (hperm : entries.Perm entries')
    (h : ∀ i ∈ entries, ∀ j ∈ entries, key j = key i → value j = value i) (k : κ) :
    (lastFor key k entries).map value = (lastFor key k entries').map value := by
  by_cases hk : ∃ i ∈ entries, key i = k
  · obtain ⟨i, hi, rfl⟩ := hk
    rw [lastFor_map_of_agree hi (h i hi),
      lastFor_map_of_agree (hperm.mem_iff.mp hi) fun j hj => h i hi j (hperm.mem_iff.mpr hj)]
  · have hnone : ∀ l : List ι, l.Perm entries → lastFor key k l = none := fun l hl =>
      lastFor_eq_none_iff.mpr fun i hi hkey => hk ⟨i, hl.mem_iff.mp hi, hkey⟩
    rw [hnone entries (List.Perm.refl _), hnone entries' hperm.symm]

end Stores

section LastThrough

variable {ι κ : Type*}

/-- The entry at position `j` is `i`; it is let through, and no entry after it under its
key is. -/
structure LastThrough (refuses : Nat → ι → Bool) (key : ι → κ) (n : Nat) (entries : List ι)
    (j : Nat) (i : ι) : Prop where
  entry : entries[j]? = some i
  through : refuses (n + j) i = false
  later : ∀ j' > j, ∀ i', entries[j']? = some i' → key i' = key i → refuses (n + j') i' = true

variable {refuses : Nat → ι → Bool} {key : ι → κ} {k : κ} {n j : Nat} {entries : List ι}
variable {a i : ι}

/-- An entry that is refused, or has another key, changes nothing about those before it. -/
theorem lastThrough_concat_iff
    (ha : refuses (n + entries.length) a = true ∨ key a ≠ key i) :
    LastThrough refuses key n (entries ++ [a]) j i ↔ LastThrough refuses key n entries j i := by
  constructor
  · rintro ⟨hentry, hthrough, hlater⟩
    -- the new entry is refused or has another key, so the last one is an older one
    have hlt : j < entries.length := by
      by_contra hge
      have hj : j = entries.length := by
        have hbound := (List.getElem?_eq_some_iff.mp hentry).1
        rw [List.length_append, List.length_singleton] at hbound
        omega
      subst hj
      obtain rfl := Option.some.inj (List.getElem?_concat_length.symm.trans hentry)
      rcases ha with hrefused | hkey
      · exact Bool.false_ne_true (hthrough.symm.trans hrefused)
      · exact hkey rfl
    refine ⟨by rwa [List.getElem?_append_left hlt] at hentry, hthrough, fun j' hj' i' hi' => ?_⟩
    have hlt' : j' < entries.length := (List.getElem?_eq_some_iff.mp hi').1
    exact hlater j' hj' i' (by rwa [List.getElem?_append_left hlt'])
  · rintro ⟨hentry, hthrough, hlater⟩
    have hlt : j < entries.length := (List.getElem?_eq_some_iff.mp hentry).1
    refine ⟨by rwa [List.getElem?_append_left hlt], hthrough, fun j' hj' i' hi' hkey => ?_⟩
    rcases Nat.lt_or_ge j' entries.length with hlt' | hge
    · rw [List.getElem?_append_left hlt'] at hi'
      exact hlater j' hj' i' hi' hkey
    · have hj' : j' = entries.length := by
        have hbound := (List.getElem?_eq_some_iff.mp hi').1
        rw [List.length_append, List.length_singleton] at hbound
        omega
      subst hj'
      obtain rfl := Option.some.inj (List.getElem?_concat_length.symm.trans hi')
      exact ha.resolve_right (not_not_intro hkey)

/-- **Which entry has the last word** among those that are let through. -/
theorem lastFor_survivors_iff [DecidableEq κ] :
    lastFor key k (survivors refuses n entries) = some i ↔
      key i = k ∧ ∃ j, LastThrough refuses key n entries j i := by
  induction entries using List.reverseRecOn with
  | nil =>
      refine iff_of_false (by rintro ⟨⟩) ?_
      rintro ⟨-, j, hentry, -, -⟩
      cases hentry
  | append_singleton entries a ih =>
      rw [survivors_append, survivors, survivors]
      by_cases hrefused : refuses (n + entries.length) a = true
      · rw [if_pos hrefused, List.append_nil, ih]
        simp only [lastThrough_concat_iff (.inl hrefused)]
      · rw [if_neg hrefused, lastFor_concat]
        by_cases hkey : key a = k
        · rw [if_pos hkey]
          constructor
          · intro heq
            obtain rfl := Option.some.inj heq
            refine ⟨hkey, entries.length, List.getElem?_concat_length,
              Bool.eq_false_iff.mpr hrefused, fun j' hj' i' hi' => ?_⟩
            have hbound := (List.getElem?_eq_some_iff.mp hi').1
            rw [List.length_append, List.length_singleton] at hbound
            omega
          · rintro ⟨hi, j, hentry, -, hlater⟩
            -- an entry before the new one would be overruled by it
            have hbound := (List.getElem?_eq_some_iff.mp hentry).1
            rw [List.length_append, List.length_singleton] at hbound
            rcases Nat.lt_or_ge j entries.length with hlt | hge
            · exact absurd (hlater _ hlt a List.getElem?_concat_length (hkey.trans hi.symm))
                hrefused
            · obtain rfl : j = entries.length := by omega
              exact List.getElem?_concat_length.symm.trans hentry
        · rw [if_neg hkey, ih]
          apply and_congr_right
          intro hi
          simp only [lastThrough_concat_iff (.inr (hi ▸ hkey))]

end LastThrough
end History
