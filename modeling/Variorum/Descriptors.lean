/-
Variorum/Descriptors.lean

A table of file descriptors.

`openFile` takes the lowest free descriptor, as `open` does, where the file is
there and a descriptor is free; `close` gives one back, and closing no
descriptor does nothing.  Files that are opened one after the other and closed
again leave the table as it was (`closeAll_openAll`); files that are not closed
leave more of it taken (`ssubset_openAll`), and what is taken stays below the
limit (`openAll_subset_range`).

Nothing here mentions a particular program.
-/
import Mathlib.Data.Finset.Card
import Mathlib.Data.Finset.Range

namespace Descriptors

/-- The lowest descriptor below the limit that is free. -/
def lowest (limit : Nat) (fds : Finset Nat) : Option Nat := (List.range limit).find? (· ∉ fds)

/-- `open`, of a file that is there or not. -/
def openFile (limit : Nat) (there : Bool) (fds : Finset Nat) : Option Nat × Finset Nat :=
  match if there then lowest limit fds else none with
  | some fd => (some fd, insert fd fds)
  | none => (none, fds)

/-- `close`, of a descriptor or of none. -/
def close (fd : Option Nat) (fds : Finset Nat) : Finset Nat := fd.elim fds fds.erase

/-- Files opened one after the other. -/
def openAll (limit : Nat) : List Bool → Finset Nat → List (Option Nat) × Finset Nat
  | [], fds => ([], fds)
  | there :: rest, fds =>
      let first := openFile limit there fds
      let others := openAll limit rest first.2
      (first.1 :: others.1, others.2)

/-- Descriptors closed one after the other. -/
def closeAll (opened : List (Option Nat)) (fds : Finset Nat) : Finset Nat :=
  opened.foldl (fun fds fd => close fd fds) fds

variable {limit fd : Nat} {there : Bool} {theres : List Bool} {fds : Finset Nat}

theorem lowest_eq_some (h : lowest limit fds = some fd) : fd ∉ fds ∧ fd < limit := by
  have hfree := List.find?_some h
  have hmem := List.mem_of_find?_eq_some h
  exact ⟨of_decide_eq_true hfree, List.mem_range.mp hmem⟩

theorem lowest_eq_none_iff : lowest limit fds = none ↔ Finset.range limit ⊆ fds := by
  rw [lowest, List.find?_eq_none]
  simp only [List.mem_range, decide_eq_true_eq, not_not, Finset.subset_iff, Finset.mem_range]

/-! ### One file -/

/-- What `open` does to the table. -/
theorem openFile_cases (limit : Nat) (there : Bool) (fds : Finset Nat) :
    (∃ fd, openFile limit there fds = (some fd, insert fd fds) ∧ there = true ∧ fd ∉ fds ∧
      fd < limit) ∨
    (openFile limit there fds = (none, fds) ∧ (there = true → Finset.range limit ⊆ fds)) := by
  cases there with
  | false => exact .inr ⟨rfl, nofun⟩
  | true =>
      cases hlow : lowest limit fds with
      | none =>
          refine .inr ⟨?_, fun _ => lowest_eq_none_iff.mp hlow⟩
          simp only [openFile, if_true, hlow]
      | some fd =>
          obtain ⟨hfree, hlt⟩ := lowest_eq_some hlow
          refine .inl ⟨fd, ?_, rfl, hfree, hlt⟩
          simp only [openFile, if_true, hlow]

theorem close_openFile :
    close (openFile limit there fds).1 (openFile limit there fds).2 = fds := by
  rcases openFile_cases limit there fds with ⟨fd, heq, -, hfree, -⟩ | ⟨heq, -⟩
  · rw [heq]
    exact Finset.erase_insert hfree
  · rw [heq]
    rfl

theorem subset_openFile : fds ⊆ (openFile limit there fds).2 := by
  rcases openFile_cases limit there fds with ⟨fd, heq, -⟩ | ⟨heq, -⟩
  · rw [heq]
    exact Finset.subset_insert fd fds
  · rw [heq]

theorem openFile_subset_range (h : fds ⊆ Finset.range limit) :
    (openFile limit there fds).2 ⊆ Finset.range limit := by
  rcases openFile_cases limit there fds with ⟨fd, heq, -, -, hlt⟩ | ⟨heq, -⟩
  · rw [heq]
    exact Finset.insert_subset (Finset.mem_range.mpr hlt) h
  · rw [heq]
    exact h

/-- A file that is opened takes a descriptor that was free. -/
theorem ssubset_openFile (h : (openFile limit there fds).1 = some fd) :
    fds ⊂ (openFile limit there fds).2 := by
  rcases openFile_cases limit there fds with ⟨fd', heq, -, hfree, -⟩ | ⟨heq, -⟩
  · rw [heq]
    exact Finset.ssubset_insert hfree
  · rw [heq] at h
    cases h

/-- Where no descriptor is free, no file is opened. -/
theorem openFile_of_full (h : Finset.range limit ⊆ fds) :
    openFile limit there fds = (none, fds) := by
  rcases openFile_cases limit there fds with ⟨fd, -, -, hfree, hlt⟩ | ⟨heq, -⟩
  · exact absurd (h (Finset.mem_range.mpr hlt)) hfree
  · exact heq

/-! ### Several files -/

theorem close_comm (a b : Option Nat) (fds : Finset Nat) :
    close a (close b fds) = close b (close a fds) := by
  cases a with
  | none => rfl
  | some a =>
      cases b with
      | none => rfl
      | some b => exact Finset.erase_right_comm

theorem closeAll_close (opened : List (Option Nat)) (fd : Option Nat) (fds : Finset Nat) :
    closeAll opened (close fd fds) = close fd (closeAll opened fds) := by
  induction opened generalizing fds with
  | nil => rfl
  | cons a opened ih =>
      rw [closeAll, List.foldl_cons, close_comm]
      exact ih (close a fds)

/-- **Files that are opened and closed again** leave the table as it was. -/
theorem closeAll_openAll (theres : List Bool) (fds : Finset Nat) :
    closeAll (openAll limit theres fds).1 (openAll limit theres fds).2 = fds := by
  induction theres generalizing fds with
  | nil => rfl
  | cons there theres ih =>
      have hrest := ih (openFile limit there fds).2
      have hcomm := closeAll_close (openAll limit theres (openFile limit there fds).2).1
        (openFile limit there fds).1 (openAll limit theres (openFile limit there fds).2).2
      rw [hrest, close_openFile] at hcomm
      exact hcomm

theorem subset_openAll (theres : List Bool) (fds : Finset Nat) :
    fds ⊆ (openAll limit theres fds).2 := by
  induction theres generalizing fds with
  | nil => exact Finset.Subset.refl fds
  | cons there theres ih => exact subset_openFile.trans (ih _)

/-- What is taken stays below the limit. -/
theorem openAll_subset_range (theres : List Bool) (h : fds ⊆ Finset.range limit) :
    (openAll limit theres fds).2 ⊆ Finset.range limit := by
  induction theres generalizing fds with
  | nil => exact h
  | cons there theres ih => exact ih (openFile_subset_range h)

/-- **A file that is opened** and not closed leaves more of the table taken. -/
theorem ssubset_openAll (h : some fd ∈ (openAll limit theres fds).1) :
    fds ⊂ (openAll limit theres fds).2 := by
  induction theres generalizing fds with
  | nil => cases h
  | cons there theres ih =>
      rcases List.mem_cons.mp h with h | h
      · exact (ssubset_openFile h.symm).trans_subset (subset_openAll theres _)
      · exact subset_openFile.trans_ssubset (ih h)

/-- Where no descriptor is free, no file is opened. -/
theorem openAll_of_full (theres : List Bool) (h : Finset.range limit ⊆ fds) :
    openAll limit theres fds = (theres.map fun _ => none, fds) := by
  induction theres with
  | nil => rfl
  | cons there theres ih => rw [openAll, openFile_of_full h, ih]; rfl

end Descriptors
