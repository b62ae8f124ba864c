/-
Variorum/Table.lean

Tables that a program prints line by line.

A line is its fields with blanks between them and a newline behind them, and
`read` takes a text apart again.  Fields without blanks and newlines come back
as they were (`read_line_append`, `read_lines`); a line that lacks its newline
is glued to the next (`intercalate_append_line`).

A printer has the names of its columns and two forms of a row, a terse one
below the names and a long one that needs none.  It prints the names once,
from `printRow`, where the first terse row comes up: `printRows_eq` says what
rows of both forms, in any order, make of the text, and `printRows_isSome_iff`
when there is one.

Nothing here mentions a particular program.
-/
import Mathlib.Data.List.Basic
import Variorum.Loop

namespace Table

/-! ### Lines -/

/-- Fields with blanks between them. -/
def blanks (fields : List (List Char)) : List Char := [' '].intercalate fields

/-- A line of fields, with blanks between them and a newline at the end. -/
def line (fields : List (List Char)) : List Char := blanks fields ++ ['\n']

/-- The fields of a line as a reader gets them. -/
def fieldsOf (text : List Char) : List (List Char) := text.splitOn ' '

/-- The lines of a text, each with its fields; what is behind the last newline is no line. -/
def read (text : List Char) : List (List (List Char)) := (text.splitOn '\n').dropLast.map fieldsOf

/-- Neither a blank nor a newline. -/
def IsWord (field : List Char) : Prop := ∀ c ∈ field, c ≠ ' ' ∧ c ≠ '\n'

/-- Fields that come back from their line: there is one, and none has a blank or a
newline in it. -/
def IsRow (fields : List (List Char)) : Prop := fields ≠ [] ∧ ∀ field ∈ fields, IsWord field

instance (field : List Char) : Decidable (IsWord field) :=
  List.decidableBAll (fun c => c ≠ ' ' ∧ c ≠ '\n') field

instance (fields : List (List Char)) : Decidable (IsRow fields) :=
  inferInstanceAs (Decidable (_ ∧ _))

variable {fields fields' : List (List Char)} {text : List Char}

theorem IsWord.append {a b : List Char} (ha : IsWord a) (hb : IsWord b) : IsWord (a ++ b) := by
  intro c hc
  rcases List.mem_append.mp hc with hc | hc
  · exact ha c hc
  · exact hb c hc

theorem not_mem_blanks (h : ∀ field ∈ fields, IsWord field) : '\n' ∉ blanks fields := by
  induction fields with
  | nil => nofun
  | cons a fields ih =>
      obtain ⟨ha, hfields⟩ := List.forall_mem_cons.mp h
      have hmem : '\n' ∉ a := fun hc => (ha _ hc).2 rfl
      cases fields with
      | nil => simpa [blanks] using hmem
      | cons b fields =>
          have ih := ih hfields
          simp only [blanks, List.intercalate_cons_cons, List.mem_append, not_or] at ih ⊢
          exact ⟨⟨hmem, by decide⟩, ih⟩

theorem fieldsOf_blanks (h : IsRow fields) : fieldsOf (blanks fields) = fields :=
  List.splitOn_intercalate ' ' (fun field hfield hc => (h.2 field hfield _ hc).1 rfl) h.1

/-- A line at the start of a text is the first that is read. -/
theorem read_line_append (h : IsRow fields) : read (line fields ++ text) = fields :: read text := by
  rw [read, line, List.append_assoc, List.singleton_append,
    List.splitOn_append_cons_self_of_not_mem (not_mem_blanks h.2),
    List.dropLast_cons_of_ne_nil (List.splitOn_ne_nil _ _), List.map_cons, fieldsOf_blanks h]
  rfl

@[simp] theorem read_nil : read [] = [] := rfl

/-- **Rows come back** as they were printed. -/
theorem read_lines {rows : List (List (List Char))} (h : ∀ row ∈ rows, IsRow row) :
    read (rows.map line).flatten = rows := by
  induction rows with
  | nil => rfl
  | cons row rows ih =>
      obtain ⟨hrow, hrows⟩ := List.forall_mem_cons.mp h
      rw [List.map_cons, List.flatten_cons, read_line_append hrow, ih hrows]

/-- **A line without its newline** ends in the first field of the next. -/
theorem blanks_append_line (before : List (List Char)) (a b : List Char)
    (after : List (List Char)) :
    blanks (before ++ [a]) ++ line (b :: after) = line (before ++ (a ++ b) :: after) := by
  induction before with
  | nil =>
      cases after with
      | nil => simp [blanks, line]
      | cons c after => simp [blanks, line, List.intercalate_cons_cons]
  | cons x before ih =>
      have hcons : ∀ l : List (List Char), l ≠ [] → blanks (x :: l) = x ++ ' ' :: blanks l := by
        intro l hl
        obtain ⟨y, l, rfl⟩ := List.exists_cons_of_ne_nil hl
        simp [blanks, List.intercalate_cons_cons]
      rw [List.cons_append, hcons _ (by simp), List.append_assoc, List.cons_append, ih,
        List.cons_append, line, line, hcons _ (by simp), List.append_assoc, List.cons_append]

/-! ### The names of the columns -/

/-- The names of the columns, what is printed behind them, and the two forms of a row; a long
form may be one that has no defined behaviour. -/
structure Printer (ρ : Type) where
  columns : List (List Char)
  columnsEnd : List Char
  terse : ρ → List (List Char)
  long : ρ → Option (List Char)

namespace Printer

variable {ρ : Type} (p : Printer ρ)

/-- The text of the names. -/
def head : List Char := blanks p.columns ++ p.columnsEnd

/-- A row is printed, the long form if `verbose`; the flag says whether the names were. -/
def printRow (verbose : Bool) (s : Bool × List Char) (row : ρ) : Option (Bool × List Char) :=
  if verbose then do
    let text ← p.long row
    some (s.1, s.2 ++ text)
  else
    let s := if s.1 then s else (true, s.2 ++ p.head)
    some (s.1, s.2 ++ line (p.terse row))

/-- Rows that are printed one after the other, each in its form. -/
def printRows (s : Bool × List Char) (rows : List (Bool × ρ)) : Option (Bool × List Char) :=
  rows.foldlM (fun s row => p.printRow row.1 s row.2) s

/-- The text of a row. -/
def rowText (row : Bool × ρ) : Option (List Char) :=
  if row.1 then p.long row.2 else some (line (p.terse row.2))

theorem printRows_append (s : Bool × List Char) (rows rows' : List (Bool × ρ)) :
    p.printRows s (rows ++ rows') = (p.printRows s rows).bind (p.printRows · rows') := by
  simp only [printRows, List.foldlM_append]
  rfl

/-- The texts of rows below the names: the long rows before the first terse one have none
above them. -/
def underHead (text : Bool × ρ → List Char) (rows : List (Bool × ρ)) : List Char :=
  ((rows.takeWhile Prod.fst).map text).flatten ++
    if (rows.dropWhile Prod.fst).isEmpty then []
    else p.head ++ ((rows.dropWhile Prod.fst).map text).flatten

variable {p} {rows : List (Bool × ρ)} {text : Bool × ρ → List Char}

/-- Rows are printed iff each of them has a text. -/
theorem printRows_isSome_iff (s : Bool × List Char) :
    (p.printRows s rows).isSome ↔ ∀ row ∈ rows, (p.rowText row).isSome := by
  refine Loop.foldlM_isSome_iff fun s row _ => ?_
  obtain ⟨verbose, row⟩ := row
  cases verbose with
  | false => exact iff_of_true rfl rfl
  | true =>
      simp only [printRow, rowText, if_true]
      cases p.long row <;> simp

theorem printRow_eq {row : Bool × ρ} (h : p.rowText row = some (text row)) (flag : Bool)
    (out : List Char) : p.printRow row.1 (flag, out) row.2 =
      some (flag || !row.1,
        out ++ (if flag || row.1 then [] else p.head) ++ text row) := by
  obtain ⟨verbose, row⟩ := row
  cases verbose with
  | false =>
      have htext : line (p.terse row) = text (false, row) := Option.some.inj h
      cases flag <;> simp [printRow, htext]
  | true =>
      have htext : p.long row = some (text (true, row)) := h
      cases flag <;> simp [printRow, htext]

/-- Below the names, rows are printed as they are. -/
theorem printRows_of_printed (h : ∀ row ∈ rows, p.rowText row = some (text row))
    (out : List Char) :
    p.printRows (true, out) rows = some (true, out ++ (rows.map text).flatten) := by
  induction rows generalizing out with
  | nil => simp [printRows]
  | cons row rows ih =>
      obtain ⟨hrow, hrows⟩ := List.forall_mem_cons.mp h
      have hstep := printRow_eq hrow true out
      have ih := ih hrows (out ++ text row)
      simp only [printRows, Bool.true_or, if_true, List.append_nil] at hstep ih ⊢
      rw [List.foldlM_cons, hstep]
      simpa using ih

theorem underHead_cons_verbose {row : Bool × ρ} (h : row.1 = true) :
    p.underHead text (row :: rows) = text row ++ p.underHead text rows := by
  rw [underHead, List.takeWhile_cons_of_pos h, List.dropWhile_cons_of_pos h, List.map_cons,
    List.flatten_cons, List.append_assoc]
  rfl

/-- **The names are printed once, above the first terse row**, and only if there is one. -/
theorem printRows_eq (h : ∀ row ∈ rows, p.rowText row = some (text row)) (out : List Char) :
    p.printRows (false, out) rows =
      some (rows.any (!·.1), out ++ p.underHead text rows) := by
  induction rows generalizing out with
  | nil => simp [printRows, underHead]
  | cons row rows ih =>
      obtain ⟨hrow, hrows⟩ := List.forall_mem_cons.mp h
      have hstep := printRow_eq hrow false out
      cases hverbose : row.1 with
      | true =>
          have ih := ih hrows (out ++ text row)
          simp only [hverbose, Bool.false_or, if_true, Bool.not_true, List.append_nil] at hstep
          rw [printRows, List.foldlM_cons, hverbose, hstep]
          rw [printRows] at ih
          simp only [Option.bind_eq_bind, Option.bind_some, ih]
          rw [underHead_cons_verbose hverbose, List.any_cons, hverbose, List.append_assoc]
          rfl
      | false =>
          have hrest := printRows_of_printed hrows (out ++ p.head ++ text row)
          simp only [hverbose, Bool.false_or, Bool.false_eq_true, if_false, Bool.not_false]
            at hstep
          rw [printRows, List.foldlM_cons, hverbose, hstep]
          rw [printRows] at hrest
          simp only [Option.bind_eq_bind, Option.bind_some, hrest]
          simp [underHead, hverbose]

/-- Terse rows are all below the names. -/
theorem underHead_of_terse (h : ∀ row ∈ rows, row.1 = false) (hrows : rows ≠ []) :
    p.underHead text rows = p.head ++ (rows.map text).flatten := by
  obtain ⟨row, rest, rfl⟩ := List.exists_cons_of_ne_nil hrows
  have hrow := h row List.mem_cons_self
  simp [underHead, hrow]

end Printer

end Table
