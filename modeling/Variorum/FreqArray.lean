/-
Variorum/FreqArray.lean

The frequencies of an ARM core, as they are read from a file.

`read_array_ui64` counts the blanks in its buffer, takes as many entries, and
fills them with the pieces that `strtok` finds.  The buffer has no NUL behind
what was read, so the count goes on there: no file but the empty one is read from
its own bytes alone (`readsList_iff`).  Where a NUL happens to follow, the array is
the list of the file exactly if the blanks are as many as the numbers
(`readArray_terminated_iff`).
-/
import Mathlib.Algebra.BigOperators.Fin
import Mathlib.Data.List.TakeWhile
import Variorum.CScan

namespace Variorum

open CString

namespace Arm

/-! ### The function -/

def nul : Char := Char.ofNat 0

/-- `for (nfreq = 0; fptr[nfreq] != '\0'; fptr[nfreq] == ' ' ? nfreq++ : *(fptr++));`, which goes
through the buffer byte by byte.  The bytes that have a value are given; there is no result
behind them. -/
def countBlanks : List Char → Nat → Option Nat
  | [], _ => none
  | c :: buf, nfreq =>
      if c = nul then some nfreq
      else if c = ' ' then countBlanks buf (nfreq + 1)
      else countBlanks buf nfreq

/-- A call of `strtok`: the piece, and the text behind the delimiter that ends it. -/
def strtokNext (delim : Char → Bool) (text : List Char) : Option (List Char × List Char) :=
  let text := text.dropWhile delim
  if text.isEmpty then none
  else some (text.takeWhile (!delim ·), (text.dropWhile (!delim ·)).tail)

/-- `" "`, and `" \n"` from the second call on. -/
def blank (c : Char) : Bool := c = ' '
def blankOrNewline (c : Char) : Bool := c = ' ' ∨ c = '\n'

/-- `while (tok && iter < nfreq)`, with the entries that are left: what is stored. -/
def storeLoop : Nat → Option (List Char × List Char) → List (BitVec 64)
  | left + 1, some (tok, rest) =>
      BitVec.ofInt 64 (strtol tok) :: storeLoop left (strtokNext blankOrNewline rest)
  | _, _ => []

/-- What is returned, and the array if one is set; an entry without a value is `none`. -/
structure ArrayRead where
  nfreq : Nat
  array : Option (List (Option (BitVec 64)))
  deriving DecidableEq

/-- `read_array_ui64`, for what `read` returns and the bytes at the beginning of the buffer that
have a value. -/
def readArrayUi64 (bytesRead : Int) (buf : List Char) : Option ArrayRead :=
  if bytesRead = 0 then some ⟨0, none⟩
  else (countBlanks buf 0).map fun nfreq =>
    let values := storeLoop nfreq (strtokNext blank (buf.takeWhile (· ≠ nul)))
    ⟨nfreq, some (values.map some ++ List.replicate (nfreq - values.length) none)⟩

/-! ### Files -/

/-- Numbers behind blanks, one and so many more before each. -/
def following (gap : Nat → Nat) : List Nat → List Char
  | [] => []
  | n :: ns => List.replicate (gap 0 + 1) ' ' ++ (decimal n ++ following (fun i => gap (i + 1)) ns)

/-- Numbers in decimal with blanks between them, as many as `gap` says. -/
def separated (gap : Nat → Nat) : List Nat → List Char
  | [] => []
  | n :: ns => decimal n ++ following gap ns

/-- What may stand at the end. -/
def ending (trailing newline : Bool) : List Char :=
  (if trailing then [' '] else []) ++ if newline then ['\n'] else []

/-- The text of a file. -/
def fileText (gap : Nat → Nat) (ns : List Nat) (trailing newline : Bool) : List Char :=
  separated gap ns ++ ending trailing newline

/-- These numbers are returned. -/
def Holds (ns : List Nat) (r : ArrayRead) : Prop :=
  r.nfreq = ns.length ∧ r.array.getD [] = ns.map fun n => some (BitVec.ofNat 64 n)

/-- They are, and no byte is looked at that `read` did not deliver. -/
def ReadsList (ns : List Nat) (text : List Char) : Prop :=
  ∃ r, readArrayUi64 (text.take 4096).length (text.take 4096) = some r ∧ Holds ns r

/-! ### The count -/

section Count

variable {gap : Nat → Nat} {ns : List Nat} {trailing newline : Bool} {text rest : List Char}

theorem countBlanks_none (h : nul ∉ text) (nfreq : Nat) : countBlanks text nfreq = none := by
  induction text generalizing nfreq with
  | nil => rfl
  | cons c text ih =>
      obtain ⟨hc, htext⟩ := List.ne_and_not_mem_of_not_mem_cons h
      rw [countBlanks, if_neg (Ne.symm hc)]
      split <;> exact ih htext _

theorem countBlanks_nul (h : nul ∉ text) (nfreq : Nat) :
    countBlanks (text ++ nul :: rest) nfreq = some (nfreq + text.count ' ') := by
  induction text generalizing nfreq with
  | nil => rfl
  | cons c text ih =>
      obtain ⟨hc, htext⟩ := List.ne_and_not_mem_of_not_mem_cons h
      rw [List.cons_append, countBlanks, if_neg (Ne.symm hc)]
      by_cases hblank : c = ' '
      · rw [if_pos hblank, ih htext, hblank, List.count_cons_self]
        congr 1
        omega
      · rw [if_neg hblank, ih htext, List.count_cons_of_ne hblank]

theorem nul_notMem_decimal (n : Nat) : nul ∉ decimal n :=
  fun h => absurd (isDigit_of_mem_decimal h) (by decide)

theorem nul_notMem_following : nul ∉ following gap ns := by
  induction ns generalizing gap with
  | nil => exact List.not_mem_nil
  | cons n ns ih =>
      rw [following, List.mem_append, List.mem_append, not_or, not_or]
      exact ⟨fun h => absurd (List.eq_of_mem_replicate h) (by decide), nul_notMem_decimal n, ih⟩

theorem nul_notMem_fileText : nul ∉ fileText gap ns trailing newline := by
  rw [fileText, List.mem_append, not_or]
  refine ⟨?_, by cases trailing <;> cases newline <;> decide⟩
  cases ns with
  | nil => exact List.not_mem_nil
  | cons n ns =>
      rw [separated, List.mem_append, not_or]
      exact ⟨nul_notMem_decimal n, nul_notMem_following⟩

/-- **A file is read from its own bytes** exactly where it has none.  In any other one
the count of the blanks goes on behind what was read, as there is no NUL there. -/
theorem readsList_iff (gap : Nat → Nat) (ns : List Nat) (trailing newline : Bool) :
    ReadsList ns (fileText gap ns trailing newline) ↔ fileText gap ns trailing newline = [] := by
  constructor
  · rintro ⟨r, hr, -⟩
    by_contra hne
    have hread : (((fileText gap ns trailing newline).take 4096).length : Int) ≠ 0 := by
      have hpos := List.length_pos_iff.mpr hne
      rw [List.length_take]
      omega
    rw [readArrayUi64, if_neg hread,
      countBlanks_none fun h => nul_notMem_fileText (List.mem_of_mem_take h)] at hr
    cases hr
  · intro hempty
    have hns : ns = [] := by
      cases ns with
      | nil => rfl
      | cons n ns =>
          have hdec := (List.append_eq_nil_iff.mp (List.append_eq_nil_iff.mp hempty).1).1
          exact absurd hdec (decimal_ne_nil n)
    rw [hempty, hns]
    exact ⟨⟨0, none⟩, rfl, rfl, rfl⟩

/-- A list with a blank and a newline behind it, as the kernel writes it. -/
theorem not_readsList_kernel :
    ¬ ReadsList [450000, 800000] (fileText (fun _ => 0) [450000, 800000] true true) := by
  rintro ⟨r, hr, -⟩
  have hnone : readArrayUi64 15 ((fileText (fun _ => 0) [450000, 800000] true true).take 4096)
      = none := by decide
  have hlength : ((fileText (fun _ => 0) [450000, 800000] true true).take 4096).length = 15 := by
    decide
  rw [hlength] at hr
  exact absurd (hnone.symm.trans hr) (Option.some_ne_none r).symm

end Count

/-! ### A NUL behind the file -/

section Terminated

variable {delim : Char → Bool} {gap : Nat → Nat} {n : Nat} {ns : List Nat}
  {trailing newline : Bool} {text rest piece : List Char}

/-- A text of delimiters holds no piece. -/
theorem strtokNext_delims (h : ∀ c ∈ text, delim c) : strtokNext delim text = none := by
  have hdrop : text.dropWhile delim = [] := List.dropWhile_eq_nil_iff.mpr h
  rw [strtokNext, hdrop]
  rfl

/-- They are skipped before one. -/
theorem strtokNext_replicate {c : Char} (hc : delim c) (g : Nat) :
    strtokNext delim (List.replicate g c ++ text) = strtokNext delim text := by
  have hdrop : (List.replicate g c ++ text).dropWhile delim = text.dropWhile delim :=
    List.dropWhile_append_of_pos fun d hd => (List.eq_of_mem_replicate hd).symm ▸ hc
  rw [strtokNext, hdrop]
  rfl

/-- **A piece** ends before the next delimiter. -/
theorem strtokNext_piece (hne : piece ≠ []) (hpiece : ∀ c ∈ piece, delim c = false)
    (hrest : ∀ c ∈ rest.head?, delim c) :
    strtokNext delim (piece ++ rest) = some (piece, rest.tail) := by
  obtain ⟨c, cs, rfl⟩ := List.exists_cons_of_ne_nil hne
  have hkeep : ∀ d ∈ c :: cs, (!delim d) = true := fun d hd => by rw [hpiece d hd]; rfl
  have hdrop : (c :: cs ++ rest).dropWhile delim = c :: cs ++ rest :=
    List.dropWhile_cons_of_neg (by rw [hpiece c List.mem_cons_self]; decide)
  have hempty : (c :: cs ++ rest).isEmpty = false := rfl
  have htake : rest.takeWhile (!delim ·) = [] := by
    cases rest with
    | nil => rfl
    | cons d rest => exact List.takeWhile_cons_of_neg (by rw [hrest d rfl]; decide)
  have hleft : rest.dropWhile (!delim ·) = rest := by
    cases rest with
    | nil => rfl
    | cons d rest => exact List.dropWhile_cons_of_neg (by rw [hrest d rfl]; decide)
  simp only [strtokNext, hdrop, hempty, List.takeWhile_append_of_pos hkeep,
    List.dropWhile_append_of_pos hkeep, htake, hleft, List.append_nil]
  rfl

theorem delim_decimal : ∀ c ∈ decimal n, blankOrNewline c = false := by
  intro c hc
  have hdigit := isDigit_of_mem_decimal hc
  rw [blankOrNewline, decide_eq_false_iff_not]
  rintro (rfl | rfl) <;> cases hdigit

/-- The end of a text is delimiters. -/
theorem delim_ending : ∀ c ∈ ending trailing newline, blankOrNewline c := by
  intro c hc
  have hmem : c = ' ' ∨ c = '\n' := by
    rcases List.mem_append.mp hc with h | h
    · left
      cases trailing with
      | false => cases h
      | true => exact List.mem_singleton.mp h
    · right
      cases newline with
      | false => cases h
      | true => exact List.mem_singleton.mp h
  exact decide_eq_true hmem

theorem head_following : ∀ c ∈ (following gap ns ++ ending trailing newline).head?,
    blankOrNewline c := by
  cases ns with
  | nil =>
      intro c hc
      exact delim_ending c (List.mem_of_mem_head? hc)
  | cons m ns =>
      intro c hc
      obtain rfl := Option.some.inj hc
      decide

/-- The value of a number in an entry. -/
theorem ofInt_strtol (hn : n < 2 ^ 63) (h : ∀ c ∈ rest.head?, c.isDigit = false) :
    BitVec.ofInt 64 (strtol (decimal n ++ rest)) = BitVec.ofNat 64 n := by
  have hfit : min longMax n = n := by
    rw [longMax]
    omega
  rw [strtol_decimal n h, hfit, BitVec.ofInt_natCast]

/-- **The pieces behind the first number**, one by one. -/
theorem storeLoop_following (hns : ∀ m ∈ ns, m < 2 ^ 63) (left : Nat) :
    storeLoop left
        (strtokNext blankOrNewline (following gap ns ++ ending trailing newline).tail)
      = (ns.map (BitVec.ofNat 64)).take left := by
  induction ns generalizing gap left with
  | nil =>
      have hnone : strtokNext blankOrNewline (ending trailing newline).tail = none :=
        strtokNext_delims fun c hc => delim_ending c (List.mem_of_mem_tail hc)
      rw [following, List.nil_append, hnone, storeLoop]
      · exact List.take_nil.symm
      · rintro _ _ _ _ ⟨⟩
  | cons m ns ih =>
      have htail : (following gap (m :: ns) ++ ending trailing newline).tail
          = List.replicate (gap 0) ' ' ++ (decimal m
            ++ (following (fun i => gap (i + 1)) ns ++ ending trailing newline)) := by
        rw [following, List.append_assoc, List.append_assoc]
        rfl
      rw [htail, strtokNext_replicate (by decide),
        strtokNext_piece (decimal_ne_nil m) delim_decimal head_following]
      cases left with
      | zero => rfl
      | succ left =>
          have hvalue := @ofInt_strtol m [] (hns m List.mem_cons_self) nofun
          rw [List.append_nil] at hvalue
          rw [storeLoop, ih (fun k hk => hns k (List.mem_cons_of_mem m hk)), hvalue]
          rfl

/-- The blanks: one and its gap before each number but the first, and one at the end. -/
theorem count_following :
    (following gap ns).count ' ' = ns.length + ∑ i ∈ Finset.range ns.length, gap i := by
  induction ns generalizing gap with
  | nil => rfl
  | cons m ns ih =>
      rw [following, List.count_append, List.count_append, List.count_replicate_self,
        List.count_eq_zero.mpr (space_notMem_decimal m), ih, List.length_cons,
        Finset.sum_range_succ']
      omega

theorem count_fileText : (fileText gap (n :: ns) trailing newline).count ' '
    = ns.length + (∑ i ∈ Finset.range ns.length, gap i) + if trailing then 1 else 0 := by
  have hending : (ending trailing newline).count ' ' = if trailing then 1 else 0 := by
    cases trailing <;> cases newline <;> decide
  rw [fileText, separated, List.count_append, List.count_append,
    List.count_eq_zero.mpr (space_notMem_decimal n), count_following, hending, Nat.zero_add]

/-- **What is stored**, one entry for each blank. -/
theorem storeLoop_fileText (hns : ∀ m ∈ n :: ns, m < 2 ^ 63) :
    storeLoop ((fileText gap (n :: ns) trailing newline).count ' ')
        (strtokNext blank (fileText gap (n :: ns) trailing newline))
      = ((n :: ns).map (BitVec.ofNat 64)).take
          ((fileText gap (n :: ns) trailing newline).count ' ') := by
  have hdelim : ∀ c ∈ decimal n, blank c = false := fun c hc =>
    decide_eq_false fun h => space_notMem_decimal n (h ▸ hc)
  generalize hcount : (fileText gap (n :: ns) trailing newline).count ' ' = count
  rw [fileText, separated, List.append_assoc]
  by_cases hhead : ∀ c ∈ (following gap ns ++ ending trailing newline).head?, blank c
  · rw [strtokNext_piece (decimal_ne_nil n) hdelim hhead]
    cases count with
    | zero => rfl
    | succ left =>
        have hvalue := @ofInt_strtol n [] (hns n List.mem_cons_self) nofun
        rw [List.append_nil] at hvalue
        rw [storeLoop, storeLoop_following fun m hm => hns m (List.mem_cons_of_mem n hm), hvalue]
        rfl
  · -- a single number and its newline: there is no blank, and nothing is stored
    have hzero : count = 0 := by
      rw [count_fileText] at hcount
      cases ns with
      | nil =>
          cases trailing with
          | false => exact hcount.symm
          | true => exact absurd (fun c hc => by obtain rfl := Option.some.inj hc; rfl) hhead
      | cons m ns =>
          exact absurd (fun c hc => by obtain rfl := Option.some.inj hc; rfl) hhead
    rw [hzero, List.take_zero]
    cases strtokNext blank (decimal n ++ (following gap ns ++ ending trailing newline)) <;> rfl

/-- **With a NUL behind the file**: as many entries as blanks, of which the numbers fill those
that they reach. -/
theorem readArray_terminated (hns : ∀ m ∈ n :: ns, m < 2 ^ 63) {bytesRead : Int}
    (hread : bytesRead ≠ 0) (count : Nat)
    (hcount : (fileText gap (n :: ns) trailing newline).count ' ' = count) :
    readArrayUi64 bytesRead (fileText gap (n :: ns) trailing newline ++ nul :: rest)
      = some ⟨count, some ((((n :: ns).map fun m => some (BitVec.ofNat 64 m)).take count)
          ++ List.replicate (count - (n :: ns).length) none)⟩ := by
  have htext : (fileText gap (n :: ns) trailing newline ++ nul :: rest).takeWhile (· ≠ nul)
      = fileText gap (n :: ns) trailing newline := by
    rw [List.takeWhile_append_of_pos, List.takeWhile_cons_of_neg (by simp), List.append_nil]
    exact fun c hc => decide_eq_true fun h => nul_notMem_fileText (h ▸ hc)
  have hvalues : storeLoop count (strtokNext blank (fileText gap (n :: ns) trailing newline))
      = ((n :: ns).map (BitVec.ofNat 64)).take count := by
    rw [← hcount]
    exact storeLoop_fileText hns
  rw [readArrayUi64, if_neg hread, countBlanks_nul nul_notMem_fileText, Nat.zero_add, hcount]
  simp only [Option.map_some, htext, hvalues, List.map_take, List.map_map, List.length_take,
    List.length_map]
  have hleft : count - min count (n :: ns).length = count - (n :: ns).length := by omega
  rw [hleft]
  rfl

/-- **The spacing that the count is right for**: a blank at the end and single ones between the
numbers, or none at the end and one that is repeated once. -/
theorem readArray_terminated_iff (hns : ∀ m ∈ n :: ns, m < 2 ^ 63) {bytesRead : Int}
    (hread : bytesRead ≠ 0) :
    (∃ r, readArrayUi64 bytesRead (fileText gap (n :: ns) trailing newline ++ nul :: rest)
        = some r ∧ Holds (n :: ns) r)
      ↔ (∑ i ∈ Finset.range ns.length, gap i) + (if trailing then 1 else 0) = 1 := by
  rw [readArray_terminated hns hread _ count_fileText]
  constructor
  · rintro ⟨r, hr, hnfreq, -⟩
    obtain rfl := Option.some.inj hr
    have hlength : _ = ns.length + 1 := hnfreq
    simp only at hlength
    omega
  · intro hsum
    have hcount : ns.length + (∑ i ∈ Finset.range ns.length, gap i)
        + (if trailing then 1 else 0) = (n :: ns).length := by
      rw [List.length_cons]
      omega
    refine ⟨_, rfl, hcount, ?_⟩
    rw [hcount, Nat.sub_self, List.replicate_zero, List.append_nil, Option.getD_some]
    exact List.take_of_length_le (List.length_map _).le

end Terminated

end Arm

end Variorum
