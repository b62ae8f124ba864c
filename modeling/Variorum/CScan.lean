/-
Variorum/CScan.lean

Texts as C programs read them.

`fgets` takes a line, or as much of it as its buffer holds, `strtok` cuts a text
into the pieces between delimiters, and `strtol` takes the number at the
beginning of a piece, the greatest `long` for what is greater.

`spaced` are numbers behind a blank each.  Of a part of such a line each number is
read without the digits that are cut off, as far as it fits a `long`
(`strtol_take_spaced`), and there are no more pieces than the line has numbers
(`length_strtok_spaced`).

Nothing here mentions a particular program.
-/
import Mathlib.Algebra.Ring.Nat
import Mathlib.Data.List.Basic
import Variorum.CString

namespace CString

/-! ### Reading -/

/-- The first line of a text, with its newline. -/
def firstLine : List Char → List Char
  | [] => []
  | c :: cs => if c = '\n' then [c] else c :: firstLine cs

/-- `fgets` into a buffer of a size; NULL at the end of the file. -/
def fgets (size : Nat) (text : List Char) : Option (List Char) :=
  if text.isEmpty then none else some ((firstLine text).take (size - 1))

/-- The pieces that the calls of `strtok` find. -/
def strtok (delim : Char) (text : List Char) : List (List Char) :=
  (text.splitOn delim).filter fun piece => !piece.isEmpty

/-- `isspace`, in the C locale. -/
def isspace (c : Char) : Bool := c = ' ' ∨ 9 ≤ c.toNat ∧ c.toNat ≤ 13

/-- `LONG_MAX`. -/
def longMax : Int := 2 ^ 63 - 1

/-- `strtol` with base 10: the number in front of what is no digit, at most `LONG_MAX`. -/
def strtol (text : List Char) : Int :=
  let value (cs : List Char) : Int := Nat.ofDigitChars 10 (cs.takeWhile Char.isDigit) 0
  match text.dropWhile isspace with
  | '-' :: cs => max (-longMax - 1) (-value cs)
  | '+' :: cs => min longMax (value cs)
  | cs => min longMax (value cs)

/-- `atoi` on a buffer: it has no result where the scan runs out of the buffer. -/
def atoi (buf : List Char) : Option Int :=
  let ends (cs : List Char) : Bool := !(cs.dropWhile Char.isDigit).isEmpty
  let inside := match buf.dropWhile isspace with
    | '-' :: cs => ends cs
    | '+' :: cs => ends cs
    | cs => ends cs
  if inside then some (BitVec.ofInt 32 (strtol buf)).toInt else none

/-- `sscanf` with `%lu`, of 64 bits, on the bytes of a buffer that have a value: nothing is stored
where there is no number, and no result is known where the number does not end within them. -/
def scanU64 (buf : List Char) : Option (BitVec 64) :=
  let number (cs : List Char) : Option Nat :=
    if (cs.takeWhile Char.isDigit).isEmpty ∨ (cs.dropWhile Char.isDigit).isEmpty then none
    else some (Nat.ofDigitChars 10 (cs.takeWhile Char.isDigit) 0)
  let top (n : Nat) (v : BitVec 64) : BitVec 64 := if 2 ^ 64 ≤ n then BitVec.allOnes 64 else v
  match buf.dropWhile isspace with
  | '-' :: cs => (number cs).map fun n => top n (-BitVec.ofNat 64 n)
  | '+' :: cs => (number cs).map fun n => top n (BitVec.ofNat 64 n)
  | cs => (number cs).map fun n => top n (BitVec.ofNat 64 n)

/-- Numbers, a blank before each. -/
def spaced : List Nat → List Char
  | [] => []
  | n :: ns => ' ' :: (decimal n ++ spaced ns)

/-- The column behind number `k` of a line: each has a blank before it. -/
def columnBehind (ns : List Nat) (k : Nat) : Nat :=
  ((ns.take (k + 1)).map fun n => 1 + (decimal n).length).sum

variable {d c : Char} {text piece rest stop : List Char} {n : Nat} {ns : List Nat}

/-! ### Lines -/

theorem firstLine_append (h : '\n' ∉ text) (rest : List Char) :
    firstLine (text ++ '\n' :: rest) = text ++ ['\n'] := by
  induction text with
  | nil => rfl
  | cons c text ih =>
      obtain ⟨hc, htext⟩ := List.ne_and_not_mem_of_not_mem_cons h
      rw [List.cons_append, firstLine, if_neg (Ne.symm hc), ih htext, List.cons_append]

/-- **A line that fits**, its newline at the most not. -/
theorem fgets_append {size : Nat} (h : '\n' ∉ text) (rest : List Char) :
    fgets size (text ++ '\n' :: rest) = some ((text ++ ['\n']).take (size - 1)) := by
  rw [fgets, if_neg (by simp), firstLine_append h]

/-! ### Pieces -/

/-- A text with a delimiter in it falls into the pieces before it and those behind it. -/
theorem strtok_append (d : Char) (text rest : List Char) :
    strtok d (text ++ d :: rest) = strtok d text ++ strtok d rest := by
  rw [strtok, List.splitOn_append_cons_self, List.filter_append]
  rfl

theorem strtok_cons_delim (d : Char) (rest : List Char) : strtok d (d :: rest) = strtok d rest :=
  strtok_append d [] rest

/-- A text without a delimiter is one piece. -/
theorem strtok_single (hd : d ∉ piece) (hne : piece ≠ []) : strtok d piece = [piece] := by
  have hkeep : (!piece.isEmpty) = true := by
    rwa [Bool.not_eq_true', List.isEmpty_eq_false_iff]
  rw [strtok, List.splitOn_eq_singleton hd]
  exact List.filter_cons_of_pos hkeep

/-- No more pieces than delimiters, and one. -/
theorem length_strtok_le (d : Char) (text : List Char) :
    (strtok d text).length ≤ text.count d + 1 := by
  have hsplit : (text.splitOn d).length = text.count d + 1 := by
    induction text with
    | nil => rfl
    | cons c text ih =>
        rw [List.splitOn_cons_eq_if_modifyHead, List.count_cons]
        split
        · rw [List.length_cons, ih]
        · rw [List.length_modifyHead, ih, Nat.add_zero]
  exact hsplit ▸ List.length_filter_le _ _

/-! ### Numbers -/

theorem decimal_ne_nil (n : Nat) : decimal n ≠ [] := Nat.toDigits_ne_nil

theorem toNat_of_isDigit (h : c.isDigit = true) : 48 ≤ c.toNat ∧ c.toNat ≤ 57 := by
  rw [Char.isDigit, Bool.and_eq_true, decide_eq_true_eq, decide_eq_true_eq] at h
  exact ⟨UInt32.le_iff_toNat_le.mp h.1, UInt32.le_iff_toNat_le.mp h.2⟩

/-- A digit is no white space. -/
theorem not_isspace_of_isDigit (hc : c.isDigit = true) : isspace c = false := by
  obtain ⟨hlow, hhigh⟩ := toNat_of_isDigit hc
  rw [isspace, decide_eq_false_iff_not]
  rintro (rfl | hrange)
  · cases hc
  · omega

/-- A text that begins with a digit has neither white space nor a sign before it. -/
theorem strtol_of_isDigit (hc : c.isDigit = true) (text : List Char) :
    strtol (c :: text)
      = min longMax (Nat.ofDigitChars 10 ((c :: text).takeWhile Char.isDigit) 0) := by
  rw [strtol, List.dropWhile_cons_of_neg (Bool.eq_false_iff.mp (not_isspace_of_isDigit hc))]
  split
  · next heq =>
      obtain ⟨rfl, -⟩ := List.cons.inj heq
      cases hc
  · next heq =>
      obtain ⟨rfl, -⟩ := List.cons.inj heq
      cases hc
  · rfl

/-- **A number is read back**, as far as it fits. -/
theorem strtol_decimal (n : Nat) (h : ∀ c ∈ rest.head?, c.isDigit = false) :
    strtol (decimal n ++ rest) = min longMax n := by
  obtain ⟨c, cs, hcons⟩ := List.exists_cons_of_ne_nil (decimal_ne_nil n)
  have hc : c.isDigit = true := isDigit_of_mem_decimal (hcons ▸ List.mem_cons_self)
  have hvalue := takeWhile_decimal n h
  rw [hcons, List.cons_append] at hvalue ⊢
  rw [strtol_of_isDigit hc, hvalue, ← hcons, decimal, Nat.ofDigitChars_ten_toDigits]

/-- **A number is read back** by `sscanf` if something else ends it. -/
theorem scanU64_decimal (h : n < 2 ^ 64) (hd : d.isDigit = false) (rest : List Char) :
    scanU64 (decimal n ++ d :: rest) = some (BitVec.ofNat 64 n) := by
  obtain ⟨c, cs, hcons⟩ := List.exists_cons_of_ne_nil (decimal_ne_nil n)
  have hc : c.isDigit = true := isDigit_of_mem_decimal (hcons ▸ List.mem_cons_self)
  have hvalue : (decimal n ++ d :: rest).takeWhile Char.isDigit = decimal n :=
    takeWhile_decimal n fun x hx => by obtain rfl := Option.some.inj hx; exact hd
  have hdrop : (decimal n ++ d :: rest).dropWhile Char.isDigit = d :: rest := by
    rw [List.dropWhile_append_of_pos fun x hx => isDigit_of_mem_decimal hx,
      List.dropWhile_cons_of_neg (by rw [hd]; decide)]
  have hstart : (decimal n ++ d :: rest).dropWhile isspace = decimal n ++ d :: rest := by
    rw [hcons, List.cons_append,
      List.dropWhile_cons_of_neg (Bool.eq_false_iff.mp (not_isspace_of_isDigit hc))]
  have hnumber : (decimal n).isEmpty = false := by rw [hcons]; rfl
  have hback : Nat.ofDigitChars 10 (decimal n) 0 = n := Nat.ofDigitChars_ten_toDigits
  rw [scanU64, hstart]
  split
  · next heq =>
      rw [hcons] at heq
      obtain ⟨rfl, -⟩ := List.cons.inj heq
      cases hc
  · next heq =>
      rw [hcons] at heq
      obtain ⟨rfl, -⟩ := List.cons.inj heq
      cases hc
  · simp only [hvalue, hdrop, hnumber, List.isEmpty_cons, Bool.false_eq_true, or_self, if_false,
      Option.map_some, hback, if_neg (Nat.not_le.mpr h)]

/-! ### Numbers in a line -/

/-- Numbers behind blanks are made of digits and blanks only. -/
theorem of_mem_spaced (h : c ∈ spaced ns) : c.isDigit = true ∨ c = ' ' := by
  induction ns with
  | nil => cases h
  | cons n ns ih =>
      rcases List.mem_cons.mp h with rfl | h
      · exact .inr rfl
      · exact (List.mem_append.mp h).elim (fun h => .inl (isDigit_of_mem_decimal h)) ih

theorem space_notMem_decimal (n : Nat) : ' ' ∉ decimal n :=
  fun h => absurd (isDigit_of_mem_decimal h) (by decide)

theorem count_spaced (ns : List Nat) : (spaced ns).count ' ' = ns.length := by
  induction ns with
  | nil => rfl
  | cons n ns ih =>
      rw [spaced, List.count_cons_self, List.count_append,
        List.count_eq_zero.mpr (space_notMem_decimal n), ih, Nat.zero_add, List.length_cons]

theorem columnBehind_cons_zero (n : Nat) (ns : List Nat) :
    columnBehind (n :: ns) 0 = 1 + (decimal n).length := rfl

theorem columnBehind_cons_succ (n : Nat) (ns : List Nat) (k : Nat) :
    columnBehind (n :: ns) (k + 1) = 1 + (decimal n).length + columnBehind ns k := by
  rw [columnBehind, List.take_succ_cons, List.map_cons, List.sum_cons]
  rfl

theorem columnBehind_mono (ns : List Nat) {j k : Nat} (h : j ≤ k) :
    columnBehind ns j ≤ columnBehind ns k := by
  have hle : j + 1 ≤ k + 1 := Nat.succ_le_succ h
  unfold columnBehind
  rw [← List.take_append_drop (j + 1) (ns.take (k + 1)), List.take_take, Nat.min_eq_left hle,
    List.map_append, List.sum_append]
  exact Nat.le_add_right _ _

theorem lt_pow_length_decimal (n : Nat) : n < 10 ^ (decimal n).length := by
  have hpos : 0 < (decimal n).length := List.length_pos_of_ne_nil (decimal_ne_nil n)
  exact (Nat.length_toDigits_le_iff (by decide) hpos).mp (Nat.le_refl _)

/-- Without its digits nothing is left of a number. -/
theorem div_pow_eq_zero {m : Nat} (h : (decimal n).length ≤ m) : n / 10 ^ m = 0 :=
  Nat.div_eq_of_lt ((lt_pow_length_decimal n).trans_le (Nat.pow_le_pow_right (by decide) h))

/-- What digits say is less than the power of their number. -/
theorem ofDigitChars_lt (h : ∀ c ∈ text, c.isDigit = true) :
    Nat.ofDigitChars 10 text 0 < 10 ^ text.length := by
  induction text with
  | nil => decide
  | cons c text ih =>
      obtain ⟨hc, htext⟩ := List.forall_mem_cons.mp h
      have hvalue := toNat_of_isDigit hc
      rw [Nat.ofDigitChars_cons, Nat.ofDigitChars_eq_ofDigitChars_zero, List.length_cons,
        Nat.pow_succ]
      have hdigit : 10 * 0 + (c.toNat - '0'.toNat) ≤ 9 := by
        have hzero : '0'.toNat = 48 := rfl
        omega
      calc
        10 ^ text.length * (10 * 0 + (c.toNat - '0'.toNat)) + Nat.ofDigitChars 10 text 0
            < 10 ^ text.length * 9 + 10 ^ text.length :=
          Nat.add_lt_add_of_le_of_lt (Nat.mul_le_mul_left _ hdigit) (ih htext)
        _ = 10 ^ text.length * 10 := by omega

/-- The first digits of a number are those of a quotient. -/
theorem ofDigitChars_take_decimal (n size : Nat) :
    Nat.ofDigitChars 10 ((decimal n).take size) 0 = n / 10 ^ ((decimal n).length - size) := by
  have hback : Nat.ofDigitChars 10 (decimal n) 0 = n := Nat.ofDigitChars_ten_toDigits
  have hlow : Nat.ofDigitChars 10 ((decimal n).drop size) 0
      < 10 ^ ((decimal n).length - size) := by
    rw [← List.length_drop]
    exact ofDigitChars_lt fun c hc => isDigit_of_mem_decimal (List.mem_of_mem_drop hc)
  have hsplit : n = 10 ^ ((decimal n).length - size)
        * Nat.ofDigitChars 10 ((decimal n).take size) 0
      + Nat.ofDigitChars 10 ((decimal n).drop size) 0 := by
    rw [← List.length_drop, ← Nat.ofDigitChars_eq_ofDigitChars_zero, ← Nat.ofDigitChars_append,
      List.take_append_drop, hback]
  symm
  calc
    n / 10 ^ ((decimal n).length - size)
        = (10 ^ ((decimal n).length - size) * Nat.ofDigitChars 10 ((decimal n).take size) 0
            + Nat.ofDigitChars 10 ((decimal n).drop size) 0) / 10 ^ ((decimal n).length - size) :=
      congrArg (· / 10 ^ ((decimal n).length - size)) hsplit
    _ = Nat.ofDigitChars 10 ((decimal n).take size) 0 := by
      rw [Nat.mul_add_div (Nat.pow_pos (by decide)), Nat.div_eq_of_lt hlow, Nat.add_zero]

/-- **The first digits of a number are read as the quotient**, as far as it fits. -/
theorem strtol_take_decimal {size : Nat} (hsize : size ≠ 0) :
    strtol ((decimal n).take size)
      = min longMax (n / 10 ^ ((decimal n).length - size) : Nat) := by
  obtain ⟨c, cs, hcons⟩ := List.exists_cons_of_ne_nil
    (show (decimal n).take size ≠ [] by simp [hsize, decimal_ne_nil n])
  have hdigits : ∀ x ∈ c :: cs, x.isDigit = true :=
    fun x hx => isDigit_of_mem_decimal (List.mem_of_mem_take (hcons ▸ hx))
  rw [← ofDigitChars_take_decimal, hcons, strtol_of_isDigit (hdigits c List.mem_cons_self),
    ← List.append_nil (c :: cs), List.takeWhile_append_of_pos hdigits]
  rfl

theorem length_le_columnBehind {k : Nat} (hk : ns[k]? = some n) :
    1 + (decimal n).length ≤ columnBehind ns k := by
  induction ns generalizing k with
  | nil => cases hk
  | cons m ns ih =>
      cases k with
      | zero =>
          obtain rfl := Option.some.inj hk
          exact Nat.le_refl _
      | succ k =>
          rw [columnBehind_cons_succ]
          exact (ih hk).trans (Nat.le_add_left _ _)

/-- A number ends at the blank before the next, or where the text is cut. -/
theorem strtok_decimal_take (n m : Nat) (ns : List Nat) (stop : List Char) (size : Nat) :
    strtok ' ' (decimal n ++ (spaced (m :: ns) ++ stop).take size)
      = decimal n :: strtok ' ' ((spaced (m :: ns) ++ stop).take size) := by
  have hsingle := strtok_single (space_notMem_decimal n) (decimal_ne_nil n)
  cases size with
  | zero =>
      rw [List.take_zero, List.append_nil, hsingle]
      rfl
  | succ size =>
      rw [spaced, List.cons_append, List.take_succ_cons, strtok_append, hsingle,
        strtok_cons_delim]
      rfl

/-- **Numbers in the first part of a line.**  Each is read without the digits that are cut
off, and is 0 if none of them is left. -/
theorem strtol_take_spaced (hstop : ' ' ∉ stop) (hhead : ∀ c ∈ stop.head?, c.isDigit = false)
    (size : Nat) {k : Nat} (hk : ns[k]? = some n) :
    ((strtok ' ' ((spaced ns ++ stop).take size)).map strtol).getD k 0
      = min longMax (n / 10 ^ (columnBehind ns k - size) : Nat) := by
  -- a column of which nothing is left is read as zero, as is a number without its digits
  have hgone : ∀ {n m}, (decimal n).length ≤ m → (0 : Int) = min longMax (n / 10 ^ m : Nat) := by
    intro n m h
    rw [div_pow_eq_zero h]
    rfl
  -- by induction on the columns: the first one is cut, or the buffer goes on behind it
  induction ns generalizing size k with
  | nil => cases hk
  | cons m ns ih =>
      have hbehind := length_le_columnBehind hk
      cases size with
      | zero => exact hgone (by omega)
      | succ size =>
          rw [spaced, List.cons_append, List.take_succ_cons, strtok_cons_delim, List.append_assoc,
            List.take_append]
          by_cases hle : (decimal m).length ≤ size
          · -- the first number is whole
            rw [List.take_of_length_le hle]
            cases ns with
            | nil =>
                cases k with
                | succ k => cases hk
                | zero =>
                    obtain rfl := Option.some.inj hk
                    rw [spaced, List.nil_append, columnBehind_cons_zero,
                      show 1 + (decimal m).length - (size + 1) = 0 by omega, Nat.pow_zero,
                      Nat.div_one, strtok_single ?_ (List.append_ne_nil_of_left_ne_nil
                        (decimal_ne_nil m) _)]
                    · apply strtol_decimal
                      intro c hc
                      rw [List.head?_take] at hc
                      split at hc
                      · cases hc
                      · exact hhead c hc
                    · intro h
                      rcases List.mem_append.mp h with h | h
                      · exact space_notMem_decimal m h
                      · exact hstop (List.mem_of_mem_take h)
            | cons m' ns =>
                rw [strtok_decimal_take]
                cases k with
                | zero =>
                    obtain rfl := Option.some.inj hk
                    have hwhole : strtol (decimal m ++ []) = min longMax m :=
                      strtol_decimal m fun c hc => by cases hc
                    rw [List.append_nil] at hwhole
                    rw [columnBehind_cons_zero,
                      show 1 + (decimal m).length - (size + 1) = 0 by omega, Nat.pow_zero,
                      Nat.div_one]
                    exact hwhole
                | succ k =>
                    have hcut : columnBehind (m :: m' :: ns) (k + 1) - (size + 1)
                        = columnBehind (m' :: ns) k - (size - (decimal m).length) := by
                      rw [columnBehind_cons_succ]
                      omega
                    rw [hcut]
                    exact ih (size - (decimal m).length) hk
          · -- the text ends within it
            rw [Nat.sub_eq_zero_of_le (by omega), List.take_zero, List.append_nil]
            by_cases hzero : size = 0
            · subst hzero
              exact hgone (by omega)
            · have hne : (decimal m).take size ≠ [] := by simp [hzero, decimal_ne_nil m]
              rw [strtok_single (fun h => space_notMem_decimal m (List.mem_of_mem_take h)) hne]
              cases k with
              | zero =>
                  obtain rfl := Option.some.inj hk
                  rw [columnBehind_cons_zero, Nat.add_comm 1, Nat.add_sub_add_right]
                  exact strtol_take_decimal hzero
              | succ k =>
                  have hrest := length_le_columnBehind (show ns[k]? = some n from hk)
                  rw [columnBehind_cons_succ]
                  exact hgone (by omega)

/-- A part of such a line has no more pieces than it has numbers. -/
theorem length_strtok_spaced (hns : ns ≠ []) (hstop : ' ' ∉ stop) (size : Nat) :
    (strtok ' ' ((spaced ns ++ stop).take size)).length ≤ ns.length := by
  obtain ⟨n, ns', rfl⟩ := List.exists_cons_of_ne_nil hns
  cases size with
  | zero => exact Nat.zero_le _
  | succ size =>
      have hle : ((decimal n ++ spaced ns' ++ stop).take size).count ' '
          ≤ (decimal n ++ spaced ns' ++ stop).count ' ' :=
        (List.take_sublist size _).count_le ' '
      -- the space before the first number ends no piece
      have hwhole := count_spaced (n :: ns')
      rw [spaced, List.count_cons_self] at hwhole
      rw [List.count_append, List.count_eq_zero.mpr hstop] at hle
      have hpieces := length_strtok_le ' ' ((decimal n ++ spaced ns' ++ stop).take size)
      rw [spaced, List.cons_append, List.take_succ_cons, strtok_cons_delim]
      omega

end CString
