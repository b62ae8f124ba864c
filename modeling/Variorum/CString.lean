/-
Variorum/CString.lean

Texts as C programs print them.

`decimal` is the conversion `%d`; it is injective and its length is known from
the size of the number.  `fixed` is the conversion `%lf` with a number of
places.  `snprintf` keeps what fits into its buffer with the terminating null,
`sprintf` has no result where the text does not fit, and neither has `concat`,
which puts texts together.

Nothing here mentions a particular program.
-/
import Mathlib.Algebra.Group.Int.Defs
import Mathlib.Algebra.Group.Nat.Defs
import Mathlib.Data.List.Basic
import Mathlib.Data.Rat.Defs

namespace CString

/-- The conversion `%d` of a number that is not negative. -/
def decimal (n : Nat) : List Char := Nat.toDigits 10 n

/-- The conversion `%d`. -/
def decimalInt : Int → List Char
  | .ofNat n => decimal n
  | .negSucc n => '-' :: decimal (n + 1)

/-- The nearest multiple of a power of ten below one, and of two the even one. -/
def scaled (places : Nat) (x : Rat) : Nat :=
  let whole := 10 ^ places * x.num.natAbs / x.den
  let rest := 10 ^ places * x.num.natAbs % x.den
  if 2 * rest < x.den ∨ 2 * rest = x.den ∧ whole % 2 = 0 then whole else whole + 1

/-- The conversion `%0.2lf` for two places, `%lf` for six. -/
def fixed (places : Nat) (x : Rat) : List Char :=
  let n := scaled places x
  (if x < 0 then ['-'] else []) ++ decimal (n / 10 ^ places) ++
    '.' :: (decimal (n % 10 ^ places)).leftpad places '0'

/-- `snprintf` into a buffer of a size. -/
def snprintf (size : Nat) (text : List Char) : List Char := text.take (size - 1)

/-- `sprintf` into a buffer of a size. -/
def sprintf (size : Nat) (text : List Char) : Option (List Char) :=
  if text.length < size then some text else none

/-- Texts that fit a buffer each, of one size, and another one together. -/
def Fit (piece whole : Nat) (texts : List (List Char)) : Prop :=
  (∀ t ∈ texts, t.length < piece) ∧ texts.flatten.length < whole

instance (piece whole : Nat) (texts : List (List Char)) : Decidable (Fit piece whole texts) :=
  inferInstanceAs (Decidable (_ ∧ _))

/-- `sprintf` into one buffer and from there, by `strcat`, behind what is in another. -/
def concat (piece whole : Nat) (texts : List (List Char)) : Option (List Char) :=
  if Fit piece whole texts then some texts.flatten else none

variable {m n size : Nat} {c : Char} {text : List Char}

theorem decimal_injective : Function.Injective decimal := by
  intro m n h
  have hvalue := congrArg (Nat.ofDigitChars 10 · 0) h
  simpa only [decimal, Nat.ofDigitChars_ten_toDigits] using hvalue

theorem decimal_length_le_iff {w : Nat} (h : 0 < w) : (decimal n).length ≤ w ↔ n < 10 ^ w :=
  Nat.length_toDigits_le_iff (by decide) h

/-- An `int` that is not negative has ten digits at most. -/
theorem length_decimal_le (h : n < 2 ^ 31) : (decimal n).length ≤ 10 :=
  (decimal_length_le_iff (by decide)).mpr (h.trans (by decide))

theorem isDigit_of_mem_decimal (h : c ∈ decimal n) : c.isDigit = true :=
  Nat.isDigit_of_mem_toDigits (by decide) (by decide) h

/-- The digits a text begins with. -/
theorem takeWhile_decimal (n : Nat) {rest : List Char}
    (h : ∀ c ∈ rest.head?, c.isDigit = false) :
    (decimal n ++ rest).takeWhile Char.isDigit = decimal n := by
  rw [List.takeWhile_append_of_pos fun c hc => isDigit_of_mem_decimal hc]
  cases rest with
  | nil => exact List.append_nil _
  | cons c rest =>
      rw [List.takeWhile_cons_of_neg, List.append_nil]
      rw [h c rfl]
      exact Bool.false_ne_true

theorem snprintf_of_lt (h : text.length < size) : snprintf size text = text :=
  List.take_of_length_le (by omega)

theorem length_snprintf_lt (h : 0 < size) : (snprintf size text).length < size := by
  rw [snprintf, List.length_take]
  omega

theorem decimalInt_natCast (n : Nat) : decimalInt n = decimal n := rfl

/-- Only digits and the sign. -/
theorem of_mem_decimalInt {x : Int} (h : c ∈ decimalInt x) : c.isDigit = true ∨ c = '-' := by
  cases x with
  | ofNat n => exact .inl (isDigit_of_mem_decimal h)
  | negSucc n =>
      rcases List.mem_cons.mp h with h | h
      · exact .inr h
      · exact .inl (isDigit_of_mem_decimal h)

/-- Only digits, the sign and the point. -/
theorem of_mem_fixed {places : Nat} {x : Rat} (h : c ∈ fixed places x) :
    c.isDigit = true ∨ c = '-' ∨ c = '.' := by
  unfold fixed at h
  rw [List.append_assoc] at h
  rcases List.mem_append.mp h with h | h
  · split at h
    · exact .inr (.inl (List.mem_singleton.mp h))
    · cases h
  · rcases List.mem_append.mp h with h | h
    · exact .inl (isDigit_of_mem_decimal h)
    · rcases List.mem_cons.mp h with h | h
      · exact .inr (.inr h)
      · rw [List.leftpad] at h
        rcases List.mem_append.mp h with h | h
        · rw [List.eq_of_mem_replicate h]
          exact .inl rfl
        · exact .inl (isDigit_of_mem_decimal h)

theorem concat_eq_some_iff {piece whole : Nat} {texts : List (List Char)} :
    concat piece whole texts = some text ↔ Fit piece whole texts ∧ text = texts.flatten := by
  unfold concat
  by_cases h : Fit piece whole texts
  · rw [if_pos h, Option.some.injEq, and_iff_right h]
    exact eq_comm
  · rw [if_neg h]
    exact iff_of_false nofun fun h' => h h'.1

theorem decimalInt_injective : Function.Injective decimalInt := by
  have hsign : ∀ m n : Nat, decimal m ≠ '-' :: decimal n := by
    intro m n h
    have hmem : '-' ∈ decimal m := h ▸ List.mem_cons_self
    exact absurd (isDigit_of_mem_decimal hmem) (by decide)
  intro x y h
  cases x with
  | ofNat m =>
      cases y with
      | ofNat n => exact congrArg Int.ofNat (decimal_injective h)
      | negSucc n => exact absurd h (hsign m (n + 1))
  | negSucc m =>
      cases y with
      | ofNat n => exact absurd h.symm (hsign n (m + 1))
      | negSucc n =>
          have heq := decimal_injective (List.cons.inj h).2
          exact congrArg Int.negSucc (Nat.succ.inj heq)

end CString
