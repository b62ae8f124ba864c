/-
Variorum/HexText.lean

Numbers in base 16, as C programs print and read them, and fields of bits.

`hexDigits` are the digits of a number, so many of them, and `strtolHex` is
`strtol` with base 16: what was printed is read back, whatever stands behind it,
up to the greatest `long` (`strtolHex_hexText`).  A mask and a shift take a field
out of a number, and fields that are put side by side make a number again
(`and_mask`, `or_field`).

Nothing here mentions a particular program.
-/
import Mathlib.Tactic.Ring
import Variorum.CScan

namespace CString

/-! ### Reading -/

/-- The value of a digit. -/
def hexValue (c : Char) : Option Nat :=
  if c.isDigit then some (c.toNat - 48)
  else if 97 ≤ c.toNat ∧ c.toNat ≤ 102 then some (c.toNat - 87)
  else if 65 ≤ c.toNat ∧ c.toNat ≤ 70 then some (c.toNat - 55)
  else none

/-- The number that the digits at the beginning of a text make, behind another. -/
def hexNumber : Nat → List Char → Nat
  | n, [] => n
  | n, c :: cs => (hexValue c).elim n fun d => hexNumber (16 * n + d) cs

/-- What stands behind `0x` or `0X`. -/
def skipHexPrefix : List Char → List Char
  | '0' :: 'x' :: cs => cs
  | '0' :: 'X' :: cs => cs
  | cs => cs

/-- `strtol` with base 16: a `0x` is skipped, and what is too long ends at the bounds of
a `long`. -/
def strtolHex (text : List Char) : Int :=
  let value (cs : List Char) : Int := hexNumber 0 (skipHexPrefix cs)
  match text.dropWhile isspace with
  | '-' :: cs => max (-longMax - 1) (-value cs)
  | '+' :: cs => min longMax (value cs)
  | cs => min longMax (value cs)

/-! ### Printing -/

/-- A hexadecimal digit, in small letters. -/
def hexDigit (d : Nat) : Char := if d < 10 then Char.ofNat (48 + d) else Char.ofNat (87 + d)

/-- The last digits of a number. -/
def hexDigits : Nat → Nat → List Char
  | 0, _ => []
  | width + 1, n => hexDigits width (n / 16) ++ [hexDigit (n % 16)]

/-- `0x%016lx`, as the kernel prints a register. -/
def hexText (n : Nat) : List Char := '0' :: 'x' :: hexDigits 16 n

variable {n m width : Nat} {rest : List Char}

theorem hexValue_hexDigit {d : Nat} (h : d < 16) : hexValue (hexDigit d) = some d := by
  have hall : ∀ d < 16, hexValue (hexDigit d) = some d := by decide
  exact hall d h

@[simp] theorem length_hexDigits (width n : Nat) : (hexDigits width n).length = width := by
  induction width generalizing n with
  | zero => rfl
  | succ width ih => rw [hexDigits, List.length_append, ih, List.length_singleton]

/-- Digits are read one after the other. -/
theorem hexNumber_hexDigits (width n m : Nat) (rest : List Char) :
    hexNumber m (hexDigits width n ++ rest) = hexNumber (m * 16 ^ width + n % 16 ^ width) rest := by
  induction width generalizing n m rest with
  | zero => simp [hexDigits, Nat.mod_one]
  | succ width ih =>
      have hdigit := hexValue_hexDigit (Nat.mod_lt n (show 0 < 16 by decide))
      have hsum : 16 * (m * 16 ^ width + n / 16 % 16 ^ width) + n % 16 =
          m * 16 ^ (width + 1) + n % 16 ^ (width + 1) := by
        rw [Nat.pow_succ', Nat.mod_mul]
        ring
      rw [hexDigits, List.append_assoc, ih, List.singleton_append, hexNumber, hdigit,
        Option.elim_some, hsum]

/-- **What was printed is read back**, where the text ends and up to the greatest `long`. -/
theorem strtolHex_hexText (hn : n < 16 ^ 16) (hrest : ∀ c ∈ rest.head?, hexValue c = none) :
    strtolHex (hexText n ++ rest) = min longMax n := by
  have hnumber : hexNumber 0 (hexDigits 16 n ++ rest) = n := by
    rw [hexNumber_hexDigits, Nat.zero_mul, Nat.zero_add, Nat.mod_eq_of_lt hn]
    cases rest with
    | nil => rfl
    | cons c rest => rw [hexNumber, hrest c rfl, Option.elim_none]
  have hread : strtolHex (hexText n ++ rest) =
      min longMax (hexNumber 0 (hexDigits 16 n ++ rest) : Nat) := rfl
  rw [hread, hnumber]

/-! ### Fields of bits -/

/-- So many bits of a number from a place on. -/
def bitField (place width n : Nat) : Nat := n / 2 ^ place % 2 ^ width

theorem bitField_lt (place width n : Nat) : bitField place width n < 2 ^ width :=
  Nat.mod_lt _ (Nat.two_pow_pos width)

/-- A mask leaves a field in its place. -/
theorem and_mask (n place width : Nat) :
    n &&& (2 ^ width - 1) <<< place = bitField place width n <<< place := by
  refine Nat.eq_of_testBit_eq fun i => ?_
  rw [Nat.testBit_and, Nat.testBit_shiftLeft, Nat.testBit_shiftLeft, bitField,
    Nat.testBit_two_pow_sub_one, Nat.testBit_mod_two_pow, Nat.testBit_div_two_pow]
  by_cases hi : place ≤ i
  · by_cases hw : i - place < width
    · simp [hi, hw]
    · simp [hw]
  · simp [hi]

/-- The mask of the lowest field. -/
theorem and_lowMask (n width : Nat) : n &&& (2 ^ width - 1) = bitField 0 width n := by
  rw [Nat.and_two_pow_sub_one_eq_mod, bitField, Nat.pow_zero, Nat.div_one]

/-- A field of a number that has been shifted. -/
theorem bitField_shiftRight (place width shift n : Nat) :
    bitField place width (n >>> shift) = bitField (shift + place) width n := by
  rw [bitField, bitField, Nat.shiftRight_eq_div_pow, Nat.div_div_eq_div_mul, Nat.pow_add]

/-- A field next to a smaller one. -/
theorem or_field (high : Nat) {low place : Nat} (h : low < 2 ^ place) :
    high <<< place ||| low = 2 ^ place * high + low := by
  rw [Nat.shiftLeft_eq, Nat.mul_comm, Nat.two_pow_add_eq_or_of_lt h]

end CString
