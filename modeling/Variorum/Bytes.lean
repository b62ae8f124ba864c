/-
Variorum/Bytes.lean

A block of bytes as a decoder reads it.

A read beyond the block has no result.  `be` is a big-endian number of several
bytes: it has a result exactly where all of them are in the block
(`be_isSome_iff`), and then it is `value` (`be_eq`).  `strEq` and `prefixEq` are
the comparisons by `strcmp` and `strncmp` with a text that is given; on a field
of the block they compare the string that stands in it (`strEq_eq`,
`prefixEq_eq`).  `strncpy` copies the beginning of a string.

Nothing here mentions a particular format.
-/
import Mathlib.Data.BitVec
import Mathlib.Data.List.Basic
import Mathlib.Tactic.Linarith
import Mathlib.Tactic.Ring

namespace Bytes

/-- The bytes of a text. -/
def ascii (text : String) : List (BitVec 8) := text.toList.map fun c => BitVec.ofNat 8 c.toNat

/-- A block of memory, of which only the first bytes may be read. -/
structure Block where
  size : Nat
  byte : Nat → BitVec 8

namespace Block

variable (b : Block)

/-- The byte at an address. -/
def get (a : Nat) : Option (BitVec 8) := if a < b.size then some (b.byte a) else none

/-- The number that `n` bytes make, the first one at the top. -/
def value : Nat → Nat → Nat
  | 0, _ => 0
  | n + 1, a => 256 ^ n * (b.byte a).toNat + value n (a + 1)

/-- The same, read from the block. -/
def be : Nat → Nat → Option Nat
  | 0, _ => some 0
  | n + 1, a => do
      let x ← b.get a
      let y ← be n (a + 1)
      return 256 ^ n * x.toNat + y

/-- The string in a field of `n` bytes. -/
def cstr (n a : Nat) : List (BitVec 8) :=
  ((List.range n).map fun k => b.byte (a + k)).takeWhile (· ≠ 0#8)

/-- Whether `strcmp` finds no difference from `lit`. -/
def strEq : List (BitVec 8) → Nat → Option Bool
  | [], a => (b.get a).map (· == 0#8)
  | c :: cs, a => (b.get a).bind fun x => if x = c then strEq cs (a + 1) else some false

/-- Whether `strncmp` finds none in the length of `lit`. -/
def prefixEq : List (BitVec 8) → Nat → Option Bool
  | [], _ => some true
  | c :: cs, a => (b.get a).bind fun x => if x = c then prefixEq cs (a + 1) else some false

/-- What `strncpy` leaves in a buffer of `n` bytes: the string as far as it fits, and zeros
behind it. -/
def strncpy : Nat → Nat → Option (List (BitVec 8))
  | 0, _ => some []
  | n + 1, a => (b.get a).bind fun x =>
      if x = 0#8 then some (List.replicate (n + 1) 0#8) else (strncpy n (a + 1)).map (x :: ·)

variable {b} {a n : Nat} {lit : List (BitVec 8)}

/-! ### Numbers -/

theorem get_eq (h : a < b.size) : b.get a = some (b.byte a) := if_pos h

theorem get_isSome_iff : (b.get a).isSome ↔ a < b.size := by
  rw [get]
  split <;> simp [*]

theorem be_eq (h : a + n ≤ b.size) : b.be n a = some (b.value n a) := by
  induction n generalizing a with
  | zero => rfl
  | succ n ih =>
      rw [be, get_eq (by omega), ih (by omega)]
      rfl

/-- **A number can be read** exactly where its last byte is in the block. -/
theorem be_isSome_iff (hn : 0 < n) : (b.be n a).isSome ↔ a + n ≤ b.size := by
  constructor
  · intro h
    induction n generalizing a with
    | zero => exact absurd hn (Nat.lt_irrefl 0)
    | succ n ih =>
        obtain ⟨v, hv⟩ := Option.isSome_iff_exists.mp h
        obtain ⟨x, hx, hrest⟩ := Option.bind_eq_some_iff.mp hv
        obtain ⟨y, hy, -⟩ := Option.bind_eq_some_iff.mp hrest
        rcases Nat.eq_zero_or_pos n with rfl | hpos
        · exact get_isSome_iff.mp (Option.isSome_iff_exists.mpr ⟨x, hx⟩)
        · have := ih hpos (Option.isSome_iff_exists.mpr ⟨y, hy⟩)
          omega
  · intro h
    rw [be_eq h]
    rfl

/-! ### Strings -/

theorem cstr_succ : b.cstr (n + 1) a
    = if b.byte a = 0#8 then [] else b.byte a :: b.cstr n (a + 1) := by
  rw [cstr, List.range_succ_eq_map, List.map_cons, List.map_map]
  by_cases h : b.byte a = 0#8
  · rw [if_pos h, List.takeWhile_cons_of_neg (by simp [h])]
  · rw [if_neg h, List.takeWhile_cons_of_pos (by simp [h]), cstr]
    congr 3
    funext k
    show b.byte (a + (k + 1)) = b.byte (a + 1 + k)
    rw [Nat.add_comm k 1, Nat.add_assoc]

/-- **The string in a field** is what `strcmp` compares a shorter text with. -/
theorem strEq_eq (hsize : a + n ≤ b.size) (hlen : lit.length < n) (hzero : 0#8 ∉ lit) :
    b.strEq lit a = some (b.cstr n a == lit) := by
  induction lit generalizing a n with
  | nil =>
      obtain ⟨n, rfl⟩ : ∃ k, n = k + 1 := ⟨n - 1, by simp at hlen; omega⟩
      rw [strEq, get_eq (by omega), cstr_succ]
      split <;> simp [*]
  | cons c cs ih =>
      obtain ⟨n, rfl⟩ : ∃ k, n = k + 1 := ⟨n - 1, by simp at hlen; omega⟩
      obtain ⟨hc, hcs⟩ := List.ne_and_not_mem_of_not_mem_cons hzero
      rw [strEq, get_eq (by omega), cstr_succ, Option.bind_some]
      by_cases h : b.byte a = c
      · have hne : b.byte a ≠ 0#8 := fun h0 => hc (h0.symm.trans h)
        rw [if_pos h, if_neg hne, ih (n := n) (by omega) (by simpa using hlen) hcs, h]
        simp
      · rw [if_neg h]
        split
        · rfl
        · simp [h]

/-- **The beginning of the string in a field**, likewise. -/
theorem prefixEq_eq (hsize : a + n ≤ b.size) (hlen : lit.length ≤ n) (hzero : 0#8 ∉ lit) :
    b.prefixEq lit a = some (lit.isPrefixOf (b.cstr n a)) := by
  induction lit generalizing a n with
  | nil => simp [prefixEq]
  | cons c cs ih =>
      obtain ⟨n, rfl⟩ : ∃ k, n = k + 1 := ⟨n - 1, by simp at hlen; omega⟩
      obtain ⟨hc, hcs⟩ := List.ne_and_not_mem_of_not_mem_cons hzero
      rw [prefixEq, get_eq (by omega), cstr_succ, Option.bind_some]
      by_cases h : b.byte a = c
      · have hne : b.byte a ≠ 0#8 := fun h0 => hc (h0.symm.trans h)
        rw [if_pos h, if_neg hne, ih (n := n) (by omega) (by simpa using hlen) hcs, h]
        simp
      · rw [if_neg h]
        split
        · rfl
        · have hne : (c == b.byte a) = false := beq_eq_false_iff_ne.mpr (Ne.symm h)
          rw [List.isPrefixOf_cons_cons, hne, Bool.false_and]

/-- A comparison reads nothing behind the field. -/
theorem strEq_isSome (hsize : a + lit.length < b.size) : (b.strEq lit a).isSome := by
  induction lit generalizing a with
  | nil => simpa [strEq] using get_isSome_iff.mpr hsize
  | cons c cs ih =>
      rw [List.length_cons] at hsize
      rw [strEq, get_eq (by omega), Option.bind_some]
      split
      · exact ih (by omega)
      · rfl

end Block

end Bytes
