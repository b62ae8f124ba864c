/-
Variorum/Masked.lean

Masked updates of a word: the bits under a mask are replaced, the others stay.

`put ones value x` is `(x & ~ones) | value`.  Two updates in a row are one
update (`put_put`), so a sequence of them over constant masks is one `put` with
a constant mask and a constant value.  Of that a reader needs three facts, all
for a value that stays under its mask: the bits outside the mask are kept
(`getLsbD_put_of_outside`), a field inside it is read off the value
(`put_and`), and a later update under the same mask forgets the earlier one
(`put_put_self`).

A word is also updated field by field, each field cleared and set in turn
(`putFields`).  The result then is a given word exactly if that word holds the
fields and agrees with the first one elsewhere (`putFields_eq_iff`).

Nothing here mentions a particular register.
-/
import Mathlib.Algebra.Group.Nat.Defs
import Mathlib.Data.Nat.Notation

namespace Masked

variable {w : Nat}

/-- Replace the bits under `ones` by those of `value`. -/
def put (ones value x : BitVec w) : BitVec w := (x &&& ~~~ones) ||| value

variable (ones value ones' value' field x : BitVec w)

theorem getLsbD_put (i : Nat) :
    (put ones value x).getLsbD i
      = ((x.getLsbD i && (decide (i < w) && !ones.getLsbD i)) || value.getLsbD i) := by
  rw [put, BitVec.getLsbD_or, BitVec.getLsbD_and, BitVec.getLsbD_not]

/-- Two updates one after the other are one update of both masks. -/
theorem put_put :
    put ones' value' (put ones value x)
      = put (ones ||| ones') ((value &&& ~~~ones') ||| value') x := by
  apply BitVec.eq_of_getLsbD_eq
  intro i hi
  simp only [getLsbD_put, BitVec.getLsbD_or, BitVec.getLsbD_and, BitVec.getLsbD_not, hi,
    decide_true, Bool.true_and]
  cases x.getLsbD i <;> cases ones.getLsbD i <;> cases ones'.getLsbD i <;>
    cases value.getLsbD i <;> rfl

variable {ones value ones' value' field x}

/-- A value that stays under its mask sets no other bit. -/
theorem getLsbD_of_within (hvalue : value &&& ~~~ones = 0#w) {i : Nat}
    (hi : ones.getLsbD i = false) : value.getLsbD i = false := by
  by_cases hw : i < w
  · have hbit := congrArg (BitVec.getLsbD · i) hvalue
    simp only [BitVec.getLsbD_and, BitVec.getLsbD_not, hi, hw, decide_true, Bool.not_false,
      Bool.and_true, BitVec.getLsbD_zero] at hbit
    exact hbit
  · exact BitVec.getLsbD_of_ge _ _ (Nat.not_lt.mp hw)

/-- Bits outside the mask are kept. -/
theorem getLsbD_put_of_outside (hvalue : value &&& ~~~ones = 0#w) {i : Nat}
    (hi : ones.getLsbD i = false) : (put ones value x).getLsbD i = x.getLsbD i := by
  rw [getLsbD_put, getLsbD_of_within hvalue hi, hi, Bool.or_false]
  by_cases hw : i < w
  · simp [hw]
  · simp [BitVec.getLsbD_of_ge _ _ (Nat.not_lt.mp hw)]

/-- What a field inside the mask holds is the value's. -/
theorem put_and (hfield : field &&& ~~~ones = 0#w) :
    put ones value x &&& field = value &&& field := by
  apply BitVec.eq_of_getLsbD_eq
  intro i hi
  have hbit := congrArg (BitVec.getLsbD · i) hfield
  simp only [BitVec.getLsbD_and, BitVec.getLsbD_not, hi, decide_true, Bool.true_and,
    BitVec.getLsbD_zero] at hbit
  simp only [BitVec.getLsbD_and, getLsbD_put, hi, decide_true, Bool.true_and]
  revert hbit
  cases x.getLsbD i <;> cases ones.getLsbD i <;> cases value.getLsbD i <;>
    cases field.getLsbD i <;> simp

/-- A second update under the same mask forgets the first. -/
theorem put_put_self (hvalue : value &&& ~~~ones = 0#w) :
    put ones value' (put ones value x) = put ones value' x := by
  rw [put_put, hvalue, BitVec.or_self, BitVec.zero_or]

/-! ### Several fields -/

section Fields

/-- A field of a word, `width` bits from `low` on, and the value that is to go there. -/
structure Field (w : Nat) where
  low : Nat
  width : Nat
  value : BitVec w

namespace Field

/-- The bits of a field. -/
def Covers (f : Field w) (i : Nat) : Prop := f.low ≤ i ∧ i < f.low + f.width

instance (f : Field w) (i : Nat) : Decidable (f.Covers i) := inferInstanceAs (Decidable (_ ∧ _))

/-- Bit `i` of the value, shifted to its field.  A value that is too wide has bits behind
the field as well. -/
def bit (f : Field w) (i : Nat) : Bool := decide (f.low ≤ i) && f.value.getLsbD (i - f.low)

/-- Clear the field and put its value there. -/
def putIn (f : Field w) (x : BitVec w) : BitVec w :=
  put (BitVec.ofNat w (2 ^ f.width - 1) <<< f.low) (f.value <<< f.low) x

end Field

/-- Put in one field after the other. -/
def putFields (fields : List (Field w)) (x : BitVec w) : BitVec w :=
  fields.foldl (fun x f => f.putIn x) x

/-- A word holds the values of the fields.  Its other bits are those of `found`, and those
of values that are too wide. -/
structure HoldsFields (fields : List (Field w)) (found x : BitVec w) : Prop where
  inside : ∀ f ∈ fields, ∀ i < w, f.Covers i → x.getLsbD i = f.bit i
  outside : ∀ i < w, (∀ f ∈ fields, ¬ f.Covers i) →
    x.getLsbD i = (found.getLsbD i || fields.any (·.bit i))

variable {f : Field w} {fields : List (Field w)} {found x : BitVec w} {i : Nat}

theorem Field.bit_of_lt (h : i < f.low) : f.bit i = false := by
  rw [bit, decide_eq_false (Nat.not_le.mpr h), Bool.false_and]

/-- A bit after one assignment: that of the value inside the field, and outside it what
was there. -/
theorem Field.getLsbD_putIn (f : Field w) (x : BitVec w) (hi : i < w) :
    (f.putIn x).getLsbD i = if f.Covers i then f.bit i else (x.getLsbD i || f.bit i) := by
  have hvalue : (f.value <<< f.low).getLsbD i = f.bit i := by
    rw [BitVec.getLsbD_shiftLeft, bit]
    by_cases hle : f.low ≤ i
    · simp [hi, hle]
    · simp [hle]
  have hones : (BitVec.ofNat w (2 ^ f.width - 1) <<< f.low).getLsbD i = decide (f.Covers i) := by
    rw [BitVec.getLsbD_shiftLeft, BitVec.getLsbD_ofNat, Nat.testBit_two_pow_sub_one]
    simp only [Covers]
    grind
  rw [putIn, getLsbD_put, hvalue, hones]
  by_cases hcovers : f.Covers i <;> simp [hcovers, hi]

/-- Bits outside all fields are as they were, but for what the values have there. -/
theorem getLsbD_putFields_of_outside (hi : i < w) (h : ∀ f ∈ fields, ¬ f.Covers i) :
    (putFields fields x).getLsbD i = (x.getLsbD i || fields.any (·.bit i)) := by
  induction fields generalizing x with
  | nil => exact (Bool.or_false _).symm
  | cons f fields ih =>
      obtain ⟨hf, hfields⟩ := List.forall_mem_cons.mp h
      show (putFields fields (f.putIn x)).getLsbD i = _
      rw [ih hfields, f.getLsbD_putIn x hi, if_neg hf, List.any_cons, Bool.or_assoc]

/-- Bits inside a field, while the fields stand in order. -/
theorem getLsbD_putFields_of_inside (hi : i < w)
    (horder : fields.Pairwise fun f g => f.low + f.width ≤ g.low) (hf : f ∈ fields)
    (hcovers : f.Covers i) : (putFields fields x).getLsbD i = f.bit i := by
  induction fields generalizing x with
  | nil => exact absurd hf List.not_mem_nil
  | cons g fields ih =>
      obtain ⟨hg, hrest⟩ := List.pairwise_cons.mp horder
      show (putFields fields (g.putIn x)).getLsbD i = _
      rcases List.mem_cons.mp hf with rfl | hf
      · -- the fields behind it begin above the bit
        have hbehind : ∀ g ∈ fields, i < g.low := fun g hmem =>
          Nat.lt_of_lt_of_le hcovers.2 (hg g hmem)
        have hany : fields.any (·.bit i) = false :=
          List.any_eq_false.mpr fun g hmem => by simp [Field.bit_of_lt (hbehind g hmem)]
        rw [getLsbD_putFields_of_outside hi
            fun g hmem hc => absurd hc.1 (Nat.not_le.mpr (hbehind g hmem)),
          f.getLsbD_putIn x hi, if_pos hcovers, hany, Bool.or_false]
      · exact ih hrest hf

/-- **Putting in the fields makes a word exactly if it holds them.** -/
theorem putFields_eq_iff (horder : fields.Pairwise fun f g => f.low + f.width ≤ g.low) :
    putFields fields found = x ↔ HoldsFields fields found x := by
  constructor
  · rintro rfl
    exact ⟨fun f hf i hi => getLsbD_putFields_of_inside hi horder hf,
      fun i hi => getLsbD_putFields_of_outside hi⟩
  · rintro ⟨hinside, houtside⟩
    apply BitVec.eq_of_getLsbD_eq
    intro i hi
    by_cases h : ∃ f ∈ fields, f.Covers i
    · obtain ⟨f, hf, hcovers⟩ := h
      rw [getLsbD_putFields_of_inside hi horder hf hcovers, hinside f hf i hi hcovers]
    · have hout : ∀ f ∈ fields, ¬ f.Covers i := fun f hf hc => h ⟨f, hf, hc⟩
      rw [getLsbD_putFields_of_outside hi hout, houtside i hi hout]

end Fields

end Masked
