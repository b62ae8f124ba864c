/-
Variorum/Error.lean

The error codes of `enum variorum_error_e`, as the C `int` a function returns.
-/
import Mathlib.Tactic.TypeStar

namespace Variorum

/-- `enum variorum_error_e`. -/
inductive VariorumError
  | runtime
  | raplInit
  | msrClose
  | msrRead
  | arrayBounds
  | platformEnv
  | msrModule
  | msrWrite
  | msrBatch
  | inval
  | unsupportedPlatform
  | unsupportedArch
  | featureNotImplemented
  | featureNotAvailable
  | function
  deriving DecidableEq, Repr

/-- The value of an error constant. -/
def VariorumError.code : VariorumError → Int
  | runtime => -1
  | raplInit => -2
  | msrClose => -3
  | msrRead => -4
  | arrayBounds => -5
  | platformEnv => -6
  | msrModule => -7
  | msrWrite => -8
  | msrBatch => -9
  | inval => -10
  | unsupportedPlatform => -11
  | unsupportedArch => -12
  | featureNotImplemented => -13
  | featureNotAvailable => -14
  | function => -15

/-- Every error constant is a failure to a caller that tests `< 0` or `!= 0`. -/
theorem VariorumError.code_neg (e : VariorumError) : e.code < 0 := by
  cases e <;> decide

@[simp] theorem VariorumError.code_ne_zero (e : VariorumError) : e.code ≠ 0 :=
  Int.ne_of_lt e.code_neg

end Variorum
