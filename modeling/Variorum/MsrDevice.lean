/-
Variorum/MsrDevice.lean

The model specific registers of the node and the two system calls that reach
them, `pread` and `pwrite` on the per-CPU device files.

A `Machine` is the contents of every register of every CPU together with the
accesses made so far.  A `Driver` says which accesses fail: any access, at any
point of the history, may be refused.  A refused access changes no register.
The log is what "touches a CPU" means below: an access is recorded whether it
succeeds or not.
-/
import Mathlib.Tactic.TypeStar
import Variorum.History

namespace Variorum

inductive Direction
  | read
  | write
  deriving DecidableEq, Repr

/-- One `pread` or `pwrite` of a register. -/
structure Access where
  dir : Direction
  cpu : Nat
  msr : Nat
  deriving DecidableEq, Repr

/-- Register contents by CPU and address, and the accesses made so far, the
latest last. -/
structure Machine where
  msr : Nat → Nat → BitVec 64
  log : List Access

/-- Which accesses the kernel refuses.  The number is the position of the
access in the history. -/
structure Driver where
  fails : Nat → Access → Bool

namespace Machine

/-- Contents after storing `val` in register `msr` of `cpu`. -/
def store (m : Machine) (cpu msr : Nat) (val : BitVec 64) : Nat → Nat → BitVec 64 :=
  Function.update m.msr cpu (Function.update (m.msr cpu) msr val)

/-- `pread(fd, val, 8, msr)` on the file of `cpu`; `none` when fewer than eight
bytes come back. -/
def pread (d : Driver) (m : Machine) (cpu msr : Nat) : Option (BitVec 64) × Machine :=
  let a : Access := ⟨.read, cpu, msr⟩
  (if d.fails m.log.length a then none else some (m.msr cpu msr),
    { m with log := m.log ++ [a] })

/-- `pwrite(fd, &val, 8, msr)` on the file of `cpu`; whether all eight bytes
were taken. -/
def pwrite (d : Driver) (m : Machine) (cpu msr : Nat) (val : BitVec 64) : Bool × Machine :=
  let a : Access := ⟨.write, cpu, msr⟩
  if d.fails m.log.length a then (false, { m with log := m.log ++ [a] })
  else (true, { msr := m.store cpu msr val, log := m.log ++ [a] })

variable (d : Driver) (m : Machine) (cpu msr : Nat) (val : BitVec 64)

@[simp] theorem store_self : m.store cpu msr val cpu msr = val := by
  simp [store]

theorem store_of_ne {cpu' msr' : Nat} (h : cpu' ≠ cpu ∨ msr' ≠ msr) :
    m.store cpu msr val cpu' msr' = m.msr cpu' msr' := by
  unfold store
  by_cases hc : cpu' = cpu
  · subst hc
    rw [Function.update_self, Function.update_of_ne (h.resolve_left (by simp))]
  · rw [Function.update_of_ne hc]

/-- Storing changes nothing exactly when the value is there. -/
theorem store_eq_iff : m.store cpu msr val = m.msr ↔ m.msr cpu msr = val := by
  rw [store, Function.update_eq_self_iff, Function.update_eq_self_iff, eq_comm]

@[simp] theorem pread_msr : (m.pread d cpu msr).2.msr = m.msr := rfl

@[simp] theorem pread_log :
    (m.pread d cpu msr).2.log = m.log ++ [⟨.read, cpu, msr⟩] := rfl

theorem pwrite_of_ok (h : d.fails m.log.length ⟨.write, cpu, msr⟩ = false) :
    m.pwrite d cpu msr val
      = (true, ⟨m.store cpu msr val, m.log ++ [⟨.write, cpu, msr⟩]⟩) := by
  simp [pwrite, h]

theorem pwrite_of_fail (h : d.fails m.log.length ⟨.write, cpu, msr⟩ = true) :
    m.pwrite d cpu msr val
      = (false, { m with log := m.log ++ [⟨.write, cpu, msr⟩] }) := by
  simp [pwrite, h]

@[simp] theorem pwrite_log :
    (m.pwrite d cpu msr val).2.log = m.log ++ [⟨.write, cpu, msr⟩] := by
  cases h : d.fails m.log.length ⟨.write, cpu, msr⟩
  · rw [pwrite_of_ok d m cpu msr val h]
  · rw [pwrite_of_fail d m cpu msr val h]

/-- No access on the way from `m` to `m'` was refused. -/
def Clean (m' : Machine) : Prop := History.Clean d.fails m.log m'.log

end Machine

end Variorum
