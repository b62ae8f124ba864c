/-
Variorum/JunoPower.lean

The sensors of a Juno r2, and what becomes of files that cannot be read.

Both functions open four files and read a number from each.  They test the
descriptors with `!fd`, which finds descriptor 0 and not the -1 of a failure, and
what `read_file_ui64` returns with `!bytes`, which finds an empty file and not a
failed read.  A failure goes on as a success, with the variable as it was; the
errors that are found leave the files open.  So the two keep to what is asked
exactly where all files are opened and read (`errorsReported_iff`).
-/
import Variorum.CScan
import Variorum.PowerJsonSpec

namespace Variorum

open CString
open Json (Object)
open PowerJson

namespace Arm

/-! ### Files -/

/-- The sensors that are read: `power1_input` to `power4_input` of `hwmon0`. -/
inductive Sensor
  | sys
  | big
  | little
  | gpu
  deriving DecidableEq, Repr

/-- In the order in which they are opened, read and closed. -/
def Sensor.all : List Sensor := [.sys, .big, .little, .gpu]

/-- What reading an open file comes to: a failure, no byte, or a number on a line. -/
inductive ReadOutcome
  | fails
  | empty
  | number (v : BitVec 64)

/-- What `open` and `read` come to for a file; -1 is no descriptor. -/
structure Outcome where
  fd : Option Nat
  read : ReadOutcome

/-- The line in a file. -/
def line (v : BitVec 64) : List Char := decimal v.toNat ++ ['\n']

/-- `read(file, buf, 32)`, with the bytes that are delivered; nothing is read without a
descriptor. -/
def Outcome.readBuf (file : Outcome) : Int × List Char :=
  match file.fd, file.read with
  | some _, .number v => (((line v).take 32).length, (line v).take 32)
  | some _, .empty => (0, [])
  | _, _ => (-1, [])

/-- `read_file_ui64`: its return value, and the number if what is stored comes from the file. -/
def readFileUi64 (file : Outcome) : Int × Option (BitVec 64) :=
  let (bytesRead, buf) := file.readBuf
  if bytesRead = 0 then (0, none) else (bytesRead, scanU64 buf)

/-- `close`, on the descriptors that are open. -/
def close (fd : Option Nat) (fds : List Nat) : List Nat := fds.filter fun x => some x ≠ fd

/-! ### The functions -/

section Functions

variable (files : Sensor → Outcome) (junk : Sensor → BitVec 64)

/-- The lines that both functions begin with: the four variables, or an error, and the descriptors
that are open.  A variable that no number is stored in has what it had before. -/
def readSensors : Option (Sensor → BitVec 64) × List Nat :=
  let fds := Sensor.all.filterMap fun x => (files x).fd
  if Sensor.all.any fun x => (files x).fd == some 0 then (none, fds)
  else if Sensor.all.any fun x => (readFileUi64 (files x)).1 == 0 then (none, fds)
  else (some fun x => (readFileUi64 (files x)).2.getD (junk x),
    Sensor.all.foldl (fun fds x => close (files x).fd fds) fds)

/-- `(double)(val) / 1000.0f`, exactly. -/
def milliwatts (val : BitVec 64) : ℚ := (val.toNat : ℚ) / 1000

/-- What `get_power_data` prints: a header, and the numbers of its line. -/
structure PowerOutput where
  header : Bool
  line : Option (Sensor → ℚ)

/-- `arm_cpu_juno_r2_get_power_data`: its return value, the descriptors that are open, what is
printed, and `init_output`. -/
def armCpuJunoR2GetPowerData (verbose initOutput : Bool) : Int × List Nat × PowerOutput × Bool :=
  match readSensors files junk with
  | (none, fds) => (-1, fds, ⟨false, none⟩, initOutput)
  | (some val, fds) =>
      (0, fds, ⟨!verbose && !initOutput, some fun x => milliwatts (val x)⟩,
        initOutput || !verbose)

/-- The variables as the JSON function has them. -/
def hwmon (val : Sensor → BitVec 64) : JunoHwmon := ⟨val .sys, val .big, val .little, val .gpu⟩

/-- `arm_cpu_juno_r2_json_get_power_data`: its return value, unless it ends the process, the
descriptors that are open, and the object. -/
def armCpuJunoR2JsonGetPowerData (numPackage : BitVec 32) (obj : Object) :
    Option Int × List Nat × Object :=
  match readSensors files junk with
  | (none, fds) => (some (-1), fds, obj)
  | (some val, fds) =>
      match PowerJson.Arm.junoR2JsonGetPowerData (hwmon val) numPackage.toInt.toNat obj with
      | none => (none, fds, obj)
      | some obj => (some 0, fds, obj)

end Functions

/-! ### What is asked -/

/-- A file is opened, and this number read from it. -/
def Outcome.Delivers (file : Outcome) (v : BitVec 64) : Prop :=
  file.fd.isSome ∧ file.read = .number v

/-- `get_power_data` returns 0 with the numbers of the files, or -1 and prints none; no file is
left open. -/
def PowerReported (files : Sensor → Outcome) : Prop :=
  ∀ junk verbose initOutput, ∃ rc output init,
    armCpuJunoR2GetPowerData files junk verbose initOutput = (rc, [], output, init) ∧
      ((rc = 0 ∧ ∃ val : Sensor → BitVec 64, (∀ x, (files x).Delivers (val x)) ∧
          output.line = some fun x => milliwatts (val x)) ∨
        (rc = -1 ∧ output.line = none))

/-- `json_get_power_data` returns 0 with an object of the numbers of the files, or -1 with the
object that it was given; no file is left open. -/
def JsonReported (files : Sensor → Outcome) (numPackage : BitVec 32) : Prop :=
  ∀ junk obj, ∃ rc obj',
    armCpuJunoR2JsonGetPowerData files junk numPackage obj = (some rc, [], obj') ∧
      ((rc = 0 ∧ ∃ val : Sensor → BitVec 64, (∀ x, (files x).Delivers (val x)) ∧
          PowerJson.Arm.junoR2JsonGetPowerData (hwmon val) numPackage.toInt.toNat obj = some obj') ∨
        (rc = -1 ∧ obj' = obj))

/-- A file is opened, not as descriptor 0, and a number read from it. -/
def Outcome.Works (file : Outcome) : Prop := ∃ fd v, file = ⟨some fd, .number v⟩ ∧ fd ≠ 0

/-! ### Reading a file -/

section Reading

variable {files : Sensor → Outcome} {junk : Sensor → BitVec 64} {file : Outcome}

theorem Sensor.mem_all (x : Sensor) : x ∈ Sensor.all := by cases x <;> decide

/-- The line of a number fits the buffer. -/
theorem line_take (v : BitVec 64) : (line v).take 32 = line v := by
  have hlen : (decimal v.toNat).length ≤ 20 :=
    (decimal_length_le_iff (by decide)).mpr (v.isLt.trans (by decide))
  refine List.take_of_length_le ?_
  rw [line, List.length_append, List.length_singleton]
  omega

/-- **A number** is read back. -/
theorem readFileUi64_number (fd : Nat) (v : BitVec 64) :
    readFileUi64 ⟨some fd, .number v⟩ = (((line v).length : Int), some v) := by
  have hscan : scanU64 (line v) = some (BitVec.ofNat 64 v.toNat) :=
    scanU64_decimal v.isLt (by decide) []
  have hlen : ((line v).length : Int) ≠ 0 := by
    rw [line, List.length_append, List.length_singleton]
    omega
  simp only [readFileUi64, Outcome.readBuf, line_take]
  rw [if_neg hlen, hscan, BitVec.ofNat_toNat, BitVec.setWidth_eq]

/-- **`!bytes`** finds the files that are open and empty. -/
theorem readFileUi64_eq_zero_iff :
    (readFileUi64 file).1 = 0 ↔ file.fd.isSome ∧ file.read = .empty := by
  obtain ⟨fd, read⟩ := file
  cases fd with
  | none => exact iff_of_false (by simp [readFileUi64, Outcome.readBuf]) (by simp)
  | some fd =>
      cases read with
      | fails => exact iff_of_false (by simp [readFileUi64, Outcome.readBuf]) (by simp)
      | empty => exact iff_of_true rfl ⟨rfl, rfl⟩
      | number v =>
          rw [readFileUi64_number]
          refine iff_of_false ?_ (by simp)
          simp only [line, List.length_append, List.length_singleton]
          omega

/-- What closing one file after the other leaves. -/
theorem mem_closeAll {fds : List Nat} {l : List Sensor} {fd : Nat} :
    fd ∈ l.foldl (fun fds x => close (files x).fd fds) fds
      ↔ fd ∈ fds ∧ ∀ x ∈ l, some fd ≠ (files x).fd := by
  induction l generalizing fds with
  | nil => exact ⟨fun h => ⟨h, nofun⟩, And.left⟩
  | cons x l ih =>
      rw [List.foldl_cons, ih, close, List.mem_filter, List.forall_mem_cons, decide_eq_true_eq,
        and_assoc]

theorem closeAll_eq_nil :
    Sensor.all.foldl (fun fds x => close (files x).fd fds)
      (Sensor.all.filterMap fun x => (files x).fd) = [] := by
  refine List.eq_nil_iff_forall_not_mem.mpr fun fd hfd => ?_
  obtain ⟨hopen, hclosed⟩ := mem_closeAll.mp hfd
  obtain ⟨x, hx, hfd⟩ := List.mem_filterMap.mp hopen
  exact hclosed x hx hfd.symm

/-- The sensors of a node all of whose files work. -/
theorem readSensors_of_works {val : Sensor → BitVec 64}
    (h : ∀ x, ∃ fd, files x = ⟨some fd, .number (val x)⟩ ∧ fd ≠ 0) :
    readSensors files junk = (some val, []) := by
  have hzero : (Sensor.all.any fun x => (files x).fd == some 0) = false := by
    rw [List.any_eq_false]
    intro x _
    obtain ⟨fd, hfile, hfd⟩ := h x
    rw [hfile]
    simpa using hfd
  have hbytes : (Sensor.all.any fun x => (readFileUi64 (files x)).1 == 0) = false := by
    rw [List.any_eq_false]
    intro x _
    obtain ⟨fd, hfile, -⟩ := h x
    rw [beq_iff_eq, readFileUi64_eq_zero_iff, hfile]
    rintro ⟨-, ⟨⟩⟩
  have hval : (fun x => (readFileUi64 (files x)).2.getD (junk x)) = val := by
    funext x
    obtain ⟨fd, hfile, -⟩ := h x
    rw [hfile, readFileUi64_number]
    rfl
  simp only [readSensors]
  rw [hzero, hbytes, hval, closeAll_eq_nil]
  rfl

/-- An error that is found has at least its own file open. -/
theorem readSensors_error {fds : List Nat} (h : readSensors files junk = (none, fds)) :
    fds ≠ [] := by
  have hopen : ∀ x fd, (files x).fd = some fd →
      Sensor.all.filterMap (fun x => (files x).fd) ≠ [] := fun x fd hfd =>
    List.ne_nil_of_mem (List.mem_filterMap.mpr ⟨x, x.mem_all, hfd⟩)
  simp only [readSensors] at h
  split at h
  · next hzero =>
      obtain ⟨x, -, hx⟩ := List.any_eq_true.mp hzero
      obtain ⟨-, rfl⟩ := Prod.mk.inj h
      exact hopen x 0 (eq_of_beq hx)
  · split at h
    · next hbytes =>
        obtain ⟨x, -, hx⟩ := List.any_eq_true.mp hbytes
        obtain ⟨fd, hfd⟩ := Option.isSome_iff_exists.mp
          (readFileUi64_eq_zero_iff.mp (eq_of_beq hx)).1
        obtain ⟨-, rfl⟩ := Prod.mk.inj h
        exact hopen x fd hfd
    · cases h

/-- Behind the tests no file is open as descriptor 0. -/
theorem readSensors_fd {val : Sensor → BitVec 64} {fds : List Nat}
    (h : readSensors files junk = (some val, fds)) (x : Sensor) : (files x).fd ≠ some 0 := by
  intro hfd
  have hzero : (Sensor.all.any fun x => (files x).fd == some 0) = true :=
    List.any_eq_true.mpr ⟨x, x.mem_all, beq_iff_eq.mpr hfd⟩
  simp only [readSensors, hzero, if_true] at h
  cases h

end Reading

/-! ### The exact condition -/

section Condition

variable {files : Sensor → Outcome} {numPackage : BitVec 32}

theorem powerReported_iff : PowerReported files ↔ ∀ x, (files x).Works := by
  constructor
  · intro h
    -- the stack holds zeros here, so a value that was never read cannot pass for one
    obtain ⟨rc, output, init, hcall, hresult⟩ := h (fun _ => 0) true true
    rw [armCpuJunoR2GetPowerData] at hcall
    cases hread : readSensors files fun _ => 0 with
    | mk val fds =>
        rw [hread] at hcall
        cases val with
        | none =>
            obtain ⟨-, hfds⟩ := Prod.mk.inj hcall
            exact absurd (Prod.mk.inj hfds).1 (readSensors_error hread)
        | some val =>
            obtain ⟨rfl, -⟩ := Prod.mk.inj hcall
            rcases hresult with ⟨-, val', hval', -⟩ | ⟨hrc, -⟩
            · intro x
              obtain ⟨hopen, hnumber⟩ := hval' x
              obtain ⟨fd, hfd⟩ := Option.isSome_iff_exists.mp hopen
              have hne := readSensors_fd hread x
              refine ⟨fd, val' x, ?_, fun hzero => hne (hzero ▸ hfd)⟩
              rw [← hfd, ← hnumber]
            · exact absurd hrc (by decide)
  · intro h junk verbose initOutput
    choose fd val hfile hfd using h
    have hread : readSensors files junk = (some val, []) :=
      readSensors_of_works fun x => ⟨fd x, hfile x, hfd x⟩
    rw [armCpuJunoR2GetPowerData, hread]
    exact ⟨_, _, _, rfl, .inl ⟨rfl, val, fun x => by rw [hfile x]; exact ⟨rfl, rfl⟩, rfl⟩⟩

theorem jsonReported_of_works (h : ∀ x, (files x).Works) :
    JsonReported files numPackage ↔ 2 ≤ numPackage.toInt := by
  choose fd val hfile hfd using h
  have hread : ∀ junk, readSensors files junk = (some val, []) := fun junk =>
    readSensors_of_works fun x => ⟨fd x, hfile x, hfd x⟩
  have hsome : ∀ obj, (PowerJson.Arm.junoR2JsonGetPowerData (hwmon val) numPackage.toInt.toNat
      obj).isSome ↔ 2 ≤ numPackage.toInt := fun obj => Juno.isSome_iff.trans (by omega)
  constructor
  · intro h
    obtain ⟨rc, obj', hcall, -⟩ := h (fun _ => 0) []
    rw [armCpuJunoR2JsonGetPowerData, hread] at hcall
    rw [← hsome []]
    cases hobj : PowerJson.Arm.junoR2JsonGetPowerData (hwmon val) numPackage.toInt.toNat [] with
    | none =>
        simp only [hobj] at hcall
        cases hcall
    | some _ => rfl
  · intro h junk obj
    obtain ⟨obj', hobj⟩ := Option.isSome_iff_exists.mp ((hsome obj).mpr h)
    rw [armCpuJunoR2JsonGetPowerData, hread]
    simp only [hobj]
    exact ⟨0, obj', rfl, .inl ⟨rfl, val, fun x => by rw [hfile x]; exact ⟨rfl, rfl⟩, hobj⟩⟩

/-- **Errors are reported** exactly where there are none: every file works, and there
are the sockets that the JSON function fills.  A file that cannot be opened is not
noticed, as the test is for a descriptor of 0, nor is a read that fails. -/
theorem errorsReported_iff (files : Sensor → Outcome) (numPackage : BitVec 32) :
    PowerReported files ∧ JsonReported files numPackage
      ↔ (∀ x, (files x).Works) ∧ 2 ≤ numPackage.toInt := by
  rw [powerReported_iff]
  exact and_congr_right fun h => jsonReported_of_works h

/-- A board without the interface: no file can be opened. -/
def noInterface (_ : Sensor) : Outcome := ⟨none, .fails⟩

theorem not_powerReported_noInterface : ¬ PowerReported noInterface := by
  intro h
  obtain ⟨fd, v, hfile, -⟩ := powerReported_iff.mp h .sys
  cases hfile

end Condition

end Arm

end Variorum
