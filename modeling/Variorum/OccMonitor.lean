/-
Variorum/OccMonitor.lean

What `ibm_cpu_p9_monitoring` writes, call after call.

A call reads the sensor block of each socket as `ibm_cpu_p9_get_power` does, and
prints all of its sensors on a line.  Above the first lines, as many as there
are sockets, `print_all_sensors_header` prints the names of the columns; how
many were printed is kept from call to call, and for which sockets is not.

Main results:

* `monitor_run`: what any run of calls writes.
* `monitor_headed_iff`: every line stands below the names for its socket iff the
  first call that prints anything reads all blocks; otherwise the names for the
  last socket never come.
* `monitor_read`: a reader gets names and values back, and they stand in the
  same columns.
-/
import Variorum.AmdGpuTables
import Variorum.OccPower
import Variorum.OccRead

namespace Variorum.OccMonitor

open Occ Bytes CString Table GpuTables AmdGpuTables

/-! ### A line -/

/-- `%s` of the bytes at an address: what stands there up to a zero, if one comes in the block. -/
def textFrom (b : Block) : Nat → Nat → Option (List Char)
  | 0, _ => none
  | n + 1, a => (b.get a).bind fun x =>
      if x = 0#8 then some [] else (textFrom b n (a + 1)).map (toChar x :: ·)

/-- The place of `units` in an entry, behind the name of 16 bytes. -/
def unitsPlace : Nat := 16

/-- The names of the columns of an entry. -/
def entryColumns (b : Block) (md : Nat) : Option (List (List Char)) := do
  let type ← b.be 2 (md + Name.type)
  let name ← textFrom b b.size md
  let units ← textFrom b b.size (md + unitsPlace)
  if type = OCC_SENSOR_TYPE_POWER then
    return [name ++ "_Scale_".toList ++ units, name ++ "_Energy_J".toList]
  else return [name ++ '_' :: units]

/-- `_IBMPOWER%d`, the first field of every line of a chip. -/
def label (chipid : Nat) : List Char :=
  "_IBMPOWER".toList ++ decimalInt (BitVec.ofNat 32 chipid).toInt

/-- `print_all_sensors_header`: the fields of its line. -/
def printAllSensorsHeader (chipid : Nat) (b : Block) : Option (List (List Char)) := do
  let columns ← sensorLoop b (fun columns md => do
    let entry ← entryColumns b md
    return columns ++ entry) []
  return [label chipid, "Timestamp_sec".toList, "Host".toList, "Socket".toList] ++ columns

/-- `print_all_sensors`: the fields of its line. -/
def printAllSensorsLine (host : List Char) (chipid : Nat) (time : Rat) (b : Block) :
    Option (List (List Char)) := do
  let (chipid, values) ← printAllSensors chipid b
  return [label chipid, fixed 6 time, host, decimalInt (BitVec.ofNat 32 chipid).toInt] ++
    values.map decimal

/-! ### A call -/

/-- A call of `ibm_cpu_p9_monitoring`: what the system answers, the bytes of the file when the
block of a socket is read, and the times, of which the first is kept. -/
structure MonitorCall where
  sys : Answers
  file : Nat → Nat → BitVec 8
  start : AmdGpuTables.Timeval
  now : Nat → AmdGpuTables.Timeval

/-- A block that was read, with the times at which it is printed. -/
structure SocketRow where
  iter : Nat
  buf : Block
  start : AmdGpuTables.Timeval
  now : AmdGpuTables.Timeval

/-- The block in a buffer. -/
def MonitorCall.row (call : MonitorCall) (p : Nat × Buffer) : SocketRow :=
  ⟨p.1, block fun a => (p.2 a).elim 0 (call.file p.1), call.start, call.now p.1⟩

/-- The statics `count` and `start`, and what is written. -/
structure MonitorState where
  count : Nat
  start : Option AmdGpuTables.Timeval
  out : List Char

/-- The names of the columns, unless as many were printed as there are sockets. -/
def printNames (nsockets : Nat) (row : SocketRow) (s : MonitorState) : Option MonitorState :=
  if s.count < nsockets then do
    let columns ← printAllSensorsHeader row.iter row.buf
    some { s with count := s.count + 1, out := s.out ++ line columns }
  else some s

/-- The values, with the time since the first ones. -/
def printValues (host : List Char) (row : SocketRow) (s : MonitorState) : Option MonitorState := do
  let start := s.start.getD row.start
  let fields ← printAllSensorsLine host row.iter (elapsed start row.now) row.buf
  some { s with start := some start, out := s.out ++ line fields }

/-- A block is printed: the names if they are due, and the line of values. -/
def printSocket (nsockets : Nat) (host : List Char) (s : MonitorState) (row : SocketRow) :
    Option MonitorState :=
  (printNames nsockets row s).bind (printValues host row)

/-- `ibm_cpu_p9_monitoring`: the blocks are read as by `ibm_cpu_p9_get_power`. -/
def monitoring (fuel : Nat) (host : List Char) (s : MonitorState) (call : MonitorCall) :
    Option (Int × MonitorState) := do
  let (rc, blocks) ← ibmCpuP9GetPower call.sys fuel
  let s ← (blocks.printed.map call.row).foldlM (printSocket call.sys.nsockets.toNat host) s
  some (rc, s)

/-- Calls one after the other: what they return, and the state behind them. -/
def run (fuel : Nat) (host : List Char) : List MonitorCall → MonitorState →
    Option (List Int × MonitorState)
  | [], s => some ([], s)
  | call :: calls, s => do
      let (rc, s) ← monitoring fuel host s call
      let (rcs, s) ← run fuel host calls s
      some (rc :: rcs, s)

/-! ### The blocks of a call -/

section Blocks

variable {sys : Answers} {fuel iter left : Nat} {s : ReadState}

theorem run_readTurn_printed {x y : ReadState × Nat}
    (h : Loop.run (readTurn sys) fuel x = some y) : y.1.printed = x.1.printed := by
  -- by induction on the turns: reading a part of the block prints nothing
  induction fuel generalizing x with
  | zero => cases h
  | succ fuel ih =>
      have hkept : ∀ z, readTurn sys x = .inl z ∨ readTurn sys x = .inr z →
          z.1.printed = x.1.printed := by
        intro z hz
        simp only [readTurn] at hz
        split at hz
        · split at hz
          · rcases hz with hz | hz
            · cases hz
            · obtain rfl := Sum.inr.inj hz
              rfl
          · rcases hz with hz | hz
            · obtain rfl := Sum.inl.inj hz
              rfl
            · cases hz
        · rcases hz with hz | hz
          · cases hz
          · obtain rfl := Sum.inr.inj hz
            rfl
      cases hstep : readTurn sys x with
      | inl z =>
          rw [Loop.run_of_inl hstep] at h
          exact (ih h).trans (hkept z (.inl hstep))
      | inr z =>
          rw [Loop.run_of_inr hstep] at h
          obtain rfl := Option.some.inj h
          exact hkept z (.inr hstep)

/-- A socket whose block is not read is not printed. -/
theorem socketTurn_inr_printed {s' : ReadState}
    (h : socketTurn sys fuel iter s = some (.inr s')) : s'.printed = s.printed := by
  -- the place in the file stays a variable, so that no check of a field computes it
  obtain ⟨pos, hseek⟩ : ∃ pos, lseek iter s = { s with pos := pos } := ⟨_, rfl⟩
  rw [socketTurn, hseek] at h
  split at h
  · obtain ⟨⟨y, bytes⟩, hrun, hafter⟩ := Option.map_eq_some_iff.mp h
    have hprinted := run_readTurn_printed hrun
    rw [afterBlock] at hafter
    split at hafter
    · obtain rfl := Sum.inr.inj hafter
      exact hprinted
    · cases hafter
  · obtain rfl := Sum.inr.inj (Option.some.inj h)
    rfl

/-- The buffers of the first sockets. -/
def buffers (k : Nat) : List (Nat × Buffer) :=
  (List.range k).map fun i => (i, blockAt (i * OCC_SENSOR_DATA_BLOCK_SIZE % 2 ^ 32))

/-- The blocks are read in order, all of them where the loop ends with 0. -/
theorem socketLoop_printed (left : Nat) (h : BeforeBlock sys iter s)
    (hfuel : OCC_SENSOR_DATA_BLOCK_SIZE < fuel) :
    ∃ rc s' k, Occ.socketLoop sys fuel left iter s = some (rc, s') ∧ s'.printed = buffers k ∧
      (rc = 0 ∧ k = iter + left ∨ rc = -1 ∧ k < iter + left) := by
  induction left generalizing iter s with
  | zero => exact ⟨0, _, iter, rfl, h.printed, .inl ⟨rfl, rfl⟩⟩
  | succ left ih =>
      rw [Occ.socketLoop]
      rcases socketTurn_spec h hfuel with ⟨s', hturn, hbefore⟩ | ⟨s', hturn, -, -⟩
      · rw [hturn, Option.bind_some, Nat.add_comm left, ← Nat.add_assoc]
        exact ih hbefore
      · rw [hturn, Option.bind_some]
        exact ⟨-1, s', iter, rfl, (socketTurn_inr_printed hturn).trans h.printed,
          .inr ⟨rfl, by omega⟩⟩

/-- How many blocks a call reads, and what it returns. -/
def blocksRead (sys : Answers) : Int × Nat :=
  match ibmCpuP9GetPower sys (OCC_SENSOR_DATA_BLOCK_SIZE + 1) with
  | some (rc, s) => (rc, s.printed.length)
  | none => (-1, 0)

theorem getPower_eq (sys : Answers) (hfuel : OCC_SENSOR_DATA_BLOCK_SIZE < fuel) :
    (∃ s, ibmCpuP9GetPower sys fuel = some ((blocksRead sys).1, s) ∧
        s.printed = buffers (blocksRead sys).2) ∧
      ((blocksRead sys).1 = 0 ∧ (blocksRead sys).2 = sys.nsockets.toNat ∨
        (blocksRead sys).1 = -1 ∧
          ((blocksRead sys).2 < sys.nsockets.toNat ∨ (blocksRead sys).2 = 0)) := by
  by_cases hopens : sys.opens = true
  · have hstart : BeforeBlock sys 0 { ReadState.start with isOpen := true } :=
      ⟨(Nat.zero_mul _).symm, nofun, nofun, rfl, rfl, rfl, rfl⟩
    have hlt : OCC_SENSOR_DATA_BLOCK_SIZE < OCC_SENSOR_DATA_BLOCK_SIZE + 1 := Nat.lt_add_one _
    obtain ⟨rc, s, k, hloop, hprinted, hends⟩ := socketLoop_printed sys.nsockets.toNat hstart hlt
    rw [Nat.zero_add] at hends
    have hread : blocksRead sys = (rc, k) := by
      rw [blocksRead, ibmCpuP9GetPower, if_pos hopens, hloop]
      show (rc, s.printed.length) = (rc, k)
      rw [hprinted]
      simp [buffers]
    rw [hread]
    refine ⟨⟨s, ?_, hprinted⟩, ?_⟩
    · rw [ibmCpuP9GetPower, if_pos hopens]
      exact socketLoop_mono hfuel hloop
    · rcases hends with h | ⟨hrc, hk⟩
      · exact .inl h
      · exact .inr ⟨hrc, .inl hk⟩
  · have hread : blocksRead sys = (-1, 0) := by
      rw [blocksRead, ibmCpuP9GetPower, if_neg hopens]
      rfl
    rw [hread]
    refine ⟨⟨.start, ?_, rfl⟩, .inr ⟨rfl, .inr rfl⟩⟩
    rw [ibmCpuP9GetPower, if_neg hopens]

end Blocks

/-- The blocks that a call prints. -/
def MonitorCall.rows (call : MonitorCall) : List SocketRow :=
  (buffers (blocksRead call.sys).2).map call.row

/-- What a call returns: 0, or -1 where not all blocks could be read. -/
def MonitorCall.rc (call : MonitorCall) : Int := (blocksRead call.sys).1

theorem getElem?_rows (call : MonitorCall) (i : Nat) :
    (call.rows[i]?).map SocketRow.iter = if i < (blocksRead call.sys).2 then some i else none := by
  rw [MonitorCall.rows, buffers, List.getElem?_map, List.getElem?_map]
  split
  · next h =>
      rw [List.getElem?_range h]
      rfl
  · next h =>
      rw [List.getElem?_eq_none (by simpa using h)]
      rfl

theorem length_rows (call : MonitorCall) : call.rows.length = (blocksRead call.sys).2 := by
  simp [MonitorCall.rows, buffers]

/-! ### Lines and names -/

section Lines

variable {n fuel : Nat} {host : List Char} {start : AmdGpuTables.Timeval}

/-- The fields of the lines for a block. -/
def headFields (row : SocketRow) : List (List Char) :=
  (printAllSensorsHeader row.iter row.buf).getD []

def rowFields (host : List Char) (start : AmdGpuTables.Timeval) (row : SocketRow) :
    List (List Char) :=
  (printAllSensorsLine host row.iter (elapsed start row.now) row.buf).getD []

/-- The text for the `k`-th block that is printed: the first ones have their names above them. -/
def blockText (n : Nat) (host : List Char) (start : AmdGpuTables.Timeval)
    (p : SocketRow × Nat) : List Char :=
  (if p.2 < n then line (headFields p.1) else []) ++ line (rowFields host start p.1)

/-- The bytes that the lines for the `k`-th block need are in it. -/
def Printable (n : Nat) (p : SocketRow × Nat) : Prop :=
  (p.2 < n → (printAllSensorsHeader p.1.iter p.1.buf).isSome) ∧
    (printAllSensors p.1.iter p.1.buf).isSome

/-- A block is printed, behind the first one. -/
theorem printSocket_eq {p : SocketRow × Nat} (h : Printable n p) (out : List Char) :
    printSocket n host ⟨min n p.2, some start, out⟩ p.1 =
      some ⟨min n (p.2 + 1), some start, out ++ blockText n host start p⟩ := by
  obtain ⟨row, k⟩ := p
  obtain ⟨hhead, hvalues⟩ := h
  obtain ⟨values, hvalues⟩ := Option.isSome_iff_exists.mp hvalues
  have hline : ∃ fields, printAllSensorsLine host row.iter (elapsed start row.now) row.buf =
      some fields := by
    rw [printAllSensorsLine, hvalues]
    exact ⟨_, rfl⟩
  obtain ⟨fields, hline⟩ := hline
  rw [printSocket, printNames, blockText, rowFields]
  by_cases hk : k < n
  · obtain ⟨columns, hcolumns⟩ := Option.isSome_iff_exists.mp (hhead hk)
    have hlt : min n k < n := by omega
    have hmin : min n k + 1 = min n (k + 1) := by omega
    simp [hlt, hk, hcolumns, hline, headFields, hmin, printValues]
  · have hge : ¬ min n k < n := by omega
    have hmin : min n k = min n (k + 1) := by omega
    simp [hk, hline, hmin, printValues, show n ≤ k + 1 by omega]

theorem printSocket_isSome (host : List Char) {row : SocketRow} {s : MonitorState} {k : Nat}
    (hcount : s.count = min n k) (h : (printSocket n host s row).isSome) :
    Printable n (row, k) := by
  obtain ⟨s', hs'⟩ := Option.isSome_iff_exists.mp h
  obtain ⟨s₁, hs₁, hrest⟩ := Option.bind_eq_some_iff.mp hs'
  obtain ⟨fields, hfields, -⟩ := Option.bind_eq_some_iff.mp hrest
  obtain ⟨values, hvalues, -⟩ := Option.bind_eq_some_iff.mp hfields
  refine ⟨fun hk => ?_, Option.isSome_iff_exists.mpr ⟨values, hvalues⟩⟩
  rw [printNames, if_pos (by omega)] at hs₁
  obtain ⟨columns, hcolumns, -⟩ := Option.bind_eq_some_iff.mp hs₁
  exact Option.isSome_iff_exists.mpr ⟨columns, hcolumns⟩

/-- **Blocks that are printed**, behind the first one, from the `k`-th on. -/
theorem foldlM_printSocket (n : Nat) (host : List Char) (start : AmdGpuTables.Timeval)
    (rows : List SocketRow) (k : Nat) (out : List Char) :
    ((∀ p ∈ rows.zipIdx k, Printable n p) →
      rows.foldlM (printSocket n host) ⟨min n k, some start, out⟩ =
        some ⟨min n (k + rows.length), some start,
          out ++ (rows.zipIdx k).flatMap (blockText n host start)⟩) ∧
    ((rows.foldlM (printSocket n host) ⟨min n k, some start, out⟩).isSome →
      ∀ p ∈ rows.zipIdx k, Printable n p) := by
  -- by induction on the rows; the names are printed for the first n of them only
  induction rows generalizing k out with
  | nil => exact ⟨fun _ => by simp, fun _ => nofun⟩
  | cons row rows ih =>
      have hnext : Printable n (row, k) →
          (row :: rows).foldlM (printSocket n host) ⟨min n k, some start, out⟩ =
            rows.foldlM (printSocket n host) ⟨min n (k + 1), some start,
              out ++ blockText n host start (row, k)⟩ := by
        intro h
        rw [List.foldlM_cons, printSocket_eq (p := (row, k)) h, Option.bind_eq_bind,
          Option.bind_some]
      obtain ⟨hsome, hprintable⟩ := ih (k + 1) (out ++ blockText n host start (row, k))
      rw [List.zipIdx_cons]
      constructor
      · intro h
        obtain ⟨hrow, hrows⟩ := List.forall_mem_cons.mp h
        rw [hnext hrow, hsome hrows, List.flatMap_cons, List.length_cons, List.append_assoc,
          Nat.add_assoc, Nat.add_comm 1]
      · intro h
        have hrow : Printable n (row, k) := by
          refine printSocket_isSome host (s := ⟨min n k, some start, out⟩) rfl ?_
          rw [List.foldlM_cons] at h
          cases hstep : printSocket n host ⟨min n k, some start, out⟩ row with
          | none =>
              rw [hstep] at h
              cases h
          | some s' => rfl
        rw [hnext hrow] at h
        exact List.forall_mem_cons.mpr ⟨hrow, hprintable h⟩

/-- The time that is kept. -/
def startOf (rows : List SocketRow) : AmdGpuTables.Timeval :=
  (rows.head?.map SocketRow.start).getD ⟨0, 0⟩

/-- The first block sets the time that is kept. -/
theorem foldlM_begun (rows : List SocketRow) (hrows : rows ≠ []) :
    rows.foldlM (printSocket n host) ⟨0, none, []⟩ =
      rows.foldlM (printSocket n host) ⟨min n 0, some (startOf rows), []⟩ := by
  obtain ⟨row, rest, rfl⟩ := List.exists_cons_of_ne_nil hrows
  rw [List.foldlM_cons, List.foldlM_cons, Nat.min_zero]
  congr 1
  rw [printSocket, printSocket, printNames, printNames]
  split
  · cases printAllSensorsHeader row.iter row.buf <;> rfl
  · rfl

/-- Blocks that are printed, from the first one on. -/
theorem foldlM_start (n : Nat) (host : List Char) (rows : List SocketRow) :
    ((rows.foldlM (printSocket n host) ⟨0, none, []⟩).isSome ↔
      ∀ p ∈ rows.zipIdx, Printable n p) ∧
    ∀ s, rows.foldlM (printSocket n host) ⟨0, none, []⟩ = some s →
      s.count = min n rows.length ∧
        s.out = rows.zipIdx.flatMap (blockText n host (startOf rows)) := by
  by_cases hrows : rows = []
  · subst hrows
    refine ⟨iff_of_true rfl nofun, fun s hs => ?_⟩
    obtain rfl := Option.some.inj hs
    exact ⟨(Nat.min_zero n).symm, rfl⟩
  · obtain ⟨hsome, hprintable⟩ := foldlM_printSocket n host (startOf rows) rows 0 []
    rw [foldlM_begun rows hrows]
    refine ⟨⟨hprintable, fun h => ?_⟩, fun s hs => ?_⟩
    · rw [hsome h]
      rfl
    · rw [hsome (hprintable (by rw [hs]; rfl))] at hs
      obtain rfl := Option.some.inj hs
      rw [Nat.zero_add]
      exact ⟨rfl, rfl⟩

end Lines

/-! ### Runs -/

section Runs

variable {n fuel : Nat} {host : List Char} {calls : List MonitorCall}

/-- A run prints the blocks of its calls. -/
theorem run_eq (hfuel : OCC_SENSOR_DATA_BLOCK_SIZE < fuel)
    (hn : ∀ call ∈ calls, call.sys.nsockets.toNat = n) (s : MonitorState) :
    run fuel host calls s =
      ((calls.flatMap MonitorCall.rows).foldlM (printSocket n host) s).map
        fun s => (calls.map MonitorCall.rc, s) := by
  induction calls generalizing s with
  | nil => rfl
  | cons call calls ih =>
      obtain ⟨hcall, hcalls⟩ := List.forall_mem_cons.mp hn
      obtain ⟨blocks, hread, hprinted⟩ := (getPower_eq call.sys hfuel).1
      have hmonitoring : monitoring fuel host s call =
          (call.rows.foldlM (printSocket n host) s).map fun s => (call.rc, s) := by
        rw [monitoring, hread, Option.bind_eq_bind, Option.bind_some]
        simp only [hprinted, hcall]
        exact Option.map_eq_bind.symm
      rw [run, hmonitoring, List.flatMap_cons, List.foldlM_append]
      cases call.rows.foldlM (printSocket n host) s with
      | none => rfl
      | some s' =>
          have hrest := ih hcalls s'
          simp only [Option.map_some, Option.bind_eq_bind, Option.bind_some, hrest]
          cases (calls.flatMap MonitorCall.rows).foldlM (printSocket n host) s' <;> rfl

/-- The blocks of a run. -/
def runRows (calls : List MonitorCall) : List SocketRow := calls.flatMap MonitorCall.rows

/-- **Runs of calls.**  A call returns 0 with the blocks of all sockets and -1 with those of the
first ones.  Every block has a line, and the first ones, as many as there are sockets, have their
names above it. -/
theorem monitor_run (host : List Char) (hfuel : OCC_SENSOR_DATA_BLOCK_SIZE < fuel)
    (hn : ∀ call ∈ calls, call.sys.nsockets.toNat = n) :
    (∀ call ∈ calls, (call.rc = 0 ∧ call.rows.length = n) ∨
      (call.rc = -1 ∧ (call.rows.length < n ∨ call.rows = []))) ∧
    ((run fuel host calls ⟨0, none, []⟩).isSome ↔
      ∀ p ∈ (runRows calls).zipIdx, Printable n p) ∧
    ∀ rcs s, run fuel host calls ⟨0, none, []⟩ = some (rcs, s) →
      rcs = calls.map MonitorCall.rc ∧ s.count = min n (runRows calls).length ∧
        s.out = (runRows calls).zipIdx.flatMap (blockText n host (startOf (runRows calls))) := by
  obtain ⟨hdefined, hout⟩ := foldlM_start n host (runRows calls)
  refine ⟨fun call hcall => ?_, ?_, fun rcs s hs => ?_⟩
  · rw [length_rows, ← hn call hcall, ← List.length_eq_zero_iff, length_rows]
    exact (getPower_eq call.sys hfuel).2
  · rw [run_eq hfuel hn, Option.isSome_map]
    exact hdefined
  · rw [run_eq hfuel hn] at hs
    obtain ⟨s', hs', heq⟩ := Option.map_eq_some_iff.mp hs
    obtain ⟨rfl, rfl⟩ := Prod.mk.inj heq
    exact ⟨rfl, hout s' hs'⟩

/-- A call on a node of two sockets that gets so many buffers and blocks of zeros. -/
def twoSockets (mallocs : Nat) : MonitorCall :=
  ⟨⟨2, true, fun i => decide (i < mallocs), fun _ count => count, fun _ _ => Int.le_refl _⟩,
    fun _ _ => 0, ⟨5, 0⟩, fun _ => ⟨6, 250000⟩⟩

theorem nsockets_two (calls : List Nat) :
    ∀ call ∈ calls.map twoSockets, call.sys.nsockets.toNat = 2 := by
  intro call hcall
  obtain ⟨mallocs, -, rfl⟩ := List.mem_map.mp hcall
  rfl

theorem monitor_run_two :
    ∃ rcs s, run 200000 [] ([1, 2].map twoSockets) ⟨0, none, []⟩ = some (rcs, s) ∧
      rcs = [-1, 0] ∧ s.count = 2 := by
  obtain ⟨-, -, hout⟩ := monitor_run []
    (show OCC_SENSOR_DATA_BLOCK_SIZE < 200000 by decide) (nsockets_two [1, 2])
  have hsome : (run 200000 [] ([1, 2].map twoSockets) ⟨0, none, []⟩).isSome := by decide +kernel
  obtain ⟨⟨rcs, s⟩, hs⟩ := Option.isSome_iff_exists.mp hsome
  obtain ⟨hrcs, hcount, -⟩ := hout rcs s hs
  exact ⟨rcs, s, hs, hrcs, hcount⟩

/-- Every block stands below names for its socket. -/
def Headed (n : Nat) (rows : List SocketRow) : Prop :=
  ∀ (i : Nat) (row : SocketRow), rows[i]? = some row →
    ∃ j ≤ i, j < n ∧ (rows[j]?).map SocketRow.iter = some row.iter

/-- The `i`-th block of a run is of one of the first `i` sockets. -/
theorem iter_le (calls : List MonitorCall) {i : Nat} {row : SocketRow}
    (h : (runRows calls)[i]? = some row) : row.iter ≤ i := by
  induction calls generalizing i with
  | nil => cases h
  | cons call calls ih =>
      rw [runRows, List.flatMap_cons, List.getElem?_append] at h
      split at h
      · have hiter := getElem?_rows call i
        rw [h] at hiter
        split at hiter
        · exact (Option.some.inj hiter).le
        · cases hiter
      · exact (ih h).trans (Nat.sub_le _ _)

/-- Its socket is one of the node. -/
theorem iter_lt (hn : ∀ call ∈ calls, call.sys.nsockets.toNat = n) {row : SocketRow}
    (h : row ∈ runRows calls) : row.iter < n := by
  obtain ⟨call, hcall, hrow⟩ := List.mem_flatMap.mp h
  obtain ⟨i, hi⟩ := List.mem_iff_getElem?.mp hrow
  have hiter := getElem?_rows call i
  have hends := (getPower_eq call.sys (Nat.lt_succ_self _)).2
  rw [hn call hcall] at hends
  rw [hi] at hiter
  split at hiter
  · have heq : row.iter = i := Option.some.inj hiter
    omega
  · cases hiter

/-- The rows of a run are those of the first call that prints anything, and of later ones. -/
theorem runRows_of_find? {first : MonitorCall}
    (hfirst : calls.find? (fun call => 0 < call.rows.length) = some first) :
    ∃ skipped later, calls = skipped ++ first :: later ∧ (∀ call ∈ skipped, call.rows = []) ∧
      0 < first.rows.length ∧ runRows calls = first.rows ++ runRows later := by
  obtain ⟨hprints, skipped, later, rfl, hskipped⟩ := List.find?_eq_some_iff_append.mp hfirst
  have hempty : ∀ call ∈ skipped, call.rows = [] := fun call hcall => by
    simpa using hskipped call hcall
  refine ⟨skipped, later, rfl, hempty, by simpa using hprints, ?_⟩
  rw [runRows, List.flatMap_append, List.flatMap_eq_nil_iff.mpr hempty, List.flatMap_cons]
  rfl

/-- If that call does not read all blocks, the last socket is not among those whose names are
printed: it comes up in a later call only, and too far behind. -/
theorem iter_ne_last (hn : ∀ call ∈ calls, call.sys.nsockets.toNat = n) {first : MonitorCall}
    (hfirst : calls.find? (fun call => 0 < call.rows.length) = some first) (hrc : first.rc ≠ 0)
    {j : Nat} (hj : j < n) {row : SocketRow} (hrow : (runRows calls)[j]? = some row) :
    row.iter ≠ n - 1 := by
  have hends := fun call hcall =>
    (monitor_run [] (Nat.lt_succ_self _) hn).1 call hcall
  obtain ⟨skipped, later, rfl, -, hpos, hrows⟩ := runRows_of_find? hfirst
  have hlt : first.rows.length < n := by
    rcases hends first (by simp) with ⟨hrc', -⟩ | ⟨-, hlt | hnil⟩
    · exact absurd hrc' hrc
    · exact hlt
    · rw [hnil] at hpos
      cases hpos
  rw [hrows, List.getElem?_append] at hrow
  split at hrow
  · next hj' =>
      have hiter := getElem?_rows first j
      rw [← length_rows, if_pos hj', hrow] at hiter
      have heq : row.iter = j := Option.some.inj hiter
      omega
  · next hj' =>
      have hle := iter_le later hrow
      omega

/-- **Names and lines.**  In a run in which some call reads all blocks, every line stands below
names for its socket iff the first call that prints anything reads all of them; and after one
that prints only some, the names for the last socket are never printed. -/
theorem monitor_headed_iff (hn : ∀ call ∈ calls, call.sys.nsockets.toNat = n) (hpos : 0 < n)
    (hzero : ∃ call ∈ calls, call.rc = 0) :
    (Headed n (runRows calls) ↔
      ∃ first, calls.find? (fun call => 0 < call.rows.length) = some first ∧ first.rc = 0) ∧
    ∀ first, calls.find? (fun call => 0 < call.rows.length) = some first → first.rc ≠ 0 →
      ∀ j < n, ∀ row, (runRows calls)[j]? = some row → row.iter ≠ n - 1 := by
  refine ⟨?_, fun first hfirst hrc j hj row hrow => iter_ne_last hn hfirst hrc hj hrow⟩
  have hends := fun call hcall =>
    (monitor_run [] (Nat.lt_succ_self _) hn).1 call hcall
  obtain ⟨whole, hwhole, hrc⟩ := hzero
  have hall : whole.rows.length = n := by
    rcases hends whole hwhole with ⟨-, h⟩ | ⟨h, -⟩
    · exact h
    · rw [hrc] at h
      cases h
  obtain ⟨first, hfirst⟩ :
      ∃ first, calls.find? (fun call => 0 < call.rows.length) = some first := by
    rw [← Option.isSome_iff_exists, List.find?_isSome]
    exact ⟨whole, hwhole, by simpa [hall] using hpos⟩
  have hfirsts : ∀ i, (calls.find? fun call => 0 < call.rows.length) = some i ↔ first = i :=
    fun i => by rw [hfirst, Option.some.injEq]
  simp only [hfirsts, exists_eq_left']
  obtain ⟨skipped, later, hcalls, -, -, hrows⟩ := runRows_of_find? hfirst
  have hcall : first ∈ calls := by rw [hcalls]; simp
  constructor
  · intro hheaded
    by_contra hrc'
    -- the last socket has a line, in the call that reads all blocks
    obtain ⟨row, hrow, hiter⟩ : ∃ row, whole.rows[n - 1]? = some row ∧ row.iter = n - 1 := by
      have hiter := getElem?_rows whole (n - 1)
      rw [← length_rows, hall, if_pos (by omega)] at hiter
      exact Option.map_eq_some_iff.mp hiter
    obtain ⟨t, ht⟩ := List.mem_iff_getElem?.mp
      (List.mem_flatMap.mpr ⟨whole, hwhole, List.mem_of_getElem? hrow⟩ : row ∈ runRows calls)
    obtain ⟨j, -, hj, hjrow⟩ := hheaded t row ht
    obtain ⟨row', hrow', hiter'⟩ := Option.map_eq_some_iff.mp hjrow
    exact iter_ne_last hn hfirst hrc' hj hrow' (hiter'.trans hiter)
  · intro hrc' i row hi
    have hlen : first.rows.length = n := by
      rcases hends first hcall with ⟨-, h⟩ | ⟨h, -⟩
      · exact h
      · rw [hrc'] at h
        cases h
    have hlt := iter_lt hn (List.mem_of_getElem? hi)
    refine ⟨row.iter, iter_le _ hi, hlt, ?_⟩
    rw [hrows, List.getElem?_append_left (by omega), getElem?_rows, ← length_rows, hlen,
      if_pos hlt]

/-- A call that reads one block of two before one that reads both. -/
theorem monitor_headed_iff_two : ¬ Headed 2 (runRows ([1, 2].map twoSockets)) := by
  have hwhole : ∃ call ∈ [1, 2].map twoSockets, call.rc = 0 := ⟨twoSockets 2, by simp, rfl⟩
  rw [(monitor_headed_iff (nsockets_two [1, 2]) (by decide) hwhole).1]
  rintro ⟨first, hfirst, hrc⟩
  obtain rfl : twoSockets 1 = first := Option.some.inj hfirst
  cases hrc

end Runs

/-! ### Columns -/

section Columns

variable {b : Block} {n fuel chipid : Nat} {host : List Char} {calls : List MonitorCall}

/-- A loop over the entries that appends what it makes of each. -/
theorem sensorLoop_append {α : Type} (hb : HasHeader b) {f : Nat → Option (List α)} {l : List α}
    (h : sensorLoop b (fun line md => (f md).map (line ++ ·)) [] = some l) :
    (∀ i < nrSensors b, (f (md b i)).isSome) ∧
      l = (List.range (nrSensors b)).flatMap fun i => (f (md b i)).getD [] := by
  have hnames : b.be 4 Header.namesOffset = some (b.value 4 Header.namesOffset) :=
    hb.be (by decide)
  have hnumber : b.be 2 Header.nrSensors = some (nrSensors b) := hb.be (by decide)
  rw [sensorLoop, hnames, hnumber] at h
  have hloop : ∀ (is : List Nat) (line l : List α),
      is.foldlM (fun line i => (f (md b i)).map (line ++ ·)) line = some l →
        (∀ i ∈ is, (f (md b i)).isSome) ∧ l = line ++ is.flatMap fun i => (f (md b i)).getD [] := by
    intro is
    induction is with
    | nil =>
        intro line l h
        obtain rfl := Option.some.inj h
        exact ⟨fun i hi => absurd hi List.not_mem_nil, (List.append_nil _).symm⟩
    | cons i is ih =>
        intro line l h
        rw [List.foldlM_cons] at h
        obtain ⟨line', hline, hrest⟩ := Option.bind_eq_some_iff.mp h
        obtain ⟨entry, hentry, rfl⟩ := Option.map_eq_some_iff.mp hline
        obtain ⟨hsome, rfl⟩ := ih _ _ hrest
        refine ⟨List.forall_mem_cons.mpr ⟨by rw [hentry]; rfl, hsome⟩, ?_⟩
        rw [List.flatMap_cons, hentry, Option.getD_some, List.append_assoc]
  obtain ⟨hsome, rfl⟩ := hloop (List.range (nrSensors b)) [] l h
  exact ⟨fun i hi => hsome i (List.mem_range.mpr hi), rfl⟩

/-- The values of an entry, of its type and its sample. -/
def valuesOf (b : Block) (md offset scale sample type : Nat) : Option (List Nat) :=
  if type = OCC_SENSOR_TYPE_POWER then
    (readSensor b offset .accumulator).bind fun energy =>
      (b.be 4 (md + Name.freq)).map fun freq =>
        [toU64 (sample * toFp scale), quotientU64 energy (toFp freq)]
  else some [toU64 (sample * toFp scale)]

/-- The values of an entry. -/
def entryValues (b : Block) (md : Nat) : Option (List Nat) :=
  (b.be 4 (md + Name.readingOffset)).bind fun offset =>
    (b.be 4 (md + Name.scaleFactor)).bind fun scale =>
      (b.get (md + Name.structureType)).bind fun structureType =>
        (if structureType = OCC_SENSOR_READING_FULL then readSensor b offset .sample
          else readCounter b offset).bind fun sample =>
            (b.be 2 (md + Name.type)).bind fun type => valuesOf b md offset scale sample type

/-- A turn appends the values of its entry. -/
theorem allSensorsTurn_eq (line : List Nat) (md : Nat) :
    allSensorsTurn b line md = (entryValues b md).map (line ++ ·) := by
  have hvalues : ∀ offset scale sample type : Nat,
      (if type = OCC_SENSOR_TYPE_POWER then
        (readSensor b offset .accumulator).bind fun energy =>
          (b.be 4 (md + Name.freq)).bind fun freq =>
            some (line ++ [toU64 (sample * toFp scale), quotientU64 energy (toFp freq)])
      else some (line ++ [toU64 (sample * toFp scale)])) =
        (valuesOf b md offset scale sample type).map (line ++ ·) := by
    intro offset scale sample type
    rw [valuesOf]
    split
    · cases readSensor b offset .accumulator with
      | none => rfl
      | some energy => cases b.be 4 (md + Name.freq) <;> rfl
    · rfl
  rw [allSensorsTurn, entryValues, Option.map_bind]
  refine Option.bind_congr fun offset _ => ?_
  rw [Function.comp_apply, Option.map_bind]
  refine Option.bind_congr fun scale _ => ?_
  rw [Function.comp_apply, Option.map_bind]
  refine Option.bind_congr fun structureType _ => ?_
  rw [Function.comp_apply, Option.map_bind]
  split
  all_goals
    refine Option.bind_congr fun sample _ => ?_
    rw [Function.comp_apply, Option.map_bind]
    exact Option.bind_congr fun type _ => hvalues offset scale sample type

/-- An entry has a value in each of its columns. -/
theorem length_entryColumns {md : Nat} {columns : List (List Char)} {values : List Nat}
    (hcolumns : entryColumns b md = some columns) (hvalues : entryValues b md = some values) :
    columns.length = values.length := by
  obtain ⟨type, htype, hcolumns⟩ := Option.bind_eq_some_iff.mp hcolumns
  obtain ⟨name, -, hcolumns⟩ := Option.bind_eq_some_iff.mp hcolumns
  obtain ⟨units, -, hcolumns⟩ := Option.bind_eq_some_iff.mp hcolumns
  obtain ⟨offset, -, hvalues⟩ := Option.bind_eq_some_iff.mp hvalues
  obtain ⟨scale, -, hvalues⟩ := Option.bind_eq_some_iff.mp hvalues
  obtain ⟨structureType, -, hvalues⟩ := Option.bind_eq_some_iff.mp hvalues
  obtain ⟨sample, -, hvalues⟩ := Option.bind_eq_some_iff.mp hvalues
  obtain ⟨type', htype', hvalues⟩ := Option.bind_eq_some_iff.mp hvalues
  obtain rfl : type = type' := Option.some.inj (htype.symm.trans htype')
  rw [valuesOf] at hvalues
  split at hvalues
  · next hpower =>
      rw [if_pos hpower] at hcolumns
      obtain ⟨energy, -, hvalues⟩ := Option.bind_eq_some_iff.mp hvalues
      obtain ⟨freq, -, rfl⟩ := Option.map_eq_some_iff.mp hvalues
      obtain rfl := Option.some.inj hcolumns
      rfl
  · next hpower =>
      rw [if_neg hpower] at hcolumns
      obtain rfl := Option.some.inj hvalues
      obtain rfl := Option.some.inj hcolumns
      rfl

/-- Names and values that belong together: four fields, and then those of each entry, as many
values as names. -/
def Aligned (b : Block) (names fields : List (List Char)) : Prop :=
  ∃ columns values : Nat → List (List Char),
    (∀ i < nrSensors b, entryColumns b (md b i) = some (columns i) ∧
      (entryValues b (md b i)).map (List.map decimal) = some (values i) ∧
      (columns i).length = (values i).length) ∧
    names.drop 4 = (List.range (nrSensors b)).flatMap columns ∧
    fields.drop 4 = (List.range (nrSensors b)).flatMap values

theorem printAllSensorsHeader_eq (hb : HasHeader b) {names : List (List Char)}
    (h : printAllSensorsHeader chipid b = some names) :
    (∀ i < nrSensors b, (entryColumns b (md b i)).isSome) ∧
      names = [label chipid, "Timestamp_sec".toList, "Host".toList, "Socket".toList] ++
        (List.range (nrSensors b)).flatMap fun i => (entryColumns b (md b i)).getD [] := by
  obtain ⟨columns, hcolumns, hnames⟩ := Option.bind_eq_some_iff.mp h
  obtain rfl := Option.some.inj hnames
  have hturn : (fun columns md => do
      let entry ← entryColumns b md
      return columns ++ entry) = fun line md => (entryColumns b md).map (line ++ ·) := by
    funext line md
    exact Option.map_eq_bind.symm
  rw [hturn] at hcolumns
  obtain ⟨hsome, rfl⟩ := sensorLoop_append hb hcolumns
  exact ⟨hsome, rfl⟩

theorem printAllSensorsLine_eq (hb : HasHeader b) {time : Rat} {fields : List (List Char)}
    (h : printAllSensorsLine host chipid time b = some fields) :
    (∀ i < nrSensors b, (entryValues b (md b i)).isSome) ∧
      fields = [label chipid, fixed 6 time, host, decimalInt (BitVec.ofNat 32 chipid).toInt] ++
        ((List.range (nrSensors b)).flatMap fun i =>
          (entryValues b (md b i)).getD []).map decimal := by
  obtain ⟨⟨c, values⟩, hvalues, hfields⟩ := Option.bind_eq_some_iff.mp h
  obtain rfl := Option.some.inj hfields
  obtain ⟨line, hline, heq⟩ := Option.bind_eq_some_iff.mp hvalues
  obtain ⟨rfl, rfl⟩ := Prod.mk.inj (Option.some.inj heq)
  have hturn : allSensorsTurn b = fun line md => (entryValues b md).map (line ++ ·) := by
    funext line md
    exact allSensorsTurn_eq line md
  rw [hturn] at hline
  obtain ⟨hsome, rfl⟩ := sensorLoop_append hb hline
  exact ⟨hsome, rfl⟩

/-- **Names and values of a block** belong together. -/
theorem aligned (hb : HasHeader b) {time : Rat} {names fields : List (List Char)}
    (hnames : printAllSensorsHeader chipid b = some names)
    (hfields : printAllSensorsLine host chipid time b = some fields) : Aligned b names fields := by
  obtain ⟨hcolumns, rfl⟩ := printAllSensorsHeader_eq hb hnames
  obtain ⟨hvalues, rfl⟩ := printAllSensorsLine_eq hb hfields
  refine ⟨fun i => (entryColumns b (md b i)).getD [],
    fun i => ((entryValues b (md b i)).getD []).map decimal, fun i hi => ?_, rfl, ?_⟩
  · obtain ⟨columns, hcolumns⟩ := Option.isSome_iff_exists.mp (hcolumns i hi)
    obtain ⟨values, hvalues⟩ := Option.isSome_iff_exists.mp (hvalues i hi)
    have hlen := length_entryColumns hcolumns hvalues
    simp only [hcolumns, hvalues, Option.getD_some, Option.map_some, List.length_map]
    exact ⟨trivial, trivial, hlen⟩
  · rw [← List.map_flatMap]
    rfl

theorem isWord_label (chipid : Nat) : IsWord (label chipid) :=
  IsWord.append (by decide) (isWord_decimalInt _)

theorem isRow_fields (hhost : IsWord host) {time : Rat} {fields : List (List Char)}
    (hb : HasHeader b) (h : printAllSensorsLine host chipid time b = some fields) :
    IsRow fields := by
  obtain ⟨-, rfl⟩ := printAllSensorsLine_eq hb h
  refine ⟨by simp, fun field hfield => ?_⟩
  rcases List.mem_append.mp hfield with hfield | hfield
  · simp only [List.mem_cons, List.not_mem_nil, or_false] at hfield
    rcases hfield with rfl | rfl | rfl | rfl
    · exact isWord_label chipid
    · exact isWord_fixed _ _
    · exact hhost
    · exact isWord_decimalInt _
  · obtain ⟨value, -, rfl⟩ := List.mem_map.mp hfield
    exact isWord_decimal value

/-- The lines for a block, taken apart. -/
def blockLines (n : Nat) (host : List Char) (start : AmdGpuTables.Timeval) (p : SocketRow × Nat) :
    List (List (List Char)) :=
  (if p.2 < n then [headFields p.1] else []) ++ [rowFields host start p.1]

theorem blockText_eq (n : Nat) (host : List Char) (start : AmdGpuTables.Timeval)
    (p : SocketRow × Nat) :
    blockText n host start p = ((blockLines n host start p).map line).flatten := by
  rw [blockText, blockLines]
  split <;> simp

/-- **Reading the lines.**  Where the names in the blocks are words, a reader gets the names and
the values back, line by line, and under the names of an entry stand its values. -/
theorem monitor_read (hfuel : OCC_SENSOR_DATA_BLOCK_SIZE < fuel)
    (hn : ∀ call ∈ calls, call.sys.nsockets.toNat = n) (hhost : IsWord host)
    (hnames : ∀ p ∈ (runRows calls).zipIdx, p.2 < n → ∀ name ∈ headFields p.1, IsWord name)
    {rcs : List Int} {s : MonitorState}
    (hrun : run fuel host calls ⟨0, none, []⟩ = some (rcs, s)) :
    read s.out = (runRows calls).zipIdx.flatMap (blockLines n host (startOf (runRows calls))) ∧
      ∀ p ∈ (runRows calls).zipIdx, p.2 < n →
        Aligned p.1.buf (headFields p.1) (rowFields host (startOf (runRows calls)) p.1) := by
  obtain ⟨-, hdefined, hout⟩ := monitor_run host hfuel hn
  have hprintable := hdefined.mp (by rw [hrun]; rfl)
  obtain ⟨-, -, hout⟩ := hout rcs s hrun
  -- every row was taken from a block with a header, and the printers found what they print
  have hheader : ∀ p ∈ (runRows calls).zipIdx, HasHeader p.1.buf := by
    intro p hp
    obtain ⟨call, -, hrow⟩ := List.mem_flatMap.mp (List.fst_mem_of_mem_zipIdx hp)
    obtain ⟨q, -, hq⟩ := List.mem_map.mp hrow
    rw [← hq]
    exact hasHeader_block _
  have hhead : ∀ p ∈ (runRows calls).zipIdx, p.2 < n →
      printAllSensorsHeader p.1.iter p.1.buf = some (headFields p.1) := by
    intro p hp hk
    obtain ⟨names, hsome⟩ := Option.isSome_iff_exists.mp ((hprintable p hp).1 hk)
    rw [headFields, hsome]
    rfl
  have hline : ∀ p ∈ (runRows calls).zipIdx,
      printAllSensorsLine host p.1.iter (elapsed (startOf (runRows calls)) p.1.now) p.1.buf =
        some (rowFields host (startOf (runRows calls)) p.1) := by
    intro p hp
    obtain ⟨values, hsome⟩ := Option.isSome_iff_exists.mp (hprintable p hp).2
    rw [rowFields, printAllSensorsLine, hsome]
    rfl
  constructor
  -- what is written is the text of these lines, so reading it gives the lines back
  · have hlines : (runRows calls).zipIdx.flatMap (blockText n host (startOf (runRows calls))) =
        (((runRows calls).zipIdx.flatMap
          (blockLines n host (startOf (runRows calls)))).map line).flatten := by
      rw [← List.flatMap_def, List.flatMap_assoc]
      refine List.flatMap_congr fun p _ => ?_
      rw [blockText_eq, List.flatMap_def]
    rw [hout, hlines]
    refine read_lines fun fields hfields => ?_
    obtain ⟨p, hp, hfields⟩ := List.mem_flatMap.mp hfields
    rcases List.mem_append.mp hfields with hfields | hfields
    · split at hfields
      · next hk =>
          obtain rfl := List.mem_singleton.mp hfields
          refine ⟨?_, hnames p hp hk⟩
          obtain ⟨-, heq⟩ := printAllSensorsHeader_eq (hheader p hp) (hhead p hp hk)
          rw [heq]
          simp
      · cases hfields
    · obtain rfl := List.mem_singleton.mp hfields
      exact isRow_fields hhost (hheader p hp) (hline p hp)
  · exact fun p hp hk => aligned (hheader p hp) (hhead p hp hk) (hline p hp)

/-- A call on a node of one socket with two sensors, one of them a power. -/
def oneSocket : MonitorCall :=
  ⟨⟨1, true, fun _ => true, fun _ count => count, fun _ _ => Int.le_refl _⟩,
    fun _ => twoSensors.byte, ⟨5, 0⟩, fun _ => ⟨6, 250000⟩⟩

/-- Two calls print the names and two lines of values, with two columns for the power. -/
theorem monitor_read_two :
    ∃ rcs s, run 200000 "n1".toList [oneSocket, oneSocket] ⟨0, none, []⟩ = some (rcs, s) ∧
      read s.out = (runRows [oneSocket, oneSocket]).zipIdx.flatMap
        (blockLines 1 "n1".toList (startOf (runRows [oneSocket, oneSocket]))) ∧
      ∀ p ∈ (runRows [oneSocket, oneSocket]).zipIdx, p.2 < 1 → Aligned p.1.buf (headFields p.1)
        (rowFields "n1".toList (startOf (runRows [oneSocket, oneSocket])) p.1) := by
  have hn : ∀ call ∈ [oneSocket, oneSocket], call.sys.nsockets.toNat = 1 := by decide
  have hsome : (run 200000 "n1".toList [oneSocket, oneSocket] ⟨0, none, []⟩).isSome := by
    decide +kernel
  obtain ⟨⟨rcs, s⟩, hs⟩ := Option.isSome_iff_exists.mp hsome
  exact ⟨rcs, s, hs, monitor_read (by decide) hn (by decide) (by decide +kernel) hs⟩

end Columns

end Variorum.OccMonitor
