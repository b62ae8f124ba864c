/-
Variorum/MonitorShape.lean

The columns of a node object are those of its shape.

A `PowerShape` says which powers a node object has: the one of the node, those
of the CPUs and memories of its sockets, and how many GPUs it announces.  A
`PowerSample` gives their values, and `Matches` says that a node object has this
shape and these values; what else is in it the monitor does not look at.

`powerCells_eq` says which columns the monitor finds then: one for each power of
the shape, in the order of the sockets.  `parseJsonPowerObj_iff` says what it
writes, and that this is something exactly when the texts fit its buffers.
-/
import Variorum.Monitor

namespace Variorum

open CString PowerJson
open Json (Object)

/-- Which powers the node objects of a platform have. -/
structure PowerShape where
  sockets : Nat
  sockets_pos : 0 < sockets
  sockets_lt : sockets < 2 ^ 31
  node : Bool
  cpu : Nat → Bool
  mem : Nat → Bool
  gpus : Option (BitVec 32)

/-- The values of the powers. -/
structure PowerSample where
  node : Rat
  cpu : Nat → Rat
  mem : Nat → Rat
  gpu : Int → Rat

namespace PowerShape

variable (sh : PowerShape)

/-- The number of GPUs for each socket, -1 where none is announced. -/
def gpusPerSocket : Int := (sh.gpus.map BitVec.toInt).getD (-1)

/-- The devices of a socket. -/
def devices (i : Nat) : List Int :=
  (List.range sh.gpusPerSocket.toNat).map fun j : Nat => i * sh.gpusPerSocket + (j : Int)

/-- A node object of this shape with the values of a sample. -/
structure Matches (x : PowerSample) (obj : Object) : Prop where
  node : Fields.get powerNodeWatts obj = if sh.node then some (.real x.node) else none
  gpus : match sh.gpus with
    | none => Fields.get numGpusPerSocket obj = none
    | some g => ∃ n, Fields.get numGpusPerSocket obj = some (.integer n) ∧ BitVec.ofInt 32 n = g
  total : 0 < sh.gpusPerSocket → sh.gpusPerSocket * sh.sockets < 2 ^ 31
  socket : ∀ i < sh.sockets, ∃ l : Object, Fields.get (socketKey i) obj = some (.object l) ∧
    Fields.get powerCpuWatts l = (if sh.cpu i then some (.real (x.cpu i)) else none) ∧
    Fields.get powerMemWatts l = (if sh.mem i then some (.real (x.mem i)) else none) ∧
    (0 < sh.gpusPerSocket →
      Fields.get powerGpuWatts l = some (.object (gpuFields x.gpu (sh.devices i))))

/-- The column of the node. -/
def nodeColumn (x : PowerSample) : List Cell :=
  if sh.node then [⟨"Node Power (W)".toList, x.node, ','⟩] else []

/-- The columns of a socket. -/
def socketColumns (x : PowerSample) (i : Nat) : List Cell :=
  (if sh.cpu i then [⟨socketColumn i, x.cpu i, ','⟩] else []) ++
  (if sh.mem i then [⟨memColumn i, x.mem i, memStop sh.sockets sh.gpusPerSocket i⟩] else []) ++
  (if 0 < sh.gpusPerSocket then (sh.devices i).map fun d =>
    ⟨gpuKey d ++ inWatts, x.gpu d, gpuStop (sh.gpusPerSocket * sh.sockets) (gpuKey d)⟩ else [])

/-- The columns of a node, in the order in which they are printed. -/
def columns (x : PowerSample) : List Cell :=
  sh.nodeColumn x ++ (List.range sh.sockets).flatMap (sh.socketColumns x)

end PowerShape

/-! ### The columns of a match -/

section Matches

variable {sh : PowerShape} {x : PowerSample} {obj : Object} {l : Object} {i : Nat}

theorem numGpus_eq (h : sh.Matches x obj) : numGpus obj = sh.gpusPerSocket := by
  have hgpus := h.gpus
  unfold numGpus PowerShape.gpusPerSocket
  cases hg : sh.gpus with
  | none =>
      rw [hg] at hgpus
      rw [show Fields.get numGpusPerSocket obj = none from hgpus]
      rfl
  | some g =>
      rw [hg] at hgpus
      obtain ⟨n, hn, rfl⟩ := hgpus
      rw [hn]
      rfl

theorem nodeCells_eq (h : sh.Matches x obj) : nodeCells obj = sh.nodeColumn x := by
  unfold nodeCells PowerShape.nodeColumn
  rw [h.node]
  cases sh.node with
  | true => rfl
  | false => rfl

theorem cpuCells_eq
    (h : Fields.get powerCpuWatts l = if sh.cpu i then some (.real (x.cpu i)) else none) :
    cpuCells (.object l) i = if sh.cpu i then [⟨socketColumn i, x.cpu i, ','⟩] else [] := by
  unfold cpuCells
  rw [show (Json.object l).get powerCpuWatts = _ from h]
  cases sh.cpu i with
  | true => rfl
  | false => rfl

theorem memCells_eq {n : Nat} {g : Int}
    (h : Fields.get powerMemWatts l = if sh.mem i then some (.real (x.mem i)) else none) :
    memCells (.object l) n g i
      = if sh.mem i then [⟨memColumn i, x.mem i, memStop n g i⟩] else [] := by
  unfold memCells
  rw [show (Json.object l).get powerMemWatts = _ from h]
  cases sh.mem i with
  | true => rfl
  | false => rfl

theorem gpuCells_eq {devs : List Int} {watts : Int → Rat} {n : Nat} {g : Int} (hg : 0 < g)
    (htotal : g * n < 2 ^ 31) :
    gpuCells (.object (gpuFields watts devs)) n g
      = some (devs.map fun d => ⟨gpuKey d ++ inWatts, watts d, gpuStop (g * n) (gpuKey d)⟩) := by
  -- the product is the number of all devices, an `int`
  have hnonneg : (0 : Int) ≤ g * n := Int.mul_nonneg hg.le (Int.natCast_nonneg n)
  have hcInt : cInt (g * n) = some (g * n) := if_pos ⟨by omega, htotal⟩
  unfold gpuCells
  rw [hcInt]
  cases devs with
  | nil => rfl
  | cons d devs =>
      show some _ = some _
      rw [Json.fields, gpuFields, List.map_map]
      rfl

theorem socketCells_eq (h : sh.Matches x obj) (hi : i < sh.sockets) :
    socketCells obj sh.sockets sh.gpusPerSocket i = some (sh.socketColumns x i) := by
  obtain ⟨l, hl, hcpu, hmem, hgpu⟩ := h.socket i hi
  have hkey : snprintf 20 (socketKey i) = socketKey i :=
    snprintf_socketKey (w := 12) (hi.trans (sh.sockets_lt.trans (by decide))) (by decide)
  unfold socketCells PowerShape.socketColumns
  rw [hkey, hl, Option.bind_eq_bind, Option.bind_some, cpuCells_eq hcpu, memCells_eq hmem]
  by_cases hg : 0 < sh.gpusPerSocket
  · have hobj : (Json.object l).get powerGpuWatts = _ := hgpu hg
    rw [if_pos hg, if_pos hg, hobj, Option.bind_eq_bind, Option.bind_some,
      gpuCells_eq hg (h.total hg)]
    rfl
  · rw [if_neg hg, if_neg hg, List.append_nil]

/-- **The columns of a node object** are those of its shape. -/
theorem powerCells_eq (h : sh.Matches x obj) :
    powerCells obj sh.sockets = some (sh.columns x) := by
  unfold powerCells
  rw [numGpus_eq h, GpuNode.overSockets_eq fun i hi => socketCells_eq h hi, nodeCells_eq h]
  rfl

/-- **What a call writes**, if its texts fit the buffers. -/
theorem parseJsonPowerObj_iff (h : sh.Matches x obj) {writeHeader : Bool}
    {hostname : List Char} {printed : Printed} {flag : Bool} :
    parseJsonPowerObj sh.sockets writeHeader hostname obj = some (printed, flag) ↔
      (writeHeader = true → Fit 100 500 (headerTexts (sh.columns x))) ∧
      Fit 100 1000 (valueTexts hostname (timestampOf obj) (sh.columns x)) ∧
      printed.header = (if writeHeader then (headerTexts (sh.columns x)).flatten else []) ∧
      printed.values = (valueTexts hostname (timestampOf obj) (sh.columns x)).flatten ∧
      flag = false := by
  obtain ⟨header, values⟩ := printed
  have hs : sh.sockets ≠ 0 := sh.sockets_pos.ne'
  unfold parseJsonPowerObj
  rw [powerCells_eq h, Option.bind_eq_bind, Option.bind_some, Option.bind_eq_bind,
    Option.bind_eq_some_iff]
  constructor
  · rintro ⟨header', hheader, hrest⟩
    obtain ⟨values', hvalues, hprinted⟩ := Option.bind_eq_some_iff.mp hrest
    clear hrest
    rw [if_neg hs] at hprinted
    obtain ⟨hfit, rfl⟩ := concat_eq_some_iff.mp hvalues
    cases hprinted
    cases writeHeader with
    | true =>
        obtain ⟨hfitHeader, rfl⟩ := concat_eq_some_iff.mp hheader
        exact ⟨fun _ => hfitHeader, hfit, rfl, rfl, rfl⟩
    | false =>
        cases hheader
        exact ⟨nofun, hfit, rfl, rfl, rfl⟩
  · rintro ⟨hfitHeader, hfit, rfl, rfl, rfl⟩
    refine ⟨_, ?_, Option.bind_eq_some_iff.mpr ⟨_, concat_eq_some_iff.mpr ⟨hfit, rfl⟩, if_neg hs⟩⟩
    cases writeHeader with
    | true => exact concat_eq_some_iff.mpr ⟨hfitHeader rfl, rfl⟩
    | false => rfl

/-- A call has a result when the buffers hold the texts. -/
theorem parseJsonPowerObj_isSome_iff (h : sh.Matches x obj) {writeHeader : Bool}
    {hostname : List Char} :
    (parseJsonPowerObj sh.sockets writeHeader hostname obj).isSome ↔
      (writeHeader = true → Fit 100 500 (headerTexts (sh.columns x))) ∧
      Fit 100 1000 (valueTexts hostname (timestampOf obj) (sh.columns x)) := by
  rw [Option.isSome_iff_exists]
  constructor
  · rintro ⟨⟨printed, flag⟩, hprinted⟩
    obtain ⟨hheader, hvalues, -⟩ := (parseJsonPowerObj_iff h).mp hprinted
    exact ⟨hheader, hvalues⟩
  · rintro ⟨hheader, hvalues⟩
    let header := if writeHeader then (headerTexts (sh.columns x)).flatten else []
    let values := (valueTexts hostname (timestampOf obj) (sh.columns x)).flatten
    refine ⟨(⟨header, values⟩, false), (parseJsonPowerObj_iff h).mpr ?_⟩
    exact ⟨hheader, hvalues, rfl, rfl, rfl⟩

end Matches

end Variorum
