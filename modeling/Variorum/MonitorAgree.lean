/-
Variorum/MonitorAgree.lean

Whether the monitor reads what the platforms write.

For each of the seven platforms with `variorum_get_power_json` there is the list
of its readings of a socket, and the shape and the sample of the node object it
is to write.  `Agrees` says that the object of every socket is there with all
readings inside, and that the monitor takes the node object and has a column for
each reading.  `agree_iff` says when: never on an N1, whose sockets are stored
under other keys than it looks for itself, and on the others as long as the
buffers hold what is printed into them, here and there.
-/
import Variorum.MonitorShape

namespace Variorum

open CString PowerJson
open Json (Object)

/-! ### The platforms -/

/-- A platform with `variorum_get_power_json` and what it reads. -/
inductive PowerPlatform
  | intel (pkgWatts dramWatts : Nat → Rat)
  | ibm (sensors : Nat → List OccSensor)
  | amdEpyc (esmi : Nat → Int × BitVec 32)
  | junoR2 (hwmon : JunoHwmon)
  | neoverseN1 (hwmon : NeoverseHwmon)
  | nvidia (gpuPower : Int → BitVec 32)
  | amdGpu (pwrVal : Int → BitVec 64)

/-- What is read of a socket: the power of its CPU, its memory, a device, the GPU of the
board, or its input and output. -/
inductive ReadingKind
  | cpu
  | mem
  | gpu (d : Int)
  | boardGpu
  | io

/-- A value a platform stores for a socket. -/
structure Reading where
  socket : Nat
  kind : ReadingKind
  watts : Rat

namespace Reading

/-- It is stored in the object of its socket. -/
def StoredIn (r : Reading) (j : Json) : Prop :=
  match r.kind with
  | .cpu => j.get powerCpuWatts = some (.real r.watts)
  | .mem => j.get powerMemWatts = some (.real r.watts)
  | .gpu d => ∃ gpuObj, j.get powerGpuWatts = some gpuObj ∧
      gpuObj.get (gpuKey d) = some (.real r.watts)
  | .boardGpu => j.get powerGpuWatts = some (.real r.watts)
  | .io => j.get powerIoWatts = some (.real r.watts)

/-- Its column, if it has one: the monitor prints neither the input and output of an
N1 nor the GPU of a Juno, which announces no GPUs. -/
def column (r : Reading) : Option (List Char) :=
  match r.kind with
  | .cpu => some (socketColumn r.socket)
  | .mem => some (memColumn r.socket)
  | .gpu d => some (gpuKey d ++ inWatts)
  | .boardGpu | .io => none

end Reading

namespace PowerPlatform

/-- The `variorum_get_power_json` of a platform. -/
def getPowerJson (node : GpuNode) : PowerPlatform → Object → Option Object
  | intel pkgWatts dramWatts => Intel.jsonGetPowerData pkgWatts dramWatts node.sockets
  | ibm sensors => Ibm.p9GetPowerJson sensors node.sockets
  | amdEpyc esmi => Amd.epycGetPowerJson esmi node.sockets
  | junoR2 hwmon => Arm.junoR2JsonGetPowerData hwmon node.sockets
  | neoverseN1 hwmon => Arm.neoverseN1JsonGetPowerData hwmon node.sockets
  | nvidia gpuPower => PowerJson.Nvidia.voltaGetPowerJson node gpuPower
  | amdGpu pwrVal => PowerJson.AmdGpu.getJsonPowerData node pwrVal

/-- The readings of a CPU platform for a socket. -/
def cpuReadings (i : Nat) : PowerPlatform → List Reading
  | intel pkgWatts dramWatts => [⟨i, .cpu, pkgWatts i⟩, ⟨i, .mem, dramWatts i⟩]
  | ibm sensors => [⟨i, .cpu, Ibm.sensorWatts "PWRPROC".toList (sensors i)⟩,
      ⟨i, .mem, Ibm.sensorWatts "PWRMEM".toList (sensors i)⟩]
  | amdEpyc esmi => [⟨i, .cpu, ((esmi i).2.toNat : Rat) / 1000⟩, ⟨i, .mem, -1⟩]
  | junoR2 hwmon =>
      if i = 0 then [⟨i, .cpu, microwatts hwmon.big⟩, ⟨i, .boardGpu, microwatts hwmon.gpu⟩]
      else if i = 1 then [⟨i, .boardGpu, -1⟩, ⟨i, .cpu, microwatts hwmon.little⟩]
      else [⟨i, .boardGpu, -1⟩]
  | neoverseN1 hwmon =>
      if i = 0 then
        [⟨i, .mem, -1⟩, ⟨i, .cpu, microwatts hwmon.cpu⟩, ⟨i, .io, microwatts hwmon.io⟩]
      else [⟨i, .mem, -1⟩]
  | nvidia _ | amdGpu _ => []

/-- The power of a device on a GPU platform. -/
def gpuWatts (d : Int) : PowerPlatform → Rat
  | nvidia gpuPower => PowerJson.Nvidia.watts gpuPower d
  | amdGpu pwrVal => PowerJson.AmdGpu.watts pwrVal d
  | _ => 0

/-- Whether the platform reads devices. -/
def hasGpus : PowerPlatform → Bool
  | nvidia _ | amdGpu _ => true
  | _ => false

/-- The readings of a GPU platform for a socket: one for each device of its block. -/
def gpuReadings (node : GpuNode) (i : Nat) (p : PowerPlatform) : List Reading :=
  if p.hasGpus then ((node.block i).getD []).map fun d => ⟨i, .gpu d, p.gpuWatts d⟩ else []

/-- The readings of a platform for a socket. -/
def readings (node : GpuNode) (p : PowerPlatform) (i : Nat) : List Reading :=
  p.cpuReadings i ++ p.gpuReadings node i

/-- The shape of its node objects. -/
def shape (node : GpuNode) (p : PowerPlatform) : PowerShape where
  sockets := node.sockets
  sockets_pos := node.sockets_pos
  sockets_lt := node.sockets_lt
  node :=
    match p with
    | intel _ _ | ibm _ | amdEpyc _ | junoR2 _ => true
    | neoverseN1 _ | nvidia _ | amdGpu _ => false
  cpu i :=
    match p with
    | intel _ _ | ibm _ | amdEpyc _ => true
    | junoR2 _ => i < 2
    | neoverseN1 _ => i = 0
    | nvidia _ | amdGpu _ => false
  mem _ :=
    match p with
    | intel _ _ | ibm _ | amdEpyc _ | neoverseN1 _ => true
    | junoR2 _ | nvidia _ | amdGpu _ => false
  gpus :=
    match p with
    | intel _ _ | ibm _ | amdEpyc _ | neoverseN1 _ => none
    | junoR2 _ => some (-1)
    | nvidia _ | amdGpu _ => some node.gpusPerSocket

/-- The values that a platform puts into its columns. -/
def sample (node : GpuNode) (p : PowerPlatform) : PowerSample where
  node :=
    match p with
    | intel pkgWatts dramWatts =>
        ((List.range node.sockets).map fun i => pkgWatts i + dramWatts i).sum
    | ibm sensors => Ibm.sensorWatts "PWRSYS".toList (sensors 0)
    | amdEpyc esmi =>
        ((List.range node.sockets).map fun i => ((esmi i).2.toNat : Rat) / 1000).sum
    | junoR2 hwmon => microwatts hwmon.sys
    | neoverseN1 _ | nvidia _ | amdGpu _ => 0
  cpu i :=
    match p with
    | intel pkgWatts _ => pkgWatts i
    | ibm sensors => Ibm.sensorWatts "PWRPROC".toList (sensors i)
    | amdEpyc esmi => ((esmi i).2.toNat : Rat) / 1000
    | junoR2 hwmon => if i = 0 then microwatts hwmon.big else microwatts hwmon.little
    | neoverseN1 hwmon => microwatts hwmon.cpu
    | nvidia _ | amdGpu _ => 0
  mem i :=
    match p with
    | intel _ dramWatts => dramWatts i
    | ibm sensors => Ibm.sensorWatts "PWRMEM".toList (sensors i)
    | amdEpyc _ | neoverseN1 _ => -1
    | junoR2 _ | nvidia _ | amdGpu _ => 0
  gpu d := p.gpuWatts d

/-- The platform comes to its end: the library answers, the board has both sockets, the
keys fit where they are printed unchecked, and no bound of a loop overflows. -/
def Returns (node : GpuNode) : PowerPlatform → Prop
  | intel _ _ | neoverseN1 _ => True
  | ibm _ => node.sockets ≤ 10000
  | amdEpyc esmi => ∀ i < node.sockets, (esmi i).1 = 0
  | junoR2 _ => 2 ≤ node.sockets
  | nvidia _ | amdGpu _ => ∀ c < node.sockets, (node.block c).isSome

/-- The keys of all sockets are the monitor's: an N1 begins them with a capital, and a
buffer of twelve holds ten thousand. -/
def KeysAgree (node : GpuNode) : PowerPlatform → Prop
  | neoverseN1 _ => False
  | amdGpu _ => True
  | intel _ _ | ibm _ | amdEpyc _ | junoR2 _ | nvidia _ => node.sockets ≤ 10000

end PowerPlatform

/-- Every socket has its object with every reading stored inside, and the monitor
accepts the node object and has a column for each reading that has one. -/
structure Agrees (p : PowerPlatform) (node : GpuNode) (hostname : List Char) (out : Object) :
    Prop where
  sockets : ∀ i < node.sockets, ∃ l, Fields.get (socketKey i) out = some (.object l)
  stored : ∀ i < node.sockets, ∀ r ∈ p.readings node i, ∃ j,
    Fields.get (socketKey i) out = some j ∧ r.StoredIn j
  accepted : (parseJsonPowerObj node.sockets true hostname out).isSome
  columns : ∃ cells, powerCells out node.sockets = some cells ∧
    ∀ i < node.sockets, ∀ r ∈ p.readings node i, ∀ name, r.column = some name →
      ∃ c ∈ cells, c.name = name ∧ c.watts = r.watts

/-- The platform returns an object with the keys of the monitor, whose buffers hold the
header and the line with all columns. -/
structure AgreeCondition (p : PowerPlatform) (node : GpuNode) (hostname : List Char)
    (timestamp : Int) : Prop where
  returns : p.Returns node
  keys : p.KeysAgree node
  header : Fit 100 500 (headerTexts ((p.shape node).columns (p.sample node)))
  values : Fit 100 1000 (valueTexts hostname (timestampOf (start timestamp))
    ((p.shape node).columns (p.sample node)))

/-! ### Readings and columns -/

section Readings

variable {sh : PowerShape} {x : PowerSample} {out : Object} {i : Nat}

theorem mem_columns {c : Cell} (hi : i < sh.sockets) (hc : c ∈ sh.socketColumns x i) :
    c ∈ sh.columns x :=
  List.mem_append_right _ (List.mem_flatMap.mpr ⟨i, List.mem_range.mpr hi, hc⟩)

/-- A value that is there exactly where the shape has it. -/
theorem eq_of_ite {b : Bool} {v w : Rat}
    (h : (if b then some (Json.real v) else none) = some (.real w)) : b = true ∧ v = w := by
  cases b with
  | true => exact ⟨rfl, Json.real.inj (Option.some.inj h)⟩
  | false => cases h

/-- A reading that is stored has its column. -/
theorem column_of_stored (h : sh.Matches x out) (hi : i < sh.sockets) {r : Reading} {j : Json}
    (hr : r.socket = i) (hj : Fields.get (socketKey i) out = some j) (hstored : r.StoredIn j)
    (hgpus : ∀ d, r.kind = .gpu d → 0 < sh.gpusPerSocket) {name : List Char}
    (hname : r.column = some name) : ∃ c ∈ sh.columns x, c.name = name ∧ c.watts = r.watts := by
  obtain ⟨socket, kind, watts⟩ := r
  obtain rfl : socket = i := hr
  obtain ⟨l, hl, hcpu, hmem, hgpu⟩ := h.socket socket hi
  obtain rfl := Option.some.inj (hl.symm.trans hj)
  cases kind with
  | cpu =>
      obtain ⟨hhas, rfl⟩ := eq_of_ite (hcpu.symm.trans hstored)
      obtain rfl := Option.some.inj hname
      refine ⟨⟨socketColumn socket, _, ','⟩, mem_columns hi ?_, rfl, rfl⟩
      apply List.mem_append_left
      apply List.mem_append_left
      rw [hhas]
      exact List.mem_singleton_self _
  | mem =>
      obtain ⟨hhas, rfl⟩ := eq_of_ite (hmem.symm.trans hstored)
      obtain rfl := Option.some.inj hname
      refine ⟨⟨memColumn socket, _, memStop sh.sockets sh.gpusPerSocket socket⟩,
        mem_columns hi ?_, rfl, rfl⟩
      apply List.mem_append_left
      apply List.mem_append_right
      rw [hhas]
      exact List.mem_singleton_self _
  | gpu d =>
      have hg := hgpus d rfl
      obtain ⟨gpuObj, hobj, hget⟩ := hstored
      obtain rfl := Option.some.inj ((hgpu hg).symm.trans hobj)
      -- the entry under the key of `d` was made for a device with this key, which is `d`
      obtain ⟨e, he, hkv⟩ := List.mem_map.mp (Fields.mem_of_get hget)
      obtain ⟨hkey, hwatts⟩ := Prod.mk.inj hkv
      obtain rfl := gpuKey_injective hkey
      obtain rfl := Json.real.inj hwatts
      obtain rfl := Option.some.inj hname
      refine ⟨⟨gpuKey e ++ inWatts, _, gpuStop (sh.gpusPerSocket * sh.sockets) (gpuKey e)⟩,
        mem_columns hi ?_, rfl, rfl⟩
      apply List.mem_append_right
      rw [if_pos hg]
      exact List.mem_map.mpr ⟨e, he, rfl⟩
  | boardGpu => cases hname
  | io => cases hname

end Readings

/-! ### What the platforms leave -/

section Platforms

variable {p : PowerPlatform} {node : GpuNode} {hostname : List Char} {timestamp : Int}
  {out : Object}

/-- What the monitor needs of a platform: a node object of its shape with its readings in
the sockets, and the time stamp kept. -/
structure DeliversPower (p : PowerPlatform) (node : GpuNode) (timestamp : Int) (out : Object) :
    Prop where
  shape : (p.shape node).Matches (p.sample node) out
  stored : ∀ i < node.sockets, ∀ r ∈ p.readings node i, r.socket = i ∧
    (∃ j, Fields.get (socketKey i) out = some j ∧ r.StoredIn j) ∧
    ∀ d, r.kind = .gpu d → 0 < (p.shape node).gpusPerSocket
  timestamp : timestampOf out = timestampOf (start timestamp)

/-- **A platform that delivers agrees** exactly when the texts fit. -/
theorem DeliversPower.agrees_iff (h : DeliversPower p node timestamp out) :
    Agrees p node hostname out ↔
      Fit 100 500 (headerTexts ((p.shape node).columns (p.sample node))) ∧
      Fit 100 1000 (valueTexts hostname (timestampOf (start timestamp))
        ((p.shape node).columns (p.sample node))) := by
  rw [← h.timestamp]
  have haccepted : (parseJsonPowerObj node.sockets true hostname out).isSome ↔ _ :=
    parseJsonPowerObj_isSome_iff h.shape
  rw [forall_prop_of_true rfl] at haccepted
  constructor
  · exact fun hagrees => haccepted.mp hagrees.accepted
  · intro hfit
    constructor
    · intro i hi
      obtain ⟨l, hl, -⟩ := h.shape.socket i hi
      exact ⟨l, hl⟩
    · exact fun i hi r hr => (h.stored i hi r hr).2.1
    · exact haccepted.mpr hfit
    · have hcells : powerCells out (p.shape node).sockets
          = some ((p.shape node).columns (p.sample node)) := powerCells_eq h.shape
      refine ⟨_, hcells, fun i hi r hr name hname => ?_⟩
      obtain ⟨hsocket, ⟨j, hj, hstored⟩, hgpus⟩ := h.stored i hi r hr
      exact column_of_stored h.shape hi hsocket hj hstored hgpus hname

/-- **A CPU platform delivers** within the ten thousand sockets its buffer can name. -/
theorem delivers_of_cpuOutput {fields : Nat → Object} {gpus : Option Json}
    (hout : CpuOutput node.sockets fields (p.sample node).node gpus (start timestamp) out)
    (hs : node.sockets ≤ 10000) (hnode : (p.shape node).node = true)
    (hgpus : gpus = none ∧ (p.shape node).gpus = none ∨
      gpus = some (.integer (-1)) ∧ (p.shape node).gpus = some (-1))
    (hfields : ∀ i,
      Fields.get powerCpuWatts (fields i)
        = (if (p.shape node).cpu i then some (.real ((p.sample node).cpu i)) else none) ∧
      Fields.get powerMemWatts (fields i)
        = (if (p.shape node).mem i then some (.real ((p.sample node).mem i)) else none))
    (hr : ∀ i, ∀ r ∈ p.readings node i,
      r.socket = i ∧ r.StoredIn (.object (fields i)) ∧ ∀ d, r.kind ≠ .gpu d) :
    DeliversPower p node timestamp out := by
  have hneg : ¬ 0 < (p.shape node).gpusPerSocket := by
    unfold PowerShape.gpusPerSocket
    rcases hgpus with ⟨-, h⟩ | ⟨-, h⟩ <;> rw [h] <;> decide
  have hsocket : ∀ i < node.sockets, Fields.get (socketKey i) out = some (.object (fields i)) :=
    fun i hi => hout.socket i hi (keyed_of_le hs hi)
  constructor
  · constructor
    · rw [hout.node, hnode]
      rfl
    · rw [hout.gpus]
      rcases hgpus with ⟨rfl, h⟩ | ⟨rfl, h⟩ <;> rw [h]
      exact ⟨-1, rfl, rfl⟩
    · exact fun h => absurd h hneg
    · exact fun i hi => ⟨fields i, hsocket i hi, (hfields i).1, (hfields i).2,
        fun h => absurd h hneg⟩
  · intro i hi r hmem
    obtain ⟨hri, hstored, hkind⟩ := hr i r hmem
    exact ⟨hri, ⟨_, hsocket i hi, hstored⟩, fun d hd => absurd hd (hkind d)⟩
  · exact congrArg (fun j => (BitVec.ofInt 64 (Json.integerValue j)).toInt)
      (hout.other _ foreign_timestamp)

/-- Without GPUs the readings are those of the CPU. -/
theorem readings_of_cpu (h : p.hasGpus = false) (i : Nat) :
    p.readings node i = p.cpuReadings i := by
  rw [PowerPlatform.readings, PowerPlatform.gpuReadings, h]
  exact List.append_nil _

/-- A CPU platform that stores the power of the CPU and of the memory. -/
theorem delivers_of_cpu_mem
    (hout : CpuOutput node.sockets (fun i => fieldsOf
      [(powerCpuWatts, (p.sample node).cpu i), (powerMemWatts, (p.sample node).mem i)])
      (p.sample node).node none (start timestamp) out)
    (hs : node.sockets ≤ 10000) (hnode : (p.shape node).node = true)
    (hgpus : (p.shape node).gpus = none) (hcpu : ∀ i, (p.shape node).cpu i = true)
    (hmem : ∀ i, (p.shape node).mem i = true)
    (hr : ∀ i, p.readings node i
      = [⟨i, .cpu, (p.sample node).cpu i⟩, ⟨i, .mem, (p.sample node).mem i⟩]) :
    DeliversPower p node timestamp out := by
  refine delivers_of_cpuOutput hout hs hnode (.inl ⟨rfl, hgpus⟩) (fun i => ?_) fun i r hmem => ?_
  · rw [hcpu, hmem]
    exact ⟨rfl, rfl⟩
  · rw [hr] at hmem
    rcases List.mem_cons.mp hmem with rfl | hmem
    · exact ⟨rfl, rfl, nofun⟩
    · obtain rfl := List.mem_singleton.mp hmem
      exact ⟨rfl, rfl, nofun⟩

/-- **ARM Juno r2** has the power of the CPU in the first two sockets. -/
theorem delivers_junoR2 {hwmon : JunoHwmon}
    (h : Arm.junoR2JsonGetPowerData hwmon node.sockets (start timestamp) = some out)
    (hs : node.sockets ≤ 10000) : DeliversPower (.junoR2 hwmon) node timestamp out := by
  refine delivers_of_cpuOutput (Juno.output h) hs rfl (.inr ⟨rfl, rfl⟩) (fun i => ?_)
    fun i r hmem => ?_
  · match i with
    | 0 => exact ⟨rfl, rfl⟩
    | 1 => exact ⟨rfl, rfl⟩
    | i + 2 => exact ⟨rfl, rfl⟩
  · rw [readings_of_cpu rfl] at hmem
    match i with
    | 0 =>
        rcases List.mem_cons.mp hmem with rfl | hmem
        · exact ⟨rfl, rfl, nofun⟩
        · obtain rfl := List.mem_singleton.mp hmem
          exact ⟨rfl, rfl, nofun⟩
    | 1 =>
        rcases List.mem_cons.mp hmem with rfl | hmem
        · exact ⟨rfl, rfl, nofun⟩
        · obtain rfl := List.mem_singleton.mp hmem
          exact ⟨rfl, rfl, nofun⟩
    | i + 2 =>
        obtain rfl := List.mem_singleton.mp hmem
        exact ⟨rfl, rfl, nofun⟩

/-- The block of a socket has the devices of the shape. -/
theorem devices_of_block (hgpus : (p.shape node).gpus = some node.gpusPerSocket) {i : Nat}
    {devs : List Int} (h : node.block i = some devs) :
    devs = (p.shape node).devices i ∧ (i + 1) * (p.shape node).gpusPerSocket < 2 ^ 31 := by
  have hg : (p.shape node).gpusPerSocket = node.gpusPerSocket.toInt := by
    rw [PowerShape.gpusPerSocket, hgpus]
    rfl
  rw [PowerShape.devices, hg]
  exact GpuNode.block_devices h

/-- **A GPU platform delivers** where its buffer holds the keys. -/
theorem delivers_of_gpuOutput {keyed : Nat → Prop} {gpus : Int}
    (hout : GpuOutput node (fun d => p.gpuWatts d) keyed gpus (start timestamp) out)
    (hkeyed : ∀ i < node.sockets, keyed i) (hint : BitVec.ofInt 32 gpus = node.gpusPerSocket)
    (hp : p.hasGpus = true) (hnode : (p.shape node).node = false)
    (hgpus : (p.shape node).gpus = some node.gpusPerSocket)
    (hcpu : ∀ i, (p.shape node).cpu i = false ∧ (p.shape node).mem i = false ∧
      p.cpuReadings i = []) : DeliversPower p node timestamp out := by
  have hsocket : ∀ i < node.sockets, ∃ devs, node.block i = some devs ∧
      Fields.get (socketKey i) out
        = some (.object [(powerGpuWatts, .object (gpuFields (fun d => p.gpuWatts d) devs))]) := by
    intro i hi
    obtain ⟨devs, hdevs, hget⟩ := hout.socket i hi (hkeyed i hi)
    rw [get_start (by rw [head_socketKey]; decide), Option.getD_none] at hget
    exact ⟨devs, hdevs, hget⟩
  constructor
  · constructor
    · rw [hout.noNode (get_start (by decide) timestamp), hnode]
      rfl
    · rw [hgpus]
      exact ⟨gpus, hout.gpus, hint⟩
    · intro _
      -- the product of the last socket is the bound of its loop
      obtain ⟨s, hs⟩ := Nat.exists_eq_succ_of_ne_zero node.sockets_pos.ne'
      obtain ⟨devs, hdevs, -⟩ := hsocket s (by omega)
      have hlt := (devices_of_block hgpus hdevs).2
      show (p.shape node).gpusPerSocket * (node.sockets : Int) < 2 ^ 31
      rw [hs, mul_comm]
      exact_mod_cast hlt
    · intro i hi
      obtain ⟨devs, hdevs, hget⟩ := hsocket i hi
      obtain ⟨hcpu, hmem, -⟩ := hcpu i
      rw [hcpu, hmem, ← (devices_of_block hgpus hdevs).1]
      exact ⟨_, hget, rfl, rfl, fun _ => rfl⟩
  · intro i hi r hmem
    obtain ⟨devs, hdevs, hget⟩ := hsocket i hi
    rw [PowerPlatform.readings, (hcpu i).2.2, PowerPlatform.gpuReadings, hp, hdevs] at hmem
    obtain ⟨d, hd, rfl⟩ := List.mem_map.mp hmem
    refine ⟨rfl, ⟨_, hget, _, rfl, get_gpuFields hd⟩, fun _ _ => ?_⟩
    -- a block with a device in it is one of a positive number
    by_contra hneg
    rw [Option.getD_some, (devices_of_block hgpus hdevs).1, PowerShape.devices,
      Int.toNat_of_nonpos (not_lt.mp hneg)] at hd
    cases hd
  · exact congrArg (fun j => (BitVec.ofInt 64 (Json.integerValue j)).toInt)
      (hout.other _ foreign_timestamp)

/-- **The platforms deliver** where their keys are the monitor's. -/
theorem delivers_of_getPowerJson (h : p.getPowerJson node (start timestamp) = some out)
    (hkeys : p.KeysAgree node) : DeliversPower p node timestamp out := by
  cases p with
  | intel pkgWatts dramWatts =>
      exact delivers_of_cpu_mem (Intel.output h) hkeys rfl rfl (fun _ => rfl) (fun _ => rfl)
        (readings_of_cpu rfl)
  | ibm sensors =>
      exact delivers_of_cpu_mem (Ibm.output node.sockets_pos h) hkeys rfl rfl (fun _ => rfl)
        (fun _ => rfl) (readings_of_cpu rfl)
  | amdEpyc esmi =>
      exact delivers_of_cpu_mem (Amd.output h) hkeys rfl rfl (fun _ => rfl) (fun _ => rfl)
        (readings_of_cpu rfl)
  | junoR2 hwmon => exact delivers_junoR2 h hkeys
  | neoverseN1 hwmon => cases hkeys
  | nvidia gpuPower =>
      refine delivers_of_gpuOutput (Nvidia.output h) (fun i hi => keyed_of_le hkeys hi) ?_
        rfl rfl rfl fun _ => ⟨rfl, rfl, rfl⟩
      rw [BitVec.ofInt_natCast, BitVec.ofNat_toNat, BitVec.setWidth_eq]
  | amdGpu pwrVal =>
      exact delivers_of_gpuOutput (AmdGpu.output h) (fun _ _ => trivial) (BitVec.ofInt_toInt)
        rfl rfl rfl fun _ => ⟨rfl, rfl, rfl⟩

theorem getPowerJson_isSome_iff :
    (p.getPowerJson node (start timestamp)).isSome ↔ p.Returns node := by
  cases p with
  | intel pkgWatts dramWatts => exact iff_of_true (Intel.isSome _ _ _ _) trivial
  | ibm sensors => exact Ibm.isSome_iff
  | amdEpyc esmi => exact Amd.isSome_iff
  | junoR2 hwmon => exact Juno.isSome_iff
  | neoverseN1 hwmon =>
      refine iff_of_true ((isSome_bind_iff fun _ => rfl).mpr ?_) trivial
      exact forSockets_isSome fun _ _ _ => rfl
  | nvidia gpuPower => exact Nvidia.isSome_iff
  | amdGpu pwrVal => exact AmdGpu.isSome_iff

/-- Of more than ten thousand sockets one has no object where long keys leave nothing. -/
theorem sockets_le_of_agrees (h : Agrees p node hostname out)
    (hlong : ∀ k : List Char, 12 ≤ k.length → k.head? = some 's' →
      Fields.get k out = Fields.get k (start timestamp)) : node.sockets ≤ 10000 := by
  by_contra hs
  obtain ⟨l, hl⟩ := h.sockets 10000 (Nat.not_le.mp hs)
  rw [hlong _ (length_socketKey_of_le le_rfl) (head_socketKey _),
    get_start (by rw [head_socketKey]; decide)] at hl
  cases hl

/-- The sockets are not all there where the keys differ. -/
theorem keysAgree_of_agrees (h : p.getPowerJson node (start timestamp) = some out)
    (hagrees : Agrees p node hostname out) : p.KeysAgree node := by
  cases p with
  | intel pkgWatts dramWatts => exact sockets_le_of_agrees hagrees (Intel.output h).long
  | ibm sensors => exact sockets_le_of_agrees hagrees (Ibm.output node.sockets_pos h).long
  | amdEpyc esmi => exact sockets_le_of_agrees hagrees (Amd.output h).long
  | junoR2 hwmon => exact sockets_le_of_agrees hagrees (Juno.output h).long
  | neoverseN1 hwmon =>
      -- `Socket_0` is there, `socket_0` is not
      obtain ⟨l, hl⟩ := hagrees.sockets 0 node.sockets_pos
      rw [Neoverse.get_socketKey h (get_start (by decide) timestamp)] at hl
      cases hl
  | nvidia gpuPower => exact sockets_le_of_agrees hagrees fun k => Nvidia.long h
  | amdGpu pwrVal => trivial

end Platforms

/-- **Platforms and monitor agree** exactly when the platform returns an object with the
monitor's keys and the monitor's buffers hold what it makes of them. -/
theorem agree_iff (p : PowerPlatform) (node : GpuNode) (hostname : List Char)
    (timestamp : Int) :
    (∃ out, p.getPowerJson node (start timestamp) = some out ∧ Agrees p node hostname out) ↔
      AgreeCondition p node hostname timestamp := by
  constructor
  · rintro ⟨out, hout, hagrees⟩
    have hkeys := keysAgree_of_agrees hout hagrees
    obtain ⟨hheader, hvalues⟩ := (delivers_of_getPowerJson hout hkeys).agrees_iff.mp hagrees
    have hreturns : p.Returns node :=
      getPowerJson_isSome_iff.mp (Option.isSome_iff_exists.mpr ⟨out, hout⟩)
    exact ⟨hreturns, hkeys, hheader, hvalues⟩
  · rintro ⟨hreturns, hkeys, hheader, hvalues⟩
    have hsome : (p.getPowerJson node (start timestamp)).isSome :=
      getPowerJson_isSome_iff.mpr hreturns
    obtain ⟨out, hout⟩ := Option.isSome_iff_exists.mp hsome
    exact ⟨out, hout, (delivers_of_getPowerJson hout hkeys).agrees_iff.mpr ⟨hheader, hvalues⟩⟩

/-- An N1 with one socket. -/
def neoverseNode : GpuNode := ⟨0, 1, Nat.one_pos, GpuNode.one_lt⟩

/-- The board in watts: 32 for the CPU, 9 for its input and output. -/
def neoverseN1 : PowerPlatform := .neoverseN1 ⟨32000000, 9000000⟩

/-- It returns an object in which the monitor does not find the socket, and ends. -/
theorem neoverseN1_not_read :
    ∃ out, neoverseN1.getPowerJson neoverseNode (start 0) = some out ∧
      parseJsonPowerObj 1 true "n1".toList out = none ∧
      ¬ Agrees neoverseN1 neoverseNode "n1".toList out := by
  have hsome : (neoverseN1.getPowerJson neoverseNode (start 0)).isSome :=
    getPowerJson_isSome_iff.mpr trivial
  obtain ⟨out, hout⟩ := Option.isSome_iff_exists.mp hsome
  have hnone : Fields.get (socketKey 0) out = none :=
    Neoverse.get_socketKey hout (get_start (by decide) 0)
  refine ⟨out, hout, ?_, fun h => keysAgree_of_agrees hout h⟩
  have hcells : socketCells out 1 (numGpus out) 0 = none := by
    rw [socketCells, show snprintf 20 (socketKey 0) = socketKey 0 by decide, hnone]
    rfl
  rw [parseJsonPowerObj, powerCells, GpuNode.overSockets, GpuNode.overSockets, hcells]
  rfl

end Variorum
