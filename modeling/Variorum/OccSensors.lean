/-
Variorum/OccSensors.lean

The sensor blocks of the OCCs of a Power9 node, byte by byte.

A block starts with a header, which says where a table of names is and how many
entries it has, and where the two copies of the readings are, the one called
ping and the one called pong.  An entry says where in the copies its reading is
and in which of two formats.  `read_counter` and `read_sensor` look for the copy
to be read in the same way; they differ in the field that they read there
(`readCopy`).

A function that reads beyond its block has no result here.  `Readable` says when
a reading can be read, and `fieldAt` what it is then (`readCopy_eq`).  Doubles are
rational numbers, and one that is too great for an integer type becomes its
greatest number, as the processor converts it.
-/
import Mathlib.Data.Rat.Floor
import Variorum.Bytes
import Variorum.PowerJson

namespace Variorum

open Bytes

namespace Occ

/-! ### The layout -/

def OCC_SENSOR_DATA_BLOCK_SIZE : Nat := 0x00025800

/-- A block with these bytes. -/
def block (byte : Nat → BitVec 8) : Block := ⟨OCC_SENSOR_DATA_BLOCK_SIZE, byte⟩

/-- `struct occ_sensor_data_header`: the place of a field. -/
def Header.nrSensors : Nat := 2
def Header.namesOffset : Nat := 8
def Header.readingPingOffset : Nat := 16
def Header.readingPongOffset : Nat := 20
def Header.size : Nat := 24

/-- `struct occ_sensor_name`. -/
def Name.freq : Nat := 22
def Name.scaleFactor : Nat := 26
def Name.type : Nat := 30
def Name.structureType : Nat := 34
def Name.readingOffset : Nat := 35
def Name.size : Nat := 48

/-- `struct occ_sensor_record`. -/
def Record.timestamp : Nat := 2
def Record.sample : Nat := 10
def Record.accumulator : Nat := 28
def Record.size : Nat := 48

/-- `struct occ_sensor_counter`. -/
def Counter.timestamp : Nat := 2
def Counter.accumulator : Nat := 10
def Counter.size : Nat := 24

def MAX_CHARS_SENSOR_NAME : Nat := 16
def OCC_SENSOR_TYPE_POWER : Nat := 0x0080
def OCC_SENSOR_READING_FULL : BitVec 8 := 0x01

/-- `enum sensor_attr`. -/
inductive SensorAttr
  | sample
  | accumulator
  deriving DecidableEq, Repr

/-! ### Arithmetic -/

/-- `TO_FP`. -/
def toFp (f : Nat) : ℚ := (f / 256 : Nat) * 10 ^ (BitVec.ofNat 8 f).toInt

/-- A double as a `uint64_t`. -/
def toU64 (x : ℚ) : Nat := min ⌊x⌋.toNat (2 ^ 64 - 1)

/-- A quotient of doubles as a `uint64_t`; that of 0 by 0 is no number and becomes 0. -/
def quotientU64 (x y : ℚ) : Nat :=
  if y = 0 then if x = 0 then 0 else 2 ^ 64 - 1 else toU64 (x / y)

/-! ### The functions -/

/-- `read_counter` and `read_sensor` up to the fields that they read: where the time stamp of
a reading is, and where and how long the value. -/
def readCopy (timestamp field bytes : Nat) (b : Block) (offset : Nat) : Option Nat := do
  let ping ← b.be 4 Header.readingPingOffset
  let pong ← b.be 4 Header.readingPongOffset
  let sping := ping + offset
  let spong := pong + offset
  let pingValid ← b.get ping
  let pongValid ← b.get pong
  if pingValid ≠ 0 ∧ pongValid ≠ 0 then
    let pingTime ← b.be 8 (sping + timestamp)
    let pongTime ← b.be 8 (spong + timestamp)
    b.be bytes ((if pingTime > pongTime then sping else spong) + field)
  else if pingValid ≠ 0 then b.be bytes (sping + field)
  else if pongValid ≠ 0 then b.be bytes (spong + field)
  else some 0

def readCounter : Block → Nat → Option Nat :=
  readCopy Counter.timestamp Counter.accumulator 8

def readSensor (b : Block) (offset : Nat) : SensorAttr → Option Nat
  | .sample => readCopy Record.timestamp Record.sample 2 b offset
  | .accumulator => readCopy Record.timestamp Record.accumulator 8 b offset

/-- `for (i = 0; i < be16toh(hb->nr_sensors); i++)` over the entries `md[i]`. -/
def sensorLoop {σ : Type} (b : Block) (turn : σ → Nat → Option σ) (s : σ) : Option σ := do
  let md ← b.be 4 Header.namesOffset
  let nrSensors ← b.be 2 Header.nrSensors
  (List.range nrSensors).foldlM (fun s i => turn s (md + Name.size * i)) s

/-- The sample of an entry in the full format, and its scale factor: the first lines of most
of the loops. -/
def fullSample (b : Block) (md : Nat) : Option (Nat × Nat) := do
  let offset ← b.be 4 (md + Name.readingOffset)
  let scale ← b.be 4 (md + Name.scaleFactor)
  let structureType ← b.get (md + Name.structureType)
  let sample ←
    if structureType = OCC_SENSOR_READING_FULL then readSensor b offset .sample else some 0
  return (sample, scale)

def PWRSYS : List (BitVec 8) := ascii "PWRSYS"
def PWRPROC : List (BitVec 8) := ascii "PWRPROC"
def PWRMEM : List (BitVec 8) := ascii "PWRMEM"
def PWRGPU : List (BitVec 8) := ascii "PWRGPU"

/-- The variables of a loop that looks for powers, by the name they are for. -/
abbrev Powers := List (BitVec 8) → Nat

/-- The body of such a loop. -/
def powerTurn (names : List (List (BitVec 8))) (b : Block) (powers : Powers) (md : Nat) :
    Option Powers := do
  let (sample, scale) ← fullSample b md
  names.foldlM (fun powers name => do
    let found ← b.strEq name md
    return if found then Function.update powers name (toU64 (sample * toFp scale)) else powers)
    powers

/-- The loop over the entries, with the names that one function looks for. -/
def powerLoop (names : List (List (BitVec 8))) (b : Block) : Option Powers :=
  sensorLoop b (powerTurn names b) fun _ => 0

/-- `get_node_power`: the loop for PWRSYS alone. -/
def getNodePower (b : Block) : Option Nat := do
  let powers ← powerLoop [PWRSYS] b
  return powers PWRSYS

/-- The numbers in a line of `print_power_sensors`. -/
structure PowerLine where
  chipid : Nat
  pwrsys : Nat
  pwrproc : Nat
  pwrmem : Nat
  pwrgpu : Nat
  deriving DecidableEq, Repr

/-- `print_power_sensors`, up to the header, the host and the time. -/
def printPowerSensors (chipid : Nat) (b : Block) : Option PowerLine := do
  let powers ← powerLoop [PWRSYS, PWRPROC, PWRMEM, PWRGPU] b
  return ⟨chipid, powers PWRSYS, powers PWRPROC, powers PWRMEM, powers PWRGPU⟩

/-- The loop of `json_get_power_sensors`, for all three names. -/
def jsonPowerLoop (b : Block) : Option Powers := powerLoop [PWRSYS, PWRPROC, PWRMEM] b

/-- `json_get_power_sensors`: the three powers under their keys, that of the node for
chip 0. -/
def jsonGetPowerSensors (chipid : Nat) (nodeObj : Json.Object) (b : Block) :
    Option Json.Object := do
  let socketID ← CString.sprintf 12 (PowerJson.socketKey chipid)
  let powers ← jsonPowerLoop b
  let nodeObj :=
    if chipid = 0 then Fields.set PowerJson.powerNodeWatts (.real (powers PWRSYS)) nodeObj
    else nodeObj
  return PowerJson.newSocket socketID
    [(PowerJson.powerCpuWatts, (powers PWRPROC : ℚ)),
      (PowerJson.powerMemWatts, (powers PWRMEM : ℚ))]
    nodeObj

/-- The body of the loop of `print_all_sensors`, with the numbers printed so far. -/
def allSensorsTurn (b : Block) (line : List Nat) (md : Nat) : Option (List Nat) := do
  let offset ← b.be 4 (md + Name.readingOffset)
  let scale ← b.be 4 (md + Name.scaleFactor)
  let structureType ← b.get (md + Name.structureType)
  let sample ←
    if structureType = OCC_SENSOR_READING_FULL then readSensor b offset .sample
    else readCounter b offset
  let type ← b.be 2 (md + Name.type)
  if type = OCC_SENSOR_TYPE_POWER then
    let energy ← readSensor b offset .accumulator
    let freq ← b.be 4 (md + Name.freq)
    return line ++ [toU64 (sample * toFp scale), quotientU64 energy (toFp freq)]
  else return line ++ [toU64 (sample * toFp scale)]

/-- `print_all_sensors`: the numbers of its line, up to the time and the host. -/
def printAllSensors (chipid : Nat) (b : Block) : Option (Nat × List Nat) := do
  let line ← sensorLoop b (allSensorsTurn b) []
  return (chipid, line)

/-! ### What the bytes say -/

section Bytes

variable (b : Block)

/-- The number of entries, from the header of the block. -/
def nrSensors : Nat := b.value 2 Header.nrSensors

/-- Where the two copies are. -/
def ping : Nat := b.value 4 Header.readingPingOffset
def pong : Nat := b.value 4 Header.readingPongOffset

/-- The entry `md[i]`, and its fields. -/
def md (i : Nat) : Nat := b.value 4 Header.namesOffset + Name.size * i
def readingOffset (i : Nat) : Nat := b.value 4 (md b i + Name.readingOffset)
def scaleFactor (i : Nat) : Nat := b.value 4 (md b i + Name.scaleFactor)
def IsFull (i : Nat) : Prop := b.byte (md b i + Name.structureType) = OCC_SENSOR_READING_FULL
def IsPower (i : Nat) : Prop := b.value 2 (md b i + Name.type) = OCC_SENSOR_TYPE_POWER

instance (i : Nat) : Decidable (IsFull b i) := inferInstanceAs (Decidable (_ = _))
instance (i : Nat) : Decidable (IsPower b i) := inferInstanceAs (Decidable (_ = _))

/-- The name of a sensor. -/
def sensorName (i : Nat) : List (BitVec 8) := b.cstr MAX_CHARS_SENSOR_NAME (md b i)

/-- A copy is valid where its first byte is not 0. -/
def PingValid : Prop := b.byte (ping b) ≠ 0
def PongValid : Prop := b.byte (pong b) ≠ 0

instance : Decidable (PingValid b) := inferInstanceAs (Decidable (_ ≠ _))
instance : Decidable (PongValid b) := inferInstanceAs (Decidable (_ ≠ _))

/-- The time of a reading in a copy: the second field in both formats. -/
def timeAt (reading : Nat) : Nat := b.value 8 (reading + 2)

/-- **The copy of a reading**: the valid one, and of two the newer one, pong if they are of one
age. -/
def chosen (offset : Nat) : Option Nat :=
  if PingValid b ∧ PongValid b then
    if timeAt b (ping b + offset) > timeAt b (pong b + offset) then some (ping b + offset)
    else some (pong b + offset)
  else if PingValid b then some (ping b + offset)
  else if PongValid b then some (pong b + offset)
  else none

/-- A field of it; 0 where there is none. -/
def fieldAt (offset field bytes : Nat) : Nat :=
  match chosen b offset with
  | none => 0
  | some reading => b.value bytes (reading + field)

/-- The first `extent` bytes of a reading can be read: so can the two flags, the times if they
are compared, and these bytes in the copy that is chosen. -/
structure Readable (offset extent : Nat) : Prop where
  ping : ping b < b.size
  pong : pong b < b.size
  times : PingValid b → PongValid b →
    Occ.ping b + offset + 10 ≤ b.size ∧ Occ.pong b + offset + 10 ≤ b.size
  inside : ∀ reading ∈ chosen b offset, reading + extent ≤ b.size

end Bytes

/-! ### Readings -/

section Readings

variable {b : Block} {offset field bytes extent : Nat}

/-- The header can be read. -/
def HasHeader (b : Block) : Prop := Header.size ≤ b.size

theorem HasHeader.be (h : HasHeader b) {n a : Nat} (ha : a + n ≤ Header.size) :
    b.be n a = some (b.value n a) := Block.be_eq (ha.trans h)

theorem hasHeader_block (byte : Nat → BitVec 8) : HasHeader (block byte) := by
  show 24 ≤ 0x25800
  decide

theorem Readable.mono {extent' : Nat} (h : Readable b offset extent) (hle : extent' ≤ extent) :
    Readable b offset extent' :=
  ⟨h.ping, h.pong, h.times, fun r hr => (Nat.add_le_add_left hle r).trans (h.inside r hr)⟩

/-- `readCopy` in these words, on a block that has a header. -/
theorem readCopy_of_header (hb : HasHeader b) :
    readCopy 2 field bytes b offset = (b.get (ping b)).bind fun _ => (b.get (pong b)).bind fun _ =>
      if PingValid b ∧ PongValid b then
        (b.be 8 (ping b + offset + 2)).bind fun pingTime =>
          (b.be 8 (pong b + offset + 2)).bind fun pongTime =>
            b.be bytes ((if pingTime > pongTime then ping b + offset else pong b + offset) + field)
      else (chosen b offset).elim (some 0) fun reading => b.be bytes (reading + field) := by
  have hping : b.be 4 Header.readingPingOffset = some (ping b) := hb.be (by decide)
  have hpong : b.be 4 Header.readingPongOffset = some (pong b) := hb.be (by decide)
  rw [readCopy, hping, hpong]
  simp only [Option.bind_eq_bind, Option.bind_some, Block.get]
  by_cases hin : ping b < b.size
  · by_cases hin' : pong b < b.size
    · simp only [if_pos hin, if_pos hin', Option.bind_some]
      -- only where both copies are valid are their timestamps read
      by_cases hboth : PingValid b ∧ PongValid b
      · have hboth' : b.byte (ping b) ≠ 0 ∧ b.byte (pong b) ≠ 0 := hboth
        rw [if_pos hboth, if_pos hboth']
      · have hboth' : ¬ (b.byte (ping b) ≠ 0 ∧ b.byte (pong b) ≠ 0) := hboth
        rw [if_neg hboth, if_neg hboth', chosen, if_neg hboth]
        by_cases hping : PingValid b
        · have hping' : b.byte (ping b) ≠ 0 := hping
          rw [if_pos hping, if_pos hping']
          rfl
        · have hping' : ¬ b.byte (ping b) ≠ 0 := hping
          rw [if_neg hping, if_neg hping']
          by_cases hpong : PongValid b
          · have hpong' : b.byte (pong b) ≠ 0 := hpong
            rw [if_pos hpong, if_pos hpong']
            rfl
          · have hpong' : ¬ b.byte (pong b) ≠ 0 := hpong
            rw [if_neg hpong, if_neg hpong']
            rfl
    · simp only [if_pos hin, if_neg hin', Option.bind_some, Option.bind_none]
  · simp only [if_neg hin, Option.bind_none]

/-- **A reading**, in either format. -/
theorem readCopy_eq (hb : HasHeader b) (h : Readable b offset (field + bytes)) :
    readCopy 2 field bytes b offset = some (fieldAt b offset field bytes) := by
  have hcopy : (chosen b offset).elim (some 0) (fun reading => b.be bytes (reading + field))
      = some (fieldAt b offset field bytes) := by
    rw [fieldAt]
    cases hchosen : chosen b offset with
    | none => rfl
    | some reading =>
        have hin := h.inside reading hchosen
        exact Block.be_eq (by omega)
  rw [readCopy_of_header hb, Block.get_eq h.ping, Block.get_eq h.pong, Option.bind_some,
    Option.bind_some]
  split
  · next hboth =>
      obtain ⟨hin, hin'⟩ := h.times hboth.1 hboth.2
      rw [Block.be_eq (by omega), Block.be_eq (by omega), Option.bind_some, Option.bind_some,
        ← hcopy, chosen, if_pos hboth, timeAt, timeAt]
      split <;> rfl
  · exact hcopy

/-- **A reading can be read** exactly where its bytes are in the block. -/
theorem readCopy_isSome_iff (hb : HasHeader b) (hbytes : 0 < bytes) :
    (readCopy 2 field bytes b offset).isSome ↔ Readable b offset (field + bytes) := by
  constructor
  · intro h
    rw [readCopy_of_header hb] at h
    obtain ⟨v, hv⟩ := Option.isSome_iff_exists.mp h
    -- the call is followed as far as it got: both flags, both timestamps, and the copy it chose
    obtain ⟨p, hp, hv⟩ := Option.bind_eq_some_iff.mp hv
    obtain ⟨q, hq, hv⟩ := Option.bind_eq_some_iff.mp hv
    have hping := Block.get_isSome_iff.mp (Option.isSome_iff_exists.mpr ⟨p, hp⟩)
    have hpong := Block.get_isSome_iff.mp (Option.isSome_iff_exists.mpr ⟨q, hq⟩)
    split at hv
    · next hboth =>
        obtain ⟨tp, htp, hv⟩ := Option.bind_eq_some_iff.mp hv
        obtain ⟨tq, htq, hv⟩ := Option.bind_eq_some_iff.mp hv
        have hin := (Block.be_isSome_iff (by decide)).mp (Option.isSome_iff_exists.mpr ⟨tp, htp⟩)
        have hin' := (Block.be_isSome_iff (by decide)).mp (Option.isSome_iff_exists.mpr ⟨tq, htq⟩)
        refine ⟨hping, hpong, fun _ _ => ⟨by omega, by omega⟩, fun reading hreading => ?_⟩
        rw [Block.be_eq (by omega)] at htp htq
        obtain rfl := Option.some.inj htp
        obtain rfl := Option.some.inj htq
        -- the copy with the later timestamp, which is the one the condition speaks of
        have hread : reading = if timeAt b (ping b + offset) > timeAt b (pong b + offset)
            then ping b + offset else pong b + offset := by
          rw [chosen, if_pos hboth] at hreading
          split at hreading <;> rename_i htime
          · rw [if_pos htime]
            exact (Option.some.inj hreading).symm
          · rw [if_neg htime]
            exact (Option.some.inj hreading).symm
        have hend := (Block.be_isSome_iff hbytes).mp (Option.isSome_iff_exists.mpr ⟨v, hv⟩)
        rw [hread, timeAt, timeAt]
        omega
    · next hboth =>
        refine ⟨hping, hpong, fun h h' => absurd ⟨h, h'⟩ hboth, fun reading hreading => ?_⟩
        rw [hreading] at hv
        have hend := (Block.be_isSome_iff hbytes).mp (Option.isSome_iff_exists.mpr ⟨v, hv⟩)
        omega
  · intro h
    rw [readCopy_eq hb h]
    rfl

end Readings

end Occ

end Variorum
