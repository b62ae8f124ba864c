/-
Variorum/OccBounds.lean

Where the functions that go over a sensor block stay inside it.

None of them looks at the size of the block: the place of the table, the number of
its entries, the places of the two copies and those of the readings are used as
they stand in it.  `print_all_sensors` reads the most, so all four functions stay
inside exactly where it does (`readsInside_iff`): the entries of the table are
inside up to their reading offset, and every reading up to the last field that is
read of it.
-/
import Variorum.Loop
import Variorum.OccSensors

namespace Variorum

open Bytes

namespace Occ

/-! ### What is asked -/

/-- No function reads beyond a block with these bytes. -/
structure ReadsInside (byte : Nat → BitVec 8) : Prop where
  node : (getNodePower (block byte)).isSome
  printed : ∀ chipid, (printPowerSensors chipid (block byte)).isSome
  all : ∀ chipid, (printAllSensors chipid (block byte)).isSome
  json : (jsonPowerLoop (block byte)).isSome

/-- The bytes of a reading that are read, to the end of the last field: the accumulator of a
record for a power, else the sample or the accumulator of a counter. -/
def extent (b : Block) (i : Nat) : Nat :=
  if IsPower b i then Record.accumulator + 8
  else if IsFull b i then Record.sample + 2
  else Counter.accumulator + 8

/-- An entry is in the block up to its reading offset, and so is its reading. -/
structure EntryInside (b : Block) (i : Nat) : Prop where
  entry : md b i + (Name.readingOffset + 4) ≤ b.size
  reading : Readable b (readingOffset b i) (extent b i)

/-! ### The loops -/

section Loops

variable {b : Block} {i : Nat}

/-- A loop stays inside where the turns do. -/
theorem sensorLoop_isSome_iff {σ : Type} (hb : HasHeader b) {turn : σ → Nat → Option σ}
    {P : Nat → Prop} (h : ∀ s, ∀ i < nrSensors b, (turn s (md b i)).isSome ↔ P i) (s : σ) :
    (sensorLoop b turn s).isSome ↔ ∀ i < nrSensors b, P i := by
  have hmd : b.be 4 Header.namesOffset = some (b.value 4 Header.namesOffset) := hb.be (by decide)
  have hnr : b.be 2 Header.nrSensors = some (nrSensors b) := hb.be (by decide)
  have hloop := Loop.foldlM_isSome_iff (f := fun s i => turn s (md b i)) (P := P)
    (l := List.range (nrSensors b)) (t := s) fun s i hi => h s i (List.mem_range.mp hi)
  rw [sensorLoop, hmd, hnr]
  simp only [List.mem_range] at hloop
  exact hloop

/-- The fields of an entry, as far as they are read. -/
structure Fields (b : Block) (i : Nat) : Prop where
  offset : b.be 4 (md b i + Name.readingOffset) = some (readingOffset b i)
  scale : b.be 4 (md b i + Name.scaleFactor) = some (scaleFactor b i)
  structureType : b.get (md b i + Name.structureType)
    = some (b.byte (md b i + Name.structureType))
  type : b.be 2 (md b i + Name.type) = some (b.value 2 (md b i + Name.type))
  freq : b.be 4 (md b i + Name.freq) = some (b.value 4 (md b i + Name.freq))

theorem fields_of_inside (h : md b i + (Name.readingOffset + 4) ≤ b.size) : Fields b i := by
  simp only [Name.readingOffset] at h
  exact ⟨Block.be_eq h, Block.be_eq (by simp only [Name.scaleFactor]; omega),
    Block.get_eq (by simp only [Name.structureType]; omega),
    Block.be_eq (by simp only [Name.type]; omega), Block.be_eq (by simp only [Name.freq]; omega)⟩

theorem entry_of_isSome {σ : Type} {rest : Nat → Option σ}
    (h : ((b.be 4 (md b i + Name.readingOffset)).bind rest).isSome) :
    md b i + (Name.readingOffset + 4) ≤ b.size := by
  obtain ⟨v, hv⟩ := Option.isSome_iff_exists.mp h
  obtain ⟨offset, hoffset, -⟩ := Option.bind_eq_some_iff.mp hv
  have hin := (Block.be_isSome_iff (by decide)).mp (Option.isSome_iff_exists.mpr ⟨offset, hoffset⟩)
  omega

/-- The readings of a turn of `print_all_sensors`: a sample, and for a power its energy. -/
theorem allReadings_isSome_iff (hb : HasHeader b) {type : Nat} {field bytes : Nat} {offset : Nat}
    (hbytes : 0 < bytes) (hle : field + bytes ≤ Record.accumulator + 8)
    {power : Nat → Nat → List Nat} {other : Nat → List Nat} :
    ((readCopy 2 field bytes b offset).bind fun sample =>
      if type = OCC_SENSOR_TYPE_POWER then
        (readSensor b offset .accumulator).bind fun energy => some (power sample energy)
      else some (other sample)).isSome
    ↔ Readable b offset
        (if type = OCC_SENSOR_TYPE_POWER then Record.accumulator + 8 else field + bytes) := by
  have hsample : (readCopy 2 field bytes b offset).isSome ↔ Readable b offset (field + bytes) :=
    readCopy_isSome_iff hb hbytes
  have henergy : (readSensor b offset .accumulator).isSome
      ↔ Readable b offset (Record.accumulator + 8) := readCopy_isSome_iff hb (by decide)
  split
  · rw [← henergy]
    constructor
    · intro h
      obtain ⟨v, hv⟩ := Option.isSome_iff_exists.mp h
      obtain ⟨s, -, hv⟩ := Option.bind_eq_some_iff.mp hv
      obtain ⟨e, he, -⟩ := Option.bind_eq_some_iff.mp hv
      exact Option.isSome_iff_exists.mpr ⟨e, he⟩
    · intro h
      obtain ⟨s, hs⟩ := Option.isSome_iff_exists.mp (hsample.mpr ((henergy.mp h).mono hle))
      obtain ⟨e, he⟩ := Option.isSome_iff_exists.mp h
      rw [hs, he]
      rfl
  · rw [← hsample]
    cases readCopy 2 field bytes b offset <;> rfl

/-- **A turn of `print_all_sensors`** stays inside the block just where its entry does. -/
theorem allSensorsTurn_isSome_iff (hb : HasHeader b) (line : List Nat) :
    (allSensorsTurn b line (md b i)).isSome ↔ EntryInside b i := by
  -- Behind the fields of the entry only its readings are left.
  have hturn : Fields b i → ((allSensorsTurn b line (md b i)).isSome
      ↔ Readable b (readingOffset b i) (extent b i)) := by
    intro fields
    rw [allSensorsTurn, fields.offset, fields.scale, fields.structureType, fields.type,
      fields.freq, extent]
    simp only [Option.bind_eq_bind, Option.bind_some, IsPower]
    by_cases hfull : IsFull b i
    · have hfull' : b.byte (md b i + Name.structureType) = OCC_SENSOR_READING_FULL := hfull
      rw [if_pos hfull', if_pos hfull]
      exact allReadings_isSome_iff hb (by decide) (by decide)
    · have hfull' : ¬ b.byte (md b i + Name.structureType) = OCC_SENSOR_READING_FULL := hfull
      rw [if_neg hfull', if_neg hfull]
      exact allReadings_isSome_iff hb (by decide) (by decide)
  constructor
  · intro h
    have hentry := entry_of_isSome h
    exact ⟨hentry, (hturn (fields_of_inside hentry)).mp h⟩
  · intro h
    exact (hturn (fields_of_inside h.entry)).mpr h.reading

/-- A turn of a loop that looks for powers reads no more than that. -/
theorem powerTurn_isSome (hb : HasHeader b) (h : EntryInside b i)
    {names : List (List (BitVec 8))}
    (hnames : ∀ name ∈ names, name.length < Name.readingOffset + 4) (powers : Powers) :
    (powerTurn names b powers (md b i)).isSome := by
  have fields := fields_of_inside h.entry
  -- the reading is inside the block, and so is the name it is compared with
  obtain ⟨sample, hfull⟩ : ∃ sample, fullSample b (md b i) = some sample := by
    rw [fullSample, fields.offset, fields.scale, fields.structureType]
    simp only [Option.bind_eq_bind, Option.bind_some]
    by_cases hfull : IsFull b i
    · have hfull' : b.byte (md b i + Name.structureType) = OCC_SENSOR_READING_FULL := hfull
      have hle : Record.sample + 2 ≤ extent b i := by
        rw [extent, if_pos hfull]
        split <;> decide
      have hread : readSensor b (readingOffset b i) .sample = some _ :=
        readCopy_eq hb (h.reading.mono hle)
      rw [if_pos hfull', hread]
      exact ⟨_, rfl⟩
    · have hfull' : ¬ b.byte (md b i + Name.structureType) = OCC_SENSOR_READING_FULL := hfull
      rw [if_neg hfull']
      exact ⟨_, rfl⟩
  rw [powerTurn, hfull]
  refine (Loop.foldlM_isSome_iff (P := fun _ => True) fun powers name hname => ?_).mpr
    fun _ _ => trivial
  have hlen := hnames name hname
  obtain ⟨found, hfound⟩ : ∃ found, b.strEq name (md b i) = some found :=
    Option.isSome_iff_exists.mp
      (Block.strEq_isSome (lt_of_lt_of_le (Nat.add_lt_add_left hlen _) h.entry))
  rw [hfound]
  exact iff_of_true rfl trivial

theorem powerLoop_isSome (hb : HasHeader b) (h : ∀ i < nrSensors b, EntryInside b i)
    {names : List (List (BitVec 8))}
    (hnames : ∀ name ∈ names, name.length < Name.readingOffset + 4) :
    (powerLoop names b).isSome :=
  (sensorLoop_isSome_iff hb (P := fun _ => True) (fun powers i hi =>
    iff_of_true (powerTurn_isSome hb (h i hi) hnames powers) trivial) _).mpr fun _ _ => trivial

end Loops

/-! ### Blocks -/

section Blocks

variable (byte : Nat → BitVec 8)

theorem printAllSensors_isSome_iff (chipid : Nat) :
    (printAllSensors chipid (block byte)).isSome
      ↔ ∀ i < nrSensors (block byte), EntryInside (block byte) i := by
  have hb := hasHeader_block byte
  have hloop : (sensorLoop (block byte) (allSensorsTurn (block byte)) []).isSome
      ↔ ∀ i < nrSensors (block byte), EntryInside (block byte) i :=
    sensorLoop_isSome_iff hb (fun line i _ => allSensorsTurn_isSome_iff hb line) []
  rw [← hloop, printAllSensors]
  cases sensorLoop (block byte) (allSensorsTurn (block byte)) [] <;> rfl

/-- **All four functions stay inside a block** exactly where its entries and their
readings are inside: each entry up to the end of its offset, the two validity bytes, the
timestamps that are compared, and the copy that is read. -/
theorem readsInside_iff :
    ReadsInside byte ↔ ∀ i < nrSensors (block byte), EntryInside (block byte) i := by
  constructor
  · exact fun h => (printAllSensors_isSome_iff byte 0).mp (h.all 0)
  · intro h
    have hloop : ∀ names ⊆ [PWRSYS, PWRPROC, PWRMEM, PWRGPU],
        ∃ powers, powerLoop names (block byte) = some powers := by
      intro names hsub
      refine Option.isSome_iff_exists.mp (powerLoop_isSome (hasHeader_block byte) h
        fun name hname => ?_)
      have hall : ∀ name ∈ [PWRSYS, PWRPROC, PWRMEM, PWRGPU],
        name.length < Name.readingOffset + 4 := by decide
      exact hall name (hsub hname)
    refine ⟨?_, fun chipid => ?_, fun chipid => (printAllSensors_isSome_iff byte chipid).mpr h, ?_⟩
    · obtain ⟨powers, hrun⟩ := hloop [PWRSYS] (by simp)
      rw [getNodePower, hrun]
      rfl
    · obtain ⟨powers, hrun⟩ := hloop [PWRSYS, PWRPROC, PWRMEM, PWRGPU] (by simp)
      rw [printPowerSensors, hrun]
      rfl
    · obtain ⟨powers, hrun⟩ := hloop [PWRSYS, PWRPROC, PWRMEM] (by simp)
      rw [jsonPowerLoop, hrun]
      rfl

/-- A block of ones: its table is said to begin far behind it. -/
theorem not_readsInside_ones : ¬ ReadsInside fun _ => 0xFF := by
  intro h
  have hall := (printAllSensors_isSome_iff _ 0).mp (h.all 0) 0 (by decide)
  exact absurd hall.entry (by decide)

end Blocks

end Occ

end Variorum
