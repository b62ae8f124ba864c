/-
Variorum/OccPower.lean

Three loops for the powers of a Power9 node, and two ways to a reading.

`get_node_power`, `print_power_sensors` and `json_get_power_sensors` go over the
names of a block with a loop of their own each.  On a block whose table and
readings are in place the variable for a name ends as the power of the last entry
that bears it (`powerLoop_spec`).  The JSON function goes on and stores what it has
found; it does to its object what it does for a list of sensors
(`jsonGetPowerSensors_eq`), so all three show the same powers (`occReaders_agree`).
-/
import Variorum.Loop
import Variorum.OccSensors
import Variorum.PowerJsonSpec

namespace Variorum

open Bytes
open PowerJson (powerNodeWatts powerCpuWatts powerMemWatts socketKey)

namespace Occ

/-! ### What is asked -/

/-- The three bytes and the signed one of a scale factor. -/
def mantissa (scale : Nat) : Nat := scale / 256
def exponent (scale : Nat) : Int := (BitVec.ofNat 8 scale).toInt

/-- The sample of an entry, scaled. -/
def product (b : Block) (i : Nat) : ℚ :=
  fieldAt b (readingOffset b i) Record.sample 2 * mantissa (scaleFactor b i)
    * 10 ^ exponent (scaleFactor b i)

/-- The power in an entry: its scaled sample, and 0 in the other format. -/
def watts (b : Block) (i : Nat) : Nat := if IsFull b i then ⌊product b i⌋.toNat else 0

/-- **The power of a name**: that of the last entry that bears it, 0 if none does. -/
def powerOf (b : Block) (name : List (BitVec 8)) : Nat :=
  (((List.range (nrSensors b)).filter fun i => sensorName b i = name).getLast?.map
    (watts b)).getD 0

/-- The reading of an entry has this many bytes. -/
def readingSize (b : Block) (i : Nat) : Nat := if IsFull b i then Record.size else Counter.size

/-- The header, the table of names and all readings are in the block. -/
structure WellFormed (b : Block) : Prop where
  header : HasHeader b
  names : md b (nrSensors b) ≤ b.size
  ping : ping b < b.size
  pong : pong b < b.size
  readings : ∀ i < nrSensors b,
    Occ.ping b + readingOffset b i + readingSize b i ≤ b.size ∧
      Occ.pong b + readingOffset b i + readingSize b i ≤ b.size

/-- The scaled samples are numbers of 64 bits. -/
def ProductsFit (b : Block) : Prop := ∀ i < nrSensors b, IsFull b i → product b i < 2 ^ 64

/-- The readers agree: at any place with room for a reading both functions read the copy that
is chosen, and the three loops find the power of each name.  What the JSON function stores
for a chip whose number has up to four digits, so that the key fits its buffer, is these
powers: that of the node by chip 0, and those of the processor and the memory in an object
of the socket. -/
structure ReadersAgree (b : Block) : Prop where
  copies : ∀ offset, ping b + offset + Record.size ≤ b.size →
    pong b + offset + Record.size ≤ b.size →
      readSensor b offset .sample = some (fieldAt b offset Record.sample 2) ∧
        readSensor b offset .accumulator = some (fieldAt b offset Record.accumulator 8) ∧
        readCounter b offset = some (fieldAt b offset Counter.accumulator 8)
  node : getNodePower b = some (powerOf b PWRSYS)
  printed : ∀ chipid, printPowerSensors chipid b = some
    ⟨chipid, powerOf b PWRSYS, powerOf b PWRPROC, powerOf b PWRMEM, powerOf b PWRGPU⟩
  jsonLoop : ∃ powers, jsonPowerLoop b = some powers ∧ powers PWRSYS = powerOf b PWRSYS ∧
    powers PWRPROC = powerOf b PWRPROC ∧ powers PWRMEM = powerOf b PWRMEM
  json : ∀ chipid < 10000, ∀ nodeObj, jsonGetPowerSensors chipid nodeObj b
    = some (Fields.setAll nodeObj
      ((if chipid = 0 then [(powerNodeWatts, .real (powerOf b PWRSYS))] else []) ++
        [(socketKey chipid, .object [(powerCpuWatts, .real (powerOf b PWRPROC)),
          (powerMemWatts, .real (powerOf b PWRMEM))])]))

/-! ### The loops -/

section Loops

variable {b : Block} {i : Nat} {names : List (List (BitVec 8))}

theorem md_le (hi : i < nrSensors b) (h : md b (nrSensors b) ≤ b.size) :
    md b i + Name.size ≤ b.size := by
  have hmul : Name.size * (i + 1) ≤ Name.size * nrSensors b := Nat.mul_le_mul_left _ hi
  rw [md] at h ⊢
  rw [Nat.mul_succ] at hmul
  omega

/-- A reading can be read where both copies have room for it. -/
theorem readable_of_room {offset extent : Nat} (hping : ping b < b.size) (hpong : pong b < b.size)
    (hten : 10 ≤ extent) (hroom : ping b + offset + extent ≤ b.size)
    (hroom' : pong b + offset + extent ≤ b.size) : Readable b offset extent := by
  refine ⟨hping, hpong, fun _ _ => ⟨by omega, by omega⟩, fun reading hreading => ?_⟩
  rw [chosen] at hreading
  split at hreading
  · split at hreading <;> cases hreading <;> omega
  · split at hreading
    · cases hreading
      omega
    · split at hreading <;> cases hreading
      omega

theorem WellFormed.readable (h : WellFormed b) (hi : i < nrSensors b) {extent : Nat}
    (hext : extent ≤ readingSize b i) (hten : 10 ≤ extent) :
    Readable b (readingOffset b i) extent := by
  obtain ⟨hping, hpong⟩ := h.readings i hi
  exact readable_of_room h.ping h.pong hten (by omega) (by omega)

/-- A loop whose turns are known. -/
theorem sensorLoop_eq {σ : Type} (hb : HasHeader b) {turn : σ → Nat → Option σ} {g : σ → Nat → σ}
    (h : ∀ s, ∀ i < nrSensors b, turn s (md b i) = some (g s i)) (s : σ) :
    sensorLoop b turn s = some ((List.range (nrSensors b)).foldl g s) := by
  have hmd : b.be 4 Header.namesOffset = some (b.value 4 Header.namesOffset) := hb.be (by decide)
  have hnr : b.be 2 Header.nrSensors = some (nrSensors b) := hb.be (by decide)
  rw [sensorLoop, hmd, hnr]
  exact Loop.foldlM_eq_foldl fun s i hi => h s i (List.mem_range.mp hi)

theorem toU64_of_lt {x : ℚ} (h : x < 2 ^ 64) : toU64 x = ⌊x⌋.toNat := by
  have hfloor : ⌊x⌋ < 2 ^ 64 := by
    rw [Int.floor_lt]
    exact_mod_cast h
  rw [toU64]
  omega

theorem toFp_eq (scale : Nat) : toFp scale = mantissa scale * 10 ^ exponent scale := rfl

theorem fullSample_eq (h : WellFormed b) (hi : i < nrSensors b) :
    fullSample b (md b i) = some
      (if IsFull b i then fieldAt b (readingOffset b i) Record.sample 2 else 0,
        scaleFactor b i) := by
  have hentry := md_le hi h.names
  have hoffset : b.be 4 (md b i + Name.readingOffset) = some (readingOffset b i) :=
    Block.be_eq (le_trans (by simp [Name.readingOffset, Name.size]) hentry)
  have hscale : b.be 4 (md b i + Name.scaleFactor) = some (scaleFactor b i) :=
    Block.be_eq (le_trans (by simp [Name.scaleFactor, Name.size, Nat.add_assoc]) hentry)
  have htype : b.get (md b i + Name.structureType) = some (b.byte (md b i + Name.structureType)) :=
    Block.get_eq (lt_of_lt_of_le (by simp [Name.structureType, Name.size]) hentry)
  rw [fullSample, hoffset, hscale, htype]
  simp only [Option.bind_eq_bind, Option.bind_some]
  by_cases hfull : IsFull b i
  · have hfull' : b.byte (md b i + Name.structureType) = OCC_SENSOR_READING_FULL := hfull
    have hsize : Record.sample + 2 ≤ readingSize b i := by
      rw [readingSize, if_pos hfull]
      decide
    have hread : readSensor b (readingOffset b i) .sample
        = some (fieldAt b (readingOffset b i) Record.sample 2) :=
      readCopy_eq h.header (h.readable hi hsize (by decide))
    rw [if_pos hfull', if_pos hfull, hread]
    rfl
  · have hfull' : ¬ b.byte (md b i + Name.structureType) = OCC_SENSOR_READING_FULL := hfull
    rw [if_neg hfull', if_neg hfull]
    rfl

/-- The number that an entry stands for is its power. -/
theorem toU64_sample (hfit : IsFull b i → product b i < 2 ^ 64) :
    toU64 ((if IsFull b i then fieldAt b (readingOffset b i) Record.sample 2 else 0 : Nat)
      * toFp (scaleFactor b i)) = watts b i := by
  rw [watts, toFp_eq]
  split
  · next hfull =>
      rw [← mul_assoc]
      exact toU64_of_lt (hfit hfull)
  · simp [toU64]

/-- The variables behind a turn. -/
def powerStep (names : List (List (BitVec 8))) (b : Block) (powers : Powers) (i : Nat) : Powers :=
  fun name => if name ∈ names ∧ sensorName b i = name then watts b i else powers name

/-- One assignment after the other. -/
theorem foldl_update (w : Nat) (bears : List (BitVec 8) → Prop) [DecidablePred bears]
    (names : List (List (BitVec 8))) (powers : Powers) :
    names.foldl (fun powers name => if bears name then Function.update powers name w else powers)
      powers = fun name => if name ∈ names ∧ bears name then w else powers name := by
  induction names generalizing powers with
  | nil => simp
  | cons n names ih =>
      rw [List.foldl_cons, ih]
      funext name
      by_cases hname : name = n
      · subst hname
        by_cases hbears : bears name <;> simp [hbears]
      · have hmem : name ∈ n :: names ↔ name ∈ names := by simp [hname]
        by_cases hbears : bears n <;> simp [hmem, hbears, hname]

theorem powerTurn_eq (h : WellFormed b) (hfit : ProductsFit b)
    (hnames : ∀ name ∈ names, name.length < MAX_CHARS_SENSOR_NAME ∧ 0#8 ∉ name)
    (powers : Powers) (hi : i < nrSensors b) :
    powerTurn names b powers (md b i) = some (powerStep names b powers i) := by
  have hentry := md_le hi h.names
  rw [powerTurn, fullSample_eq h hi]
  simp only [Option.bind_eq_bind, Option.bind_some, toU64_sample (hfit i hi)]
  refine (Loop.foldlM_eq_foldl (g := fun powers name =>
    if sensorName b i = name then Function.update powers name (watts b i) else powers) ?_).trans ?_
  · intro powers name hname
    obtain ⟨hlen, hzero⟩ := hnames name hname
    have hfound : b.strEq name (md b i) = some (sensorName b i == name) :=
      Block.strEq_eq ((Nat.add_le_add_left (by decide) (md b i)).trans hentry) hlen hzero
    rw [hfound, Option.bind_some]
    by_cases heq : sensorName b i = name <;> simp [heq]
  · rw [foldl_update]
    rfl

/-- **A loop finds the power of each of its names.** -/
theorem powerLoop_spec (h : WellFormed b) (hfit : ProductsFit b)
    (hnames : ∀ name ∈ names, name.length < MAX_CHARS_SENSOR_NAME ∧ 0#8 ∉ name) :
    ∃ powers, powerLoop names b = some powers ∧ ∀ name ∈ names, powers name = powerOf b name := by
  refine ⟨_, sensorLoop_eq h.header (fun powers i hi => powerTurn_eq h hfit hnames powers hi) _,
    fun name hname => ?_⟩
  have hvar : ∀ (l : List Nat) (powers : Powers), l.foldl (powerStep names b) powers name
      = l.foldl (fun v i => if sensorName b i = name then watts b i else v) (powers name) := by
    intro l
    induction l with
    | nil => exact fun _ => rfl
    | cons i l ih =>
        intro powers
        rw [List.foldl_cons, List.foldl_cons, ih, powerStep]
        simp only [hname, true_and]
  rw [hvar, Loop.foldl_ite_last, powerOf]

end Loops

/-! ### Agreement -/

section Agreement

variable {b : Block}

theorem power_names : ∀ name ∈ [PWRSYS, PWRPROC, PWRMEM] ++ [PWRGPU],
    name.length < MAX_CHARS_SENSOR_NAME ∧ 0#8 ∉ name := by decide

/-! The block as a list of sensors. -/

/-- A byte of a name as a character. -/
def toChar (x : BitVec 8) : Char := Char.ofNat x.toNat

/-- The sensors of a block, as `json_get_power_sensors` is given them elsewhere. -/
def sensorsOf (b : Block) : List PowerJson.OccSensor :=
  (List.range (nrSensors b)).map fun i =>
    ⟨(sensorName b i).map toChar, BitVec.ofNat 64 (watts b i)⟩

theorem toNat_toChar (x : BitVec 8) : (toChar x).toNat = x.toNat := by
  have hlt : x.toNat < 256 := x.isLt
  rw [toChar, Char.ofNat, dif_pos (.inl (by omega))]
  rfl

theorem toChar_injective : Function.Injective toChar := fun x y h =>
  BitVec.eq_of_toNat_eq (by rw [← toNat_toChar, h, toNat_toChar])

theorem watts_lt (hfit : ProductsFit b) {i : Nat} (hi : i < nrSensors b) : watts b i < 2 ^ 64 := by
  rw [watts]
  split
  · next hfull =>
      have hfloor : ⌊product b i⌋ < 2 ^ 64 := by
        rw [Int.floor_lt]
        exact_mod_cast hfit i hi hfull
      omega
  · decide

/-- The watts of a name in that list. -/
theorem sensorWatts_eq (hfit : ProductsFit b) {text : List Char} {name : List (BitVec 8)}
    (htext : name.map toChar = text) :
    PowerJson.Ibm.sensorWatts text (sensorsOf b) = powerOf b name := by
  have hname : ∀ i, (sensorName b i).map toChar = text ↔ sensorName b i = name := by
    intro i
    rw [← htext]
    exact (List.map_injective_iff.mpr toChar_injective).eq_iff
  rw [PowerJson.Ibm.sensorWatts, sensorsOf, List.foldl_map]
  simp only [hname]
  rw [Loop.foldl_ite_last, powerOf]
  cases hlast : ((List.range (nrSensors b)).filter fun i => sensorName b i = name).getLast? with
  | none => rfl
  | some i =>
      have hi := List.mem_range.mp (List.mem_of_mem_filter (List.mem_of_getLast? hlast))
      show ((BitVec.ofNat 64 (watts b i)).toNat : ℚ) = (watts b i : Nat)
      rw [BitVec.toNat_ofNat, Nat.mod_eq_of_lt (watts_lt hfit hi)]

/-- The names that the JSON function looks for. -/
theorem sensorWatts_names (hfit : ProductsFit b) :
    PowerJson.Ibm.sensorWatts "PWRSYS".toList (sensorsOf b) = powerOf b PWRSYS ∧
      PowerJson.Ibm.sensorWatts "PWRPROC".toList (sensorsOf b) = powerOf b PWRPROC ∧
      PowerJson.Ibm.sensorWatts "PWRMEM".toList (sensorsOf b) = powerOf b PWRMEM :=
  ⟨sensorWatts_eq hfit (by decide), sensorWatts_eq hfit (by decide),
    sensorWatts_eq hfit (by decide)⟩

/-- **What the JSON function does with a block** is what it does with its sensors. -/
theorem jsonGetPowerSensors_eq (h : WellFormed b) (hfit : ProductsFit b) (chipid : Nat)
    (nodeObj : Json.Object) :
    jsonGetPowerSensors chipid nodeObj b
      = PowerJson.Ibm.jsonGetPowerSensors (fun _ => sensorsOf b) chipid nodeObj := by
  obtain ⟨powers, hrun, hpowers⟩ := powerLoop_spec h hfit fun name hname =>
    power_names name (List.mem_append_left [PWRGPU] hname)
  obtain ⟨hsys, hproc, hmem⟩ := sensorWatts_names hfit
  have hloop : jsonPowerLoop b = some powers := hrun
  rw [jsonGetPowerSensors, PowerJson.Ibm.jsonGetPowerSensors, hloop, hsys, hproc, hmem,
    ← hpowers PWRSYS (by simp), ← hpowers PWRPROC (by simp), ← hpowers PWRMEM (by simp)]
  rfl

/-- What it does for a chip whose key fits. -/
theorem jsonGetPowerSensors_of_lt (sensors : Nat → List PowerJson.OccSensor) {chipid : Nat}
    (hchip : chipid < 10000) {nodeObj : Json.Object} :
    PowerJson.Ibm.jsonGetPowerSensors sensors chipid nodeObj
      = some (Fields.setAll nodeObj (PowerJson.ibmTurn sensors chipid)) := by
  obtain ⟨out, hout⟩ : ∃ out, PowerJson.Ibm.jsonGetPowerSensors sensors chipid nodeObj
      = some out := by
    rw [PowerJson.Ibm.jsonGetPowerSensors, PowerJson.sprintf_socketKey_iff.mpr ⟨hchip, rfl⟩]
    exact ⟨_, rfl⟩
  rw [hout, (PowerJson.Ibm.turn_eq hout).2]

/-- **The readers agree** on every block that is well formed and whose products fit 64
bits, for any list of sensors: they select the same copy of a reading, and the three
loops, that of the whole JSON function included, come to the same powers. -/
theorem occReaders_agree (b : Block) (h : WellFormed b) (hfit : ProductsFit b) :
    ReadersAgree b := by
  have hloop : ∀ names ⊆ [PWRSYS, PWRPROC, PWRMEM] ++ [PWRGPU], ∃ powers,
      powerLoop names b = some powers ∧ ∀ name ∈ names, powers name = powerOf b name :=
    fun names hsub => powerLoop_spec h hfit fun name hname => power_names name (hsub hname)
  refine ⟨fun offset hping hpong => ?_, ?_, fun chipid => ?_, ?_, fun chipid hchip nodeObj => ?_⟩
  · have hread : Readable b offset Record.size :=
      readable_of_room h.ping h.pong (by decide) hping hpong
    refine ⟨?_, ?_, ?_⟩
    · exact readCopy_eq h.header (hread.mono (by decide))
    · exact readCopy_eq h.header (hread.mono (by decide))
    · exact readCopy_eq h.header (hread.mono (by decide))
  · obtain ⟨powers, hrun, hpowers⟩ := hloop [PWRSYS] (by simp)
    rw [getNodePower, hrun]
    exact congrArg some (hpowers _ (by simp))
  · obtain ⟨powers, hrun, hpowers⟩ := hloop [PWRSYS, PWRPROC, PWRMEM, PWRGPU] (by simp)
    rw [printPowerSensors, hrun]
    simp [hpowers]
  · obtain ⟨powers, hrun, hpowers⟩ := hloop [PWRSYS, PWRPROC, PWRMEM] (by simp)
    exact ⟨powers, hrun, hpowers _ (by simp), hpowers _ (by simp), hpowers _ (by simp)⟩
  · rw [jsonGetPowerSensors_eq h hfit, jsonGetPowerSensors_of_lt _ hchip, PowerJson.ibmTurn]
    obtain ⟨hsys, hproc, hmem⟩ := sensorWatts_names hfit
    rw [hsys, hproc, hmem]
    rfl

/-- Bytes at places, and zeros elsewhere. -/
def sparse (places : List (Nat × List (BitVec 8))) (a : Nat) : BitVec 8 :=
  ((places.find? fun p => p.1 ≤ a ∧ a < p.1 + p.2.length).bind fun p => p.2[a - p.1]?).getD 0

/-- Two sensors in the full format, in tenths of a watt, and two valid copies.  Of PWRSYS ping
is newer, with the sample 2000; of PWRPROC both are of one age, and pong has 800.  Only the
first is of the type of powers, so it has an energy as well. -/
def twoSensors : Block :=
  block (sparse [(0, [1, 1, 0, 2]), (8, [0, 0, 0, 24]), (16, [0, 0, 0, 120, 0, 0, 0, 224]),
    (24, PWRSYS), (24 + Name.freq, [0, 0, 1, 0]), (24 + Name.scaleFactor, [0, 0, 1, 0xFF]),
    (24 + Name.type, [0, 0x80]), (24 + Name.structureType, [1, 0, 0, 0, 8]),
    (72, PWRPROC), (72 + Name.scaleFactor, [0, 0, 1, 0xFF]),
    (72 + Name.structureType, [1, 0, 0, 0, 56]),
    (120, [1]), (128 + Record.timestamp, [0, 0, 0, 0, 0, 0, 0, 2]),
    (128 + Record.sample, [0x07, 0xD0]),
    (224, [1]), (232 + Record.timestamp, [0, 0, 0, 0, 0, 0, 0, 1]),
    (280 + Record.sample, [0x03, 0x20])])

/-- Their readers agree: 200 W for the node, and 80 W for the processor. -/
theorem occReaders_agree_two :
    ReadersAgree twoSensors ∧ powerOf twoSensors PWRSYS = 200 ∧
      powerOf twoSensors PWRPROC = 80 := by
  have hnr : nrSensors twoSensors = 2 := by decide
  have hscale : ∀ i < 2, mantissa (scaleFactor twoSensors i) = 1 ∧
      exponent (scaleFactor twoSensors i) = -1 := by decide
  have hsamples : fieldAt twoSensors (readingOffset twoSensors 0) Record.sample 2 = 2000 ∧
      fieldAt twoSensors (readingOffset twoSensors 1) Record.sample 2 = 800 := by decide
  have hproducts : product twoSensors 0 = 200 ∧ product twoSensors 1 = 80 := by
    rw [product, product, hsamples.1, hsamples.2, (hscale 0 (by decide)).1,
      (hscale 0 (by decide)).2, (hscale 1 (by decide)).1, (hscale 1 (by decide)).2]
    norm_num
  -- the first sensor has the name of the system power, the second that of the processor
  refine ⟨?_, ?_, ?_⟩
  · apply occReaders_agree
    · refine ⟨hasHeader_block _, by decide, by decide, by decide, ?_⟩
      rw [hnr]
      decide
    · rw [ProductsFit, hnr]
      intro i hi _
      obtain rfl | rfl : i = 0 ∨ i = 1 := by omega
      · rw [hproducts.1]
        norm_num
      · rw [hproducts.2]
        norm_num
  · have hlast : ((List.range 2).filter fun i => sensorName twoSensors i = PWRSYS) = [0] := by
      decide
    rw [powerOf, hnr, hlast]
    show watts twoSensors 0 = 200
    rw [watts, if_pos (by decide), hproducts.1, Int.floor_ofNat]
    rfl
  · have hlast : ((List.range 2).filter fun i => sensorName twoSensors i = PWRPROC) = [1] := by
      decide
    rw [powerOf, hnr, hlast]
    show watts twoSensors 1 = 80
    rw [watts, if_pos (by decide), hproducts.2, Int.floor_ofNat]
    rfl

end Agreement

end Occ

end Variorum
