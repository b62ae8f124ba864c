/-
Variorum/OccThermal.lean

The temperatures in a sensor block, each under a key of its own.

`json_get_thermal_sensors` names the entry of a sensor by the number behind the
prefix of its name.  It copies five bytes of what is there and reads the number
with `atoi`: letters, leading zeros and a missing number are no part of the key.
On a block of temperatures whose numbers end within the copied bytes every sensor
keeps an entry with its reading exactly where the numbers of the cores differ, so
do those of the DIMMs, and the readings are numbers of 63 bits
(`keepsAll_iff`).
-/
import Variorum.CScan
import Variorum.OccPower

namespace Variorum

open Bytes CString
open Json (Object)

namespace Occ

/-! ### The function -/

/-- The two kinds of temperatures. -/
inductive Kind
  | core
  | dimm
  deriving DecidableEq, Repr

/-- The beginning of the names. -/
def Kind.name : Kind → List (BitVec 8)
  | .core => ascii "TEMPPROCTHRMC"
  | .dimm => ascii "TEMPDIMM"

/-- The beginning of the keys. -/
def Kind.key : Kind → List Char
  | .core => "temp_celsius_core_".toList
  | .dimm => "temp_celsius_dimm_".toList

/-- The object with the entries. -/
def Kind.label : Kind → List Char
  | .core => "Core".toList
  | .dimm => "Mem".toList

def cpuLabel : List Char := "CPU".toList

/-- `core_obj` and `mem_obj`. -/
abbrev Temps := Kind → Object

/-- A double that is not negative as a `json_int_t`. -/
def toI64 (x : ℚ) : Int := min ⌊x⌋ (2 ^ 63 - 1)

/-- The key for a number. -/
def tempKey (kind : Kind) (n : Int) : List Char := snprintf 32 (kind.key ++ decimalInt n)

/-- The number behind the prefix of a name. -/
def tempInt (b : Block) (kind : Kind) (name : Nat) : Option Int := do
  let value ← b.strncpy 5 (name + kind.name.length)
  atoi (value.map toChar)

/-- A branch of the loop. -/
def setTemp (b : Block) (kind : Kind) (value : Json) (temps : Temps) (md : Nat) :
    Option Temps := do
  let n ← tempInt b kind md
  return Function.update temps kind (Fields.set (tempKey kind n) value (temps kind))

/-- The body of the loop. -/
def thermalTurn (b : Block) (temps : Temps) (md : Nat) : Option Temps := do
  let (sample, scale) ← fullSample b md
  let value := Json.integer (toI64 (sample * toFp scale))
  let core ← b.prefixEq Kind.core.name md
  if core then setTemp b .core value temps md
  else
    let dimm ← b.prefixEq Kind.dimm.name md
    if dimm then setTemp b .dimm value temps md else return temps

/-- `socket_obj`, a new one where there is none.  What is stored in a value that is no object is
freed, and used later on. -/
def socketObj (socketid : List Char) (nodeObj : Object) : Option Object :=
  match Fields.get socketid nodeObj with
  | none => some []
  | some (.object fields) => some fields
  | some _ => none

/-- `json_get_thermal_sensors`: the temperatures of a chip, under its socket. -/
def jsonGetThermalSensors (chipid : Nat) (nodeObj : Object) (b : Block) : Option Object := do
  let socketid := snprintf 12 (PowerJson.socketKey chipid)
  let socketObj ← socketObj socketid nodeObj
  let temps ← sensorLoop b (thermalTurn b) fun _ => []
  let cpuObj := Json.object
    [(Kind.core.label, .object (temps .core)), (Kind.dimm.label, .object (temps .dimm))]
  return Fields.set socketid (.object (Fields.set cpuLabel cpuObj socketObj)) nodeObj

/-! ### What is asked -/

/-- The two objects of a chip in a node object. -/
def tempsAt (chipid : Nat) (node : Object) : Temps := fun kind =>
  (((Fields.get (snprintf 12 (PowerJson.socketKey chipid)) node).bind (Json.get cpuLabel)).bind
    (Json.get kind.label)).elim [] Json.fields

/-- The kind of a sensor, by its name. -/
def kindOf (b : Block) (i : Nat) : Kind :=
  if Kind.core.name.isPrefixOf (sensorName b i) then .core else .dimm

/-- A list of temperatures, in the full format, with names that differ. -/
structure ThermalList (b : Block) : Prop where
  wellFormed : WellFormed b
  full : ∀ i < nrSensors b, IsFull b i
  named : ∀ i < nrSensors b, ∃ kind : Kind, kind.name.isPrefixOf (sensorName b i)
  distinct : ∀ i < nrSensors b, ∀ j < nrSensors b, sensorName b i = sensorName b j → i = j

/-- No sensor is lost: there are as many entries as sensors, and each sensor has one of its own
with its scaled reading. -/
structure NoneLost (b : Block) (temps : Temps) : Prop where
  count : (temps .core).length + (temps .dimm).length = nrSensors b
  entry : ∃ place : Nat → Kind × List Char,
    (∀ i < nrSensors b, ∀ j < nrSensors b, place i = place j → i = j) ∧
      ∀ i < nrSensors b,
        Fields.get (place i).2 (temps (place i).1) = some (.integer ⌊product b i⌋)

/-- The function returns, and in what it has stored no reading is lost. -/
def KeepsAll (chipid : Nat) (nodeObj : Object) (b : Block) : Prop :=
  ∃ node, jsonGetThermalSensors chipid nodeObj b = some node ∧ NoneLost b (tempsAt chipid node)

/-- The value of a chip in a node object is an object, if there is one. -/
def SocketIsObject (chipid : Nat) (nodeObj : Object) : Prop :=
  ∀ v ∈ Fields.get (snprintf 12 (PowerJson.socketKey chipid)) nodeObj, ∃ fields, v = .object fields

/-- The number of a sensor. -/
def number (b : Block) (i : Nat) : Option Int := tempInt b (kindOf b i) (md b i)

/-- The numbers end within the bytes that are copied. -/
def Numbered (b : Block) : Prop := ∀ i < nrSensors b, (number b i).isSome

/-- The cores have different numbers, and so have the DIMMs. -/
def DistinctNumbers (b : Block) : Prop := ∀ i < nrSensors b, ∀ j < nrSensors b,
  kindOf b i = kindOf b j → number b i = number b j → i = j

/-- The readings are numbers of 63 bits. -/
def ReadingsFit (b : Block) : Prop := ∀ i < nrSensors b, product b i < 2 ^ 63

/-! ### Keys -/

section Keys

variable {kind : Kind} {m n : Int}

theorem tempInt_range {b : Block} {name : Nat} (h : tempInt b kind name = some n) :
    n.natAbs ≤ 2 ^ 31 := by
  obtain ⟨value, -, hatoi⟩ := Option.bind_eq_some_iff.mp h
  rw [atoi] at hatoi
  obtain ⟨-, hvalue⟩ := Option.ite_none_right_eq_some.mp hatoi
  obtain rfl := Option.some.inj hvalue
  have hlow := BitVec.le_toInt (BitVec.ofInt 32 (strtol (value.map toChar)))
  have hhigh := BitVec.toInt_lt (x := BitVec.ofInt 32 (strtol (value.map toChar)))
  omega

theorem length_decimalInt_le (h : n.natAbs ≤ 2 ^ 31) : (decimalInt n).length ≤ 11 := by
  have hdigits : ∀ k : Nat, k ≤ 2 ^ 31 → (decimal k).length ≤ 10 := fun k hk =>
    (decimal_length_le_iff (by decide)).mpr (by omega)
  cases n with
  | ofNat k => exact (hdigits k h).trans (by decide)
  | negSucc k => exact Nat.succ_le_succ (hdigits (k + 1) h)

/-- A key is not cut. -/
theorem tempKey_eq (h : n.natAbs ≤ 2 ^ 31) : tempKey kind n = kind.key ++ decimalInt n := by
  have hkey : kind.key.length = 18 := by cases kind <;> rfl
  have hlen := length_decimalInt_le h
  exact snprintf_of_lt (by rw [List.length_append]; omega)

/-- **The keys of a kind** differ as the numbers do. -/
theorem tempKey_inj (hm : m.natAbs ≤ 2 ^ 31) (hn : n.natAbs ≤ 2 ^ 31)
    (h : tempKey kind m = tempKey kind n) : m = n := by
  rw [tempKey_eq hm, tempKey_eq hn] at h
  exact decimalInt_injective (List.append_cancel_left h)

end Keys

/-! ### The loop -/

section Loop

variable {b : Block} {i : Nat}

/-- The entry of a sensor. -/
def entry (b : Block) (i : Nat) : List Char × Json :=
  (tempKey (kindOf b i) ((number b i).getD 0), .integer (toI64 (product b i)))

/-- The entries of a kind. -/
def entries (b : Block) (kind : Kind) (l : List Nat) : List (List Char × Json) :=
  (l.filter fun i => kindOf b i = kind).map (entry b)

/-- What a turn does on a well-formed block: the reading goes under the key of its kind. -/
def thermalStep (b : Block) (temps : Temps) (i : Nat) : Temps :=
  Function.update temps (kindOf b i)
    (Fields.set (entry b i).1 (entry b i).2 (temps (kindOf b i)))

theorem prefixEq_name (h : WellFormed b) (hi : i < nrSensors b) (kind : Kind) :
    b.prefixEq kind.name (md b i) = some (kind.name.isPrefixOf (sensorName b i)) := by
  have hname : kind.name.length ≤ MAX_CHARS_SENSOR_NAME ∧ 0#8 ∉ kind.name := by
    cases kind <;> decide
  have hsize : md b i + MAX_CHARS_SENSOR_NAME ≤ b.size :=
    (Nat.add_le_add_left (by decide) _).trans (md_le hi h.names)
  exact Block.prefixEq_eq hsize hname.1 hname.2

theorem thermalTurn_eq (h : ThermalList b) (hnum : Numbered b) (hi : i < nrSensors b)
    (temps : Temps) : thermalTurn b temps (md b i) = some (thermalStep b temps i) := by
  obtain ⟨n, hn⟩ := Option.isSome_iff_exists.mp (hnum i hi)
  have hset : ∀ kind, kindOf b i = kind →
      setTemp b kind (.integer (toI64 (product b i))) temps (md b i)
        = some (thermalStep b temps i) := by
    rintro kind rfl
    have hint : tempInt b (kindOf b i) (md b i) = some n := hn
    rw [setTemp, hint, thermalStep, entry, hn]
    rfl
  have hvalue : (fieldAt b (readingOffset b i) Record.sample 2 : ℚ) * toFp (scaleFactor b i)
      = product b i := by
    rw [toFp_eq, product, mul_assoc]
  rw [thermalTurn, fullSample_eq h.wellFormed hi, prefixEq_name h.wellFormed hi,
    prefixEq_name h.wellFormed hi, if_pos (h.full i hi)]
  simp only [Option.bind_eq_bind, Option.bind_some, hvalue]
  by_cases hcore : Kind.core.name.isPrefixOf (sensorName b i)
  · rw [if_pos hcore]
    exact hset .core (if_pos hcore)
  · have hdimm : Kind.dimm.name.isPrefixOf (sensorName b i) := by
      obtain ⟨kind, hkind⟩ := h.named i hi
      cases kind with
      | core => exact absurd hkind hcore
      | dimm => exact hkind
    rw [if_neg hcore, if_pos hdimm]
    exact hset .dimm (if_neg hcore)

theorem foldl_thermalStep (b : Block) (l : List Nat) (temps : Temps) (kind : Kind) :
    l.foldl (thermalStep b) temps kind = Fields.setAll (temps kind) (entries b kind l) := by
  induction l generalizing temps with
  | nil => rfl
  | cons i l ih =>
      rw [List.foldl_cons, ih, entries, entries]
      by_cases hkind : kindOf b i = kind
      · subst hkind
        rw [List.filter_cons_of_pos (by simp), thermalStep, Function.update_self]
        rfl
      · rw [List.filter_cons_of_neg (by simpa using hkind), thermalStep,
          Function.update_of_ne (Ne.symm hkind)]

/-- The temperatures of a block. -/
def temps (b : Block) (kind : Kind) : Object :=
  Fields.setAll [] (entries b kind (List.range (nrSensors b)))

theorem sensorLoop_thermal (h : ThermalList b) (hnum : Numbered b) :
    sensorLoop b (thermalTurn b) (fun _ => []) = some (temps b) := by
  rw [sensorLoop_eq h.wellFormed.header fun s i hi => thermalTurn_eq h hnum hi s]
  exact congrArg some (funext fun kind => foldl_thermalStep b _ _ kind)

/-- **The function** stores them in the node object. -/
theorem jsonGetThermalSensors_spec (h : ThermalList b) (hnum : Numbered b) (chipid : Nat)
    {nodeObj : Object} (hnode : SocketIsObject chipid nodeObj) :
    ∃ node, jsonGetThermalSensors chipid nodeObj b = some node ∧
      tempsAt chipid node = temps b := by
  obtain ⟨fields, hfields⟩ :
      ∃ fields, socketObj (snprintf 12 (PowerJson.socketKey chipid)) nodeObj = some fields := by
    rw [socketObj]
    cases hget : Fields.get (snprintf 12 (PowerJson.socketKey chipid)) nodeObj with
    | none => exact ⟨[], rfl⟩
    | some v =>
        obtain ⟨fields, rfl⟩ := hnode v hget
        exact ⟨fields, rfl⟩
  rw [jsonGetThermalSensors, hfields, sensorLoop_thermal h hnum]
  refine ⟨_, rfl, ?_⟩
  funext kind
  rw [tempsAt, Fields.get_set_self, Option.bind_some, Json.get, Fields.get_set_self,
    Option.bind_some]
  cases kind <;> rfl

end Loop

/-! ### Sensors and entries -/

section Entries

variable {b : Block}

theorem length_entries (b : Block) (l : List Nat) :
    (entries b .core l).length + (entries b .dimm l).length = l.length := by
  have hdimm : l.filter (fun i => kindOf b i = .dimm)
      = l.filter fun i => !decide (kindOf b i = .core) := by
    refine List.filter_congr fun i _ => ?_
    cases kindOf b i <;> rfl
  rw [entries, entries, List.length_map, List.length_map, hdimm]
  exact (List.length_eq_length_filter_add _).symm

/-- As many entries as sensors: no setting has met a key that was there. -/
theorem nodup_of_count (h : (temps b .core).length + (temps b .dimm).length = nrSensors b)
    (kind : Kind) :
    ((entries b kind (List.range (nrSensors b))).map Prod.fst).Nodup := by
  have hsum := length_entries b (List.range (nrSensors b))
  have hcore := Fields.length_setAll_le [] (entries b .core (List.range (nrSensors b)))
  have hdimm := Fields.length_setAll_le [] (entries b .dimm (List.range (nrSensors b)))
  rw [temps, temps] at h
  rw [List.length_range] at hsum
  simp only [List.length_nil, Nat.zero_add] at hcore hdimm
  refine (Fields.new_of_length_setAll (l := []) ?_).1
  rw [List.length_nil, Nat.zero_add]
  cases kind with
  | core => omega
  | dimm => omega

theorem distinct_of_noneLost (h : NoneLost b (temps b)) : DistinctNumbers b := by
  intro i hi j hj hkind hnumber
  have hnodup := nodup_of_count h.count (kindOf b i)
  rw [entries, List.map_map] at hnodup
  have hkey : (entry b i).1 = (entry b j).1 := by
    rw [entry, entry, hkind, hnumber]
  refine List.inj_on_of_nodup_map hnodup ?_ ?_ hkey
  · exact List.mem_filter.mpr ⟨List.mem_range.mpr hi, decide_eq_true rfl⟩
  · exact List.mem_filter.mpr ⟨List.mem_range.mpr hj, decide_eq_true hkind.symm⟩

/-- The entries hold no greater number. -/
theorem fit_of_noneLost (h : NoneLost b (temps b)) : ReadingsFit b := by
  intro i hi
  obtain ⟨place, -, hplace⟩ := h.entry
  have hmem := Fields.mem_of_get (hplace i hi)
  obtain hnil | hmem := Fields.mem_setAll hmem
  · exact absurd hnil List.not_mem_nil
  · obtain ⟨j, -, hj⟩ := List.mem_map.mp hmem
    have hvalue : toI64 (product b j) = ⌊product b i⌋ :=
      Json.integer.inj (congrArg Prod.snd hj)
    have hle : ⌊product b i⌋ < 2 ^ 63 := by
      rw [← hvalue, toI64]
      omega
    rw [Int.floor_lt] at hle
    exact_mod_cast hle

theorem noneLost_of_distinct (hnum : Numbered b) (hdistinct : DistinctNumbers b)
    (hfit : ReadingsFit b) : NoneLost b (temps b) := by
  -- a sensor is known by its kind and the number that its key shows
  have hinj : ∀ i < nrSensors b, ∀ j < nrSensors b, kindOf b i = kindOf b j →
      (entry b i).1 = (entry b j).1 → i = j := by
    intro i hi j hj hkind hkey
    obtain ⟨m, hm⟩ := Option.isSome_iff_exists.mp (hnum i hi)
    obtain ⟨n, hn⟩ := Option.isSome_iff_exists.mp (hnum j hj)
    rw [entry, entry, hkind, hm, hn] at hkey
    have hmn := tempKey_inj (tempInt_range hm) (tempInt_range hn) hkey
    exact hdistinct i hi j hj hkind (by rw [hm, hn, hmn])
  have hnodup : ∀ kind, ((entries b kind (List.range (nrSensors b))).map Prod.fst).Nodup := by
    intro kind
    rw [entries, List.map_map]
    refine (List.nodup_range.filter _).map_on fun i hi j hj hkey => ?_
    obtain ⟨hi, hikind⟩ := List.mem_filter.mp hi
    obtain ⟨hj, hjkind⟩ := List.mem_filter.mp hj
    exact hinj i (List.mem_range.mp hi) j (List.mem_range.mp hj)
      ((of_decide_eq_true hikind).trans (of_decide_eq_true hjkind).symm) hkey
  refine ⟨?_, fun i => (kindOf b i, (entry b i).1), fun i hi j hj hplace => ?_, fun i hi => ?_⟩
  · rw [temps, temps, Fields.setAll_nil (hnodup .core), Fields.setAll_nil (hnodup .dimm),
      length_entries, List.length_range]
  · exact hinj i hi j hj (congrArg Prod.fst hplace) (congrArg Prod.snd hplace)
  · have hmem : entry b i ∈ entries b (kindOf b i) (List.range (nrSensors b)) :=
      List.mem_map_of_mem (List.mem_filter.mpr ⟨List.mem_range.mpr hi, decide_eq_true rfl⟩)
    -- the reading is below 2^63, so the conversion keeps its whole part
    have hvalue : toI64 (product b i) = ⌊product b i⌋ := by
      have hfloor : ⌊product b i⌋ < 2 ^ 63 := by
        rw [Int.floor_lt]
        exact_mod_cast hfit i hi
      rw [toI64]
      omega
    refine Fields.get_setAll (List.mem_map_of_mem hmem) fun kv hkv hkey => ?_
    have heq := List.inj_on_of_nodup_map (hnodup (kindOf b i)) hkv hmem hkey
    rw [heq, entry, hvalue]

/-- **No temperature is lost** exactly where the numbers of a kind differ and the
readings fit.  The number behind the name is all that the key shows of a sensor, so two
sensors of one number share an entry, and the later one stays. -/
theorem keepsAll_iff (b : Block) (h : ThermalList b) (hnum : Numbered b) (chipid : Nat)
    (nodeObj : Object) (hnode : SocketIsObject chipid nodeObj) :
    KeepsAll chipid nodeObj b ↔ DistinctNumbers b ∧ ReadingsFit b := by
  obtain ⟨node, hrun, htemps⟩ := jsonGetThermalSensors_spec h hnum chipid hnode
  constructor
  · rintro ⟨node', hrun', hnone⟩
    obtain rfl := Option.some.inj (hrun.symm.trans hrun')
    rw [htemps] at hnone
    exact ⟨distinct_of_noneLost hnone, fit_of_noneLost hnone⟩
  · rintro ⟨hdistinct, hfit⟩
    refine ⟨node, hrun, ?_⟩
    rw [htemps]
    exact noneLost_of_distinct hnum hdistinct hfit

/-- Two DIMMs with these names behind the prefix, at 30 and 40 degrees; ping is valid. -/
def twoDimms (first second : String) : Block :=
  block (sparse [(0, [1, 1, 0, 2]), (8, [0, 0, 0, 24]), (16, [0, 0, 0, 120, 0, 0, 0, 224]),
    (24, Kind.dimm.name ++ ascii first), (24 + Name.scaleFactor, [0, 0, 1, 0]),
    (24 + Name.structureType, [1, 0, 0, 0, 8]),
    (72, Kind.dimm.name ++ ascii second), (72 + Name.scaleFactor, [0, 0, 1, 0]),
    (72 + Name.structureType, [1, 0, 0, 0, 56]),
    (120, [1]), (128 + Record.sample, [0, 30]), (176 + Record.sample, [0, 40])])

theorem keepsAll_numbers : KeepsAll 0 [] (twoDimms "0" "1") := by
  have hlist : ThermalList (twoDimms "0" "1") :=
    ⟨⟨hasHeader_block _, by decide, by decide, by decide, by decide +kernel⟩, by decide +kernel,
      fun i hi => ⟨.dimm, by revert i; decide +kernel⟩, by decide +kernel⟩
  have hnum : Numbered (twoDimms "0" "1") := by
    rw [Numbered]
    decide +kernel
  have hdistinct : DistinctNumbers (twoDimms "0" "1") := by
    rw [DistinctNumbers]
    decide +kernel
  refine (keepsAll_iff _ hlist hnum 0 [] nofun).mpr ⟨hdistinct, fun i hi => ?_⟩
  have hscale : fieldAt (twoDimms "0" "1") (readingOffset (twoDimms "0" "1") i) Record.sample 2
      ≤ 40 ∧ mantissa (scaleFactor (twoDimms "0" "1") i) = 1 ∧
        exponent (scaleFactor (twoDimms "0" "1") i) = 0 := by
    revert i
    decide +kernel
  obtain ⟨hsample, hmantissa, hexponent⟩ := hscale
  rw [product, hmantissa, hexponent, Nat.cast_one, mul_one, zpow_zero, mul_one]
  exact_mod_cast lt_of_le_of_lt hsample (by decide)

/-- Letters are no numbers: both entries have the key of the number 0. -/
theorem not_keepsAll_letters :
    ThermalList (twoDimms "A" "B") ∧ ¬ KeepsAll 0 [] (twoDimms "A" "B") := by
  have hlist : ThermalList (twoDimms "A" "B") :=
    ⟨⟨hasHeader_block _, by decide, by decide, by decide, by decide +kernel⟩, by decide +kernel,
      fun i hi => ⟨.dimm, by revert i; decide +kernel⟩, by decide +kernel⟩
  have hnum : Numbered (twoDimms "A" "B") := by
    rw [Numbered]
    decide +kernel
  refine ⟨hlist, ?_⟩
  rintro ⟨node, hrun, hnone⟩
  obtain ⟨node', hrun', htemps⟩ := @jsonGetThermalSensors_spec _ hlist hnum 0 [] nofun
  obtain rfl := Option.some.inj (hrun'.symm.trans hrun)
  rw [htemps] at hnone
  exact absurd (distinct_of_noneLost hnone 0 (by decide) 1 (by decide) (by decide) (by decide))
    (by decide)

end Entries

end Occ

end Variorum
