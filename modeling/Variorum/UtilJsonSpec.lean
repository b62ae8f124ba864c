/-
Variorum/UtilJsonSpec.lean

What the utilization functions leave in the object of the node.

There is one host with one time stamp, and under its GPUs an object for each
socket key, with the entries of the turns that printed this key.  Keys are cut
off at eleven characters: within ten thousand sockets `get_gpuObject` says what
is under a key, and in general no entry is lost exactly when no two of them have
both keys in common (`leaves_perm_iff`).
-/
import Variorum.UtilJson

namespace Variorum

open CString PowerJson
open Json (Object)
open UtilJson (UtilLine)

namespace UtilJson

/-! ### Keys of devices -/

section Keys

variable {d e : Int}

theorem utilKey_injective : Function.Injective utilKey := fun _ _ h =>
  decimalInt_injective (List.append_cancel_left (List.append_cancel_right h))

/-- A key in a buffer of twelve is the full key of a device only if it is its own. -/
theorem eq_of_snprintf_utilKey (h : snprintf 12 (utilKey d) = utilKey e) : d = e := by
  have hpercent : '%' ∈ snprintf 12 (utilKey d) := by
    rw [h]
    exact List.mem_append_right _ (by decide)
  -- the percent sign is the last character of the key, so nothing is cut off
  have hbody : '%' ∉ "GPU".toList ++ decimalInt d ++ "_util".toList := by
    intro hmem
    rcases List.mem_append.mp hmem with hmem | hmem
    · rcases List.mem_append.mp hmem with hmem | hmem
      · exact absurd hmem (by decide)
      · exact absurd (of_mem_decimalInt hmem) (by decide)
    · exact absurd hmem (by decide)
  have hsplit : utilKey d = ("GPU".toList ++ decimalInt d ++ "_util".toList) ++ ['%'] := by
    rw [List.append_assoc _ "_util".toList]
    rfl
  have hfits : (utilKey d).length < 12 := by
    by_contra hlong
    rw [snprintf, hsplit, List.take_append_of_le_length] at hpercent
    · exact hbody (List.mem_of_mem_take hpercent)
    · rw [hsplit, List.length_append, List.length_singleton] at hlong
      omega
  rw [snprintf_of_lt hfits] at h
  exact utilKey_injective h

/-- **The keys of a hundred million devices** differ in a buffer of twelve. -/
theorem snprintf_utilKey_injective {m n : Nat} (hm : m < 10 ^ 8) (hn : n < 10 ^ 8)
    (h : snprintf 12 (utilKey m) = snprintf 12 (utilKey n)) : m = n := by
  have hdigits : ∀ {k : Nat}, k < 10 ^ 8 →
      ((snprintf 12 (utilKey k)).drop 3).takeWhile Char.isDigit = decimal k := by
    intro k hk
    have hlen := (decimal_length_le_iff (n := k) (w := 8) (by decide)).mpr hk
    have hdrop : (snprintf 12 (utilKey k)).drop 3
        = decimal k ++ "_util%".toList.take (8 - (decimal k).length) := by
      have hkey : utilKey k = "GPU".toList ++ (decimal k ++ "_util%".toList) :=
        List.append_assoc _ _ _
      rw [snprintf, hkey, List.drop_take, List.drop_left' (by decide), List.take_append,
        List.take_of_length_le hlen]
    rw [hdrop]
    apply takeWhile_decimal
    intro c hc
    generalize 8 - (decimal k).length = room at hc
    cases room with
    | zero => cases hc
    | succ room =>
        obtain rfl : '_' = c := Option.some.inj hc
        rfl
  apply decimal_injective
  rw [← hdigits hm, h, hdigits hn]

end Keys

/-! ### What the JSON functions leave -/

section Producer

variable {key k : List Char} {f : Object → Object} {obj : Object} {node : GpuNode}
  {hostname : List Char} {ts : Nat → Int} {value : Int → Int}

/-- An object changed under its key is set to the changed one. -/
theorem inObject_eq_set : inObject key f obj
    = Fields.set key (Json.mapFields f ((Fields.get key obj).getD (.object []))) obj := by
  unfold inObject
  cases h : Fields.get key obj with
  | none =>
      rw [Option.isNone_none, if_pos rfl, Fields.modify_set_self]
      rfl
  | some j => exact Fields.modify_of_get h

theorem get_inObject_self : Fields.get key (inObject key f obj)
    = some (Json.mapFields f ((Fields.get key obj).getD (.object []))) := by
  rw [inObject_eq_set, Fields.get_set_self]

theorem get_inObject_of_ne (h : key ≠ k) :
    Fields.get k (inObject key f obj) = Fields.get k obj := by
  rw [inObject_eq_set, Fields.get_set_of_ne h]

/-- The entries of a socket, as they are set. -/
def entries (node : GpuNode) (value : Int → Int) (i : Nat) : Object :=
  ((node.block i).getD []).map fun d => (snprintf 12 (utilKey d), .integer (value d))

/-- Where the devices can be numbered, these are one for each device of the block. -/
theorem entries_eq (value : Int → Int) (h : node.devices.toNat < 2 ^ 31) {i : Nat}
    (hi : i < node.sockets) :
    entries node value i
      = (List.range' (i * (node.devices.toNat / node.sockets))
          (node.devices.toNat / node.sockets)).map fun n : Nat =>
            (snprintf 12 (utilKey n), .integer (value n)) := by
  rw [entries, GpuNode.block_eq h hi, Option.getD_some, List.map_map]
  rfl

/-- The object of the GPUs behind the turns of the first `k` sockets. -/
def gpuObject (node : GpuNode) (value : Int → Int) : Nat → Object
  | 0 => []
  | k + 1 => inObject (snprintf 12 (socketKey k)) (Fields.setAll · (entries node value k))
      (gpuObject node value k)

/-- The object of the host. -/
def hostObject (node : GpuNode) (value : Int → Int) (ts : Int) (k : Nat) : Object :=
  [(timestampKey, .integer ts), (gpuKey, .object (gpuObject node value k))]

theorem gpuKey_ne_timestampKey : gpuKey ≠ timestampKey := by decide

/-- **Behind the loop** there is one host with one time stamp. -/
theorem utilLoop_eq {n : Nat} (hn : n ≠ 0)
    (h : forSockets (utilTurn node hostname ts value) n [] = some obj) :
    obj = [(hostname, .object (hostObject node value (ts 0) n))] := by
  have hloop : obj
      = if n = 0 then [] else [(hostname, .object (hostObject node value (ts 0) n))] := by
    refine forSockets_inv (fun k o => o
      = if k = 0 then [] else [(hostname, .object (hostObject node value (ts 0) k))]) rfl ?_ h
    intro k o o' _ ho hturn
    obtain ⟨devs, hdevs, hturn⟩ := Option.bind_eq_some_iff.mp hturn
    have hentries : (devs.map fun d => (snprintf 12 (utilKey d), Json.integer (value d)))
        = entries node value k := by
      rw [entries, hdevs]
      rfl
    rw [hentries] at hturn
    rw [← Option.some.inj hturn, ho, if_neg (Nat.succ_ne_zero k)]
    -- the first turn makes the host, the others find it
    cases k with
    | zero => simp [inObject, setIfNone, hostObject, gpuObject, Fields.get, Fields.set,
        Fields.modify, Json.mapFields, gpuKey_ne_timestampKey.symm]
    | succ k => simp [inObject, setIfNone, hostObject, gpuObject, Fields.get, Fields.modify,
        Json.mapFields, gpuKey_ne_timestampKey.symm]
  rw [hloop, if_neg hn]

/-- There is one while no bound of a loop overflows. -/
theorem utilLoop_isSome_iff {n : Nat} :
    (forSockets (utilTurn node hostname ts value) n []).isSome ↔
      ∀ c < n, (node.block c).isSome :=
  forSockets_isSome_iff fun _ _ _ => isSome_bind_iff fun _ => rfl

theorem socketKey_injective : Function.Injective socketKey := fun _ _ h =>
  decimal_injective (List.append_cancel_left h)

theorem length_socketKey (i : Nat) : (socketKey i).length = 7 + (decimal i).length :=
  List.length_append

theorem length_socketKey_lt_iff {i : Nat} : (socketKey i).length < 12 ↔ i < 10000 := by
  have hlen := decimal_length_le_iff (n := i) (w := 4) (by decide)
  rw [length_socketKey]
  omega

/-- A socket whose key the buffer cannot hold has no object. -/
theorem get_gpuObject_of_long {i : Nat} (hi : 10000 ≤ i) (k : Nat) :
    Fields.get (socketKey i) (gpuObject node value k) = none := by
  induction k with
  | zero => rfl
  | succ k ih =>
      have hne : snprintf 12 (socketKey k) ≠ socketKey i := by
        intro e
        have hlt := length_socketKey_lt_iff.mp (e ▸ length_snprintf_lt (by decide))
        omega
      rw [gpuObject, get_inObject_of_ne hne, ih]

/-- **The object of a socket** has what is set in its turn. -/
theorem get_gpuObject {i k : Nat} (hi : i < 10000) (hk : k ≤ 10000) :
    Fields.get (socketKey i) (gpuObject node value k)
      = if i < k then some (.object (Fields.setAll [] (entries node value i))) else none := by
  induction k with
  | zero => rfl
  | succ k ih =>
      have hfits : snprintf 12 (socketKey k) = socketKey k :=
        snprintf_of_lt (length_socketKey_lt_iff.mpr (by omega))
      rw [gpuObject, hfits]
      by_cases heq : k = i
      · subst heq
        rw [get_inObject_self, ih (by omega), if_neg (Nat.lt_irrefl k), if_pos (Nat.lt_succ_self k)]
        rfl
      · rw [get_inObject_of_ne fun e => heq (socketKey_injective e), ih (by omega)]
        by_cases hik : i < k
        · rw [if_pos hik, if_pos (Nat.lt_succ_of_lt hik)]
        · rw [if_neg hik, if_neg (by omega)]

end Producer

/-! ### The entries of all sockets -/

section Leaves

variable {key : List Char} {obj : Object} {node : GpuNode} {value : Int → Int}

/-- Fields with the key of the object they are in. -/
def tagged (key : List Char) (l : Object) : List ((List Char × List Char) × Json) :=
  l.map fun e => ((key, e.1), e.2)

/-- The fields of all objects in an object. -/
def leaves (obj : Object) : List ((List Char × List Char) × Json) :=
  obj.flatMap fun kv => tagged kv.1 kv.2.fields

theorem tagged_append (l l' : Object) : tagged key (l ++ l') = tagged key l ++ tagged key l' :=
  List.map_append

theorem mem_tagged_keys {l : Object} {place : List Char × List Char} :
    place ∈ (tagged key l).map Prod.fst ↔ place.1 = key ∧ place.2 ∈ l.map Prod.fst := by
  rw [tagged, List.map_map]
  constructor
  · intro h
    obtain ⟨e, he, rfl⟩ := List.mem_map.mp h
    exact ⟨rfl, List.mem_map_of_mem he⟩
  · rintro ⟨rfl, h⟩
    obtain ⟨e, he, heq⟩ := List.mem_map.mp h
    exact List.mem_map.mpr ⟨e, he, Prod.ext rfl heq⟩

theorem nodup_tagged_keys {l : Object} :
    ((tagged key l).map Prod.fst).Nodup ↔ (l.map Prod.fst).Nodup := by
  have hmap : (tagged key l).map Prod.fst = (l.map Prod.fst).map (Prod.mk key) := by
    rw [tagged, List.map_map, List.map_map]
    rfl
  rw [hmap]
  exact List.nodup_map_iff (Prod.mk_right_injective key)

/-- The fields under other keys do not know of a change. -/
theorem ne_of_mem_leaves (h : key ∉ obj.map Prod.fst) :
    ∀ place ∈ (leaves obj).map Prod.fst, place.1 ≠ key := by
  intro place hplace hkey
  obtain ⟨e, he, rfl⟩ := List.mem_map.mp hplace
  obtain ⟨kv, hkv, he⟩ := List.mem_flatMap.mp he
  have hkv' := (mem_tagged_keys.mp (List.mem_map_of_mem he)).1
  exact h (hkey ▸ hkv' ▸ List.mem_map_of_mem hkv)

/-- **Entries set in one of the objects** leave the fields of the others alone. -/
theorem leaves_inObject (kvs : Object) (hnodup : (obj.map Prod.fst).Nodup)
    (hobject : OnlyObject key obj) :
    ∃ rest l, (leaves obj).Perm (rest ++ tagged key l) ∧
      (leaves (inObject key (Fields.setAll · kvs) obj)).Perm
        (rest ++ tagged key (Fields.setAll l kvs)) ∧
      ∀ place ∈ rest.map Prod.fst, place.1 ≠ key := by
  rw [inObject_eq_set]
  -- the object of this key is made, or the one that is there is extended in its place
  cases hget : Fields.get key obj with
  | none =>
      refine ⟨leaves obj, [], ?_, ?_, ne_of_mem_leaves (Fields.get_eq_none_iff.mp hget)⟩
      · exact List.Perm.of_eq (List.append_nil _).symm
      · rw [Fields.set_of_get_none hget, leaves, List.flatMap_append, List.flatMap_singleton]
        exact List.Perm.refl _
  | some j =>
      obtain ⟨l, rfl⟩ := hobject j hget
      obtain ⟨before, after, rfl, hbefore⟩ := Fields.exists_split_of_get hget
      have hafter : key ∉ after.map Prod.fst := by
        rw [List.map_append, List.map_cons] at hnodup
        exact (List.nodup_cons.mp (List.nodup_append.mp hnodup).2.1).1
      have hperm : ∀ j : Json, (leaves (before ++ (key, j) :: after)).Perm
          (leaves before ++ leaves after ++ tagged key j.fields) := by
        intro j
        rw [leaves, List.flatMap_append, List.flatMap_cons, List.append_assoc]
        exact (List.perm_append_comm).append_left _
      refine ⟨leaves before ++ leaves after, l, hperm _, ?_, ?_⟩
      · rw [Fields.set_split hbefore]
        exact hperm _
      · intro place hplace
        rw [List.map_append] at hplace
        rcases List.mem_append.mp hplace with hplace | hplace
        · exact ne_of_mem_leaves hbefore place hplace
        · exact ne_of_mem_leaves hafter place hplace

theorem nodup_gpuObject (node : GpuNode) (value : Int → Int) (k : Nat) :
    ((gpuObject node value k).map Prod.fst).Nodup := by
  induction k with
  | zero => exact List.nodup_nil
  | succ k ih =>
      rw [gpuObject, inObject_eq_set]
      exact Fields.nodup_set ih

theorem onlyObject_gpuObject (key : List Char) (k : Nat) :
    OnlyObject key (gpuObject node value k) := by
  induction k with
  | zero => nofun
  | succ k ih =>
      intro j hj
      by_cases hkey : snprintf 12 (socketKey k) = key
      · subst hkey
        rw [gpuObject, get_inObject_self] at hj
        obtain rfl := Option.some.inj hj
        cases hget : Fields.get (snprintf 12 (socketKey k)) (gpuObject node value k) with
        | none => exact ⟨_, rfl⟩
        | some j =>
            obtain ⟨l, rfl⟩ := ih j hget
            exact ⟨_, rfl⟩
      · rw [gpuObject, get_inObject_of_ne hkey] at hj
        exact ih j hj

/-- The entries of the first `k` sockets, as they are set. -/
def allEntries (node : GpuNode) (value : Int → Int) (k : Nat) :
    List ((List Char × List Char) × Json) :=
  (List.range k).flatMap fun c => tagged (snprintf 12 (socketKey c)) (entries node value c)

theorem allEntries_succ (k : Nat) : allEntries node value (k + 1)
    = allEntries node value k ++ tagged (snprintf 12 (socketKey k)) (entries node value k) := by
  rw [allEntries, List.range_succ, List.flatMap_append, List.flatMap_singleton]
  rfl

/-- A turn adds as many entries as it sets if they are new, and fewer otherwise. -/
theorem leaves_gpuObject (node : GpuNode) (value : Int → Int) (k : Nat) :
    (leaves (gpuObject node value k)).length ≤ (allEntries node value k).length ∧
    ((leaves (gpuObject node value k)).length = (allEntries node value k).length →
      ((allEntries node value k).map Prod.fst).Nodup) ∧
    (((allEntries node value k).map Prod.fst).Nodup →
      (leaves (gpuObject node value k)).Perm (allEntries node value k)) := by
  induction k with
  | zero => exact ⟨Nat.le_refl _, fun _ => List.nodup_nil, fun _ => List.Perm.refl _⟩
  | succ k ih =>
      obtain ⟨hle, htight, hperm⟩ := ih
      obtain ⟨rest, l, hbefore, hafter, hrest⟩ :=
        leaves_inObject (entries node value k) (nodup_gpuObject node value k)
          (onlyObject_gpuObject (snprintf 12 (socketKey k)) k)
      have hlenBefore := hbefore.length_eq
      have hlenAfter := hafter.length_eq
      have hset := Fields.length_setAll_le l (entries node value k)
      rw [allEntries_succ, gpuObject]
      simp only [List.length_append, tagged, List.length_map] at hlenBefore hlenAfter ⊢
      refine ⟨by omega, fun hlen => ?_, fun hnodup => ?_⟩
      · have hkeys := htight (by omega)
        obtain ⟨hentries, hnew⟩ := Fields.new_of_length_setAll
          (show (Fields.setAll l (entries node value k)).length = _ by omega)
        rw [List.map_append]
        refine hkeys.append (nodup_tagged_keys.mpr hentries) fun place hold hplace => ?_
        -- a place that was taken is one of the same object
        rw [← ((hperm hkeys).map Prod.fst).mem_iff, (hbefore.map Prod.fst).mem_iff,
          List.map_append, List.mem_append, mem_tagged_keys] at hold
        obtain ⟨hkey, hmem⟩ := mem_tagged_keys.mp hplace
        rcases hold with hold | hold
        · exact hrest place hold hkey
        · exact hnew place.2 hmem hold.2
      · rw [List.map_append, List.nodup_append] at hnodup
        obtain ⟨hkeys, hentries, hdisj⟩ := hnodup
        have hnew : ∀ e ∈ (entries node value k).map Prod.fst, e ∉ l.map Prod.fst := by
          intro e he hl
          refine hdisj (snprintf 12 (socketKey k), e) ?_ _ (mem_tagged_keys.mpr ⟨rfl, he⟩) rfl
          rw [← ((hperm hkeys).map Prod.fst).mem_iff, (hbefore.map Prod.fst).mem_iff,
            List.map_append]
          exact List.mem_append_right _ (mem_tagged_keys.mpr ⟨rfl, hl⟩)
        rw [Fields.setAll_of_new (nodup_tagged_keys.mp hentries) hnew, tagged_append,
          ← List.append_assoc] at hafter
        exact hafter.trans ((hbefore.symm.trans (hperm hkeys)).append_right _)

/-- **The object has all entries, and no other, exactly when no two share both keys.** -/
theorem leaves_perm_iff (k : Nat) :
    (leaves (gpuObject node value k)).Perm (allEntries node value k) ↔
      ((allEntries node value k).map Prod.fst).Nodup := by
  obtain ⟨-, htight, hperm⟩ := leaves_gpuObject node value k
  exact ⟨fun h => htight h.length_eq, hperm⟩

end Leaves

end UtilJson

/-! ### The platforms -/

/-- A platform with GPU utilization. -/
inductive UtilPlatform
  | nvidia
  | amdGpu

namespace UtilPlatform

/-- What it stores for a device. -/
def value (util : Int → BitVec 32) : UtilPlatform → Int → Int
  | nvidia, d => (util d).toNat
  | amdGpu, _ => 0

/-- Its JSON function, called for every socket. -/
def getUtilizationJson (node : GpuNode) (hostname : List Char) (ts : Nat → Int)
    (util : Int → BitVec 32) : UtilPlatform → Option Object
  | nvidia =>
      forSockets (UtilJson.Nvidia.getGpuUtilizationJson node hostname ts util) node.sockets []
  | amdGpu =>
      forSockets (UtilJson.AmdGpu.getGpuUtilizationDataJson node hostname ts util) node.sockets []

/-- Its printing function, called for every socket. -/
def getUtilization (node : GpuNode) (util : Int → BitVec 32) :
    UtilPlatform → Option (List UtilLine)
  | nvidia => GpuNode.overSockets (UtilJson.Nvidia.gpuGetGpuUtilizationData node util) node.sockets
  | amdGpu => GpuNode.overSockets (UtilJson.AmdGpu.getGpuUtilizationData node util) node.sockets

variable (p : UtilPlatform) (node : GpuNode) (hostname : List Char) (ts : Nat → Int)
  (util : Int → BitVec 32)

theorem getUtilizationJson_eq : p.getUtilizationJson node hostname ts util
    = forSockets (UtilJson.utilTurn node hostname ts (p.value util)) node.sockets [] := by
  cases p with
  | nvidia => rfl
  | amdGpu => rfl

/-- What it stores for a device is 0 or what the driver reports. -/
theorem value_cases (d : Int) : p.value util d = 0 ∨ p.value util d = (util d).toNat := by
  cases p with
  | nvidia => exact .inr rfl
  | amdGpu => exact .inl rfl

end UtilPlatform

end Variorum
