/-
Variorum/UtilAgree.lean

Whether a row of the monitor shows what the driver reports.

The GPU platforms number the devices through from 0, block after block; the
monitor numbers them with a row of `num_sockets` for each socket, from 1.  What
it looks for in the object of socket `i` as its entry `j` is not device
`i * g + j` but one behind it, if that is in the object at all, and every device
after it likewise: so whatever is shown rightly is 0 (`util_iff`).

The rest is counting.  The key of a device has to survive a buffer of twelve, and
the names of the columns differ when a socket has no more entries than there are
sockets.
-/
import Variorum.UtilJsonSpec

namespace Variorum

open CString PowerJson
open Json (Object)
open UtilJson (Field UtilPrinted UtilLine HostUtil)

/-! ### A row that agrees -/

/-- A node with `g` devices for each of its `s` sockets. -/
structure UtilNode extends GpuNode where
  perSocket : Nat
  perSocket_pos : 0 < perSocket
  devices_eq : devices.toNat = sockets * perSocket

/-- Fields with a comma each and a newline behind the last. -/
def Terminated (fields : List Field) : Prop :=
  ∃ init last, fields = init ++ [last] ∧ last.stop = '\n' ∧ ∀ f ∈ init, f.stop = ','

/-- The header and the row end, the names differ, and behind the six columns of the host
the row has what the printing function shows, for all devices in their order. -/
structure RowAgrees (lines : List UtilLine) (devices : Nat) (printed : UtilPrinted) : Prop where
  header : Terminated printed.header
  row : Terminated printed.row
  names : (printed.header.map Field.text).Nodup
  devices : lines.map UtilLine.dev = (List.range devices).map Int.ofNat
  values : (printed.row.drop 6).map Field.text = lines.map fun x => decimalInt x.util

/-- Nothing is utilized; one socket has at most a hundred million devices, and of more
sockets none has more devices than there are sockets, of which there are ten thousand. -/
structure UtilCondition (node : UtilNode) (util : Int → BitVec 32) : Prop where
  idle : ∀ d : Nat, d < node.sockets * node.perSocket → util d = 0
  sizes : node.sockets = 1 ∧ node.perSocket ≤ 10 ^ 8 ∨
    1 < node.sockets ∧ node.perSocket ≤ node.sockets ∧ node.sockets ≤ 10000

namespace UtilJson

/-! ### What the monitor writes -/

section Monitor

variable {gpuObj : Json} {s i j n : Nat} {text : Nat → Int → List Char} {fields : List Field}

/-- The entries of a socket in the monitor's count. -/
theorem ndevices_eq {node : GpuNode} {value : Int → Int} {i k : Nat} (hi : i < 10000)
    (hk : k ≤ 10000) (hik : i < k) :
    ndevices (.object (gpuObject node value k)) i
      = (Fields.setAll [] (entries node value i)).length := by
  unfold ndevices
  rw [show (Json.object (gpuObject node value k)).get (socketKey i) = _ from
    get_gpuObject hi hk, if_pos hik]
  rfl

/-- The fields of a socket, where no index overflows. -/
def fieldsFor (text : Nat → Int → List Char) (gpuObj : Json) (s i : Nat) : List Field :=
  (List.range (ndevices gpuObj i)).map fun j =>
    ⟨text i (utilIndex s i j), utilStop s i (ndevices gpuObj i) j⟩

theorem socketFields_eq (h : (socketFields text gpuObj s i).isSome) :
    socketFields text gpuObj s i = some (fieldsFor text gpuObj s i) := by
  unfold socketFields at h ⊢
  dsimp only at h ⊢
  split
  · next hover =>
      rw [if_pos hover] at h
      cases h
  · rfl

theorem deviceFields_eq (h : deviceFields text gpuObj s = some fields) :
    fields = (List.range s).flatMap (fieldsFor text gpuObj s) := by
  have hsome := GpuNode.overSockets_eq_some h
  have hall := GpuNode.overSockets_eq fun i hi => socketFields_eq (hsome i hi)
  exact Option.some.inj (h.symm.trans hall)

/-- No index overflows where the greatest does not. -/
theorem deviceFields_of_lt (h : ∀ i < s, i * s + ndevices gpuObj i < 2 ^ 31) :
    deviceFields text gpuObj s = some ((List.range s).flatMap (fieldsFor text gpuObj s)) := by
  refine GpuNode.overSockets_eq fun i hi => socketFields_eq ?_
  unfold socketFields
  dsimp only
  rw [if_neg]
  · rfl
  · rintro ⟨hn, hover⟩
    have hlt := h i hi
    have hindex : utilIndex s i (ndevices gpuObj i - 1)
        = ((i * s + ndevices gpuObj i : Nat) : Int) := by
      rw [utilIndex]
      push_cast
      omega
    rw [hindex, GpuNode.cInt_natCast hlt] at hover
    cases hover

/-- The newline comes with the last device of the last socket. -/
theorem stop_of_mem {f : Field} (h : f ∈ fieldsFor text gpuObj s i) :
    f.stop = ',' ∨ i + 1 = s ∧ 0 < ndevices gpuObj i := by
  obtain ⟨j, hj, rfl⟩ := List.mem_map.mp h
  have hlt := List.mem_range.mp hj
  show utilStop s i (ndevices gpuObj i) j = ',' ∨ _
  unfold utilStop
  by_cases hlast : i + 1 = s ∧ j + 1 = ndevices gpuObj i
  · exact .inr ⟨hlast.1, by omega⟩
  · exact .inl (if_neg hlast)

theorem get_setIfNone_of_ne {key k : List Char} {v : Json} {obj : Object} (h : key ≠ k) :
    Fields.get k (setIfNone key v obj) = Fields.get k obj := by
  unfold setIfNone
  cases (Fields.get key obj).isNone with
  | true => exact Fields.get_set_of_ne h
  | false => rfl

/-- The utilization of the host leaves the object of the GPUs alone. -/
theorem addHostUtil_eq (hostname : List Char) (u : HostUtil) {host : Object}
    (h : Fields.get gpuKey host = some gpuObj) :
    ∃ host', addHostUtil hostname u [(hostname, .object host)] = [(hostname, .object host')] ∧
      Fields.get gpuKey host' = some gpuObj := by
  refine ⟨_, if_pos rfl, ?_⟩
  rw [Fields.get_set_of_ne (by decide), get_inObject_of_ne (by decide),
    get_setIfNone_of_ne (by decide), h]

/-- A call whose host has GPUs writes its fields behind those of the host. -/
theorem parseJsonUtilObj_iff (hostname : List Char) {host : Object}
    (h : Fields.get gpuKey host = some gpuObj) {printed : UtilPrinted} :
    (∃ flag, parseJsonUtilObj s true [(hostname, .object host)] = some (printed, flag)) ↔
      ∃ columns values, deviceFields columnText gpuObj s = some columns ∧
        deviceFields (valueText gpuObj) gpuObj s = some values ∧
        printed = ⟨hostHeader ',' ++ columns, hostRow hostname (.object host) ',' ++ values⟩ := by
  have hget : (Json.object host).get gpuKey = some gpuObj := h
  unfold parseJsonUtilObj
  simp only [List.getLast?_singleton, Option.bind_eq_bind, Option.bind_some, hget,
    Option.bind_eq_some_iff, if_true, Option.some.injEq, Prod.mk.injEq]
  constructor
  · rintro ⟨flag, columns, hcolumns, values, hvalues, rfl, -⟩
    exact ⟨columns, values, hcolumns, hvalues, rfl⟩
  · rintro ⟨columns, values, hcolumns, hvalues, rfl⟩
    exact ⟨_, columns, hcolumns, values, hvalues, rfl, rfl⟩

end Monitor

/-! ### Columns -/

section Columns

theorem utilColumn_injective : Function.Injective utilColumn := fun _ _ h =>
  decimalInt_injective (List.append_cancel_left (List.append_cancel_right h))

/-- The number of a device between two texts that leave room for ten digits. -/
theorem snprintf_device {before after : List Char} {n : Nat} (hn : n < 2 ^ 31)
    (hroom : before.length + after.length ≤ 13) :
    snprintf 24 (before ++ decimalInt n ++ after) = before ++ decimalInt n ++ after := by
  have hlen := length_decimal_le hn
  apply snprintf_of_lt
  rw [decimalInt_natCast, List.length_append, List.length_append]
  omega

theorem snprintf_24_utilKey {n : Nat} (hn : n < 2 ^ 31) : snprintf 24 (utilKey n) = utilKey n :=
  snprintf_device hn (by decide)

theorem snprintf_24_utilColumn {n : Nat} (hn : n < 2 ^ 31) :
    snprintf 24 (utilColumn n) = utilColumn n :=
  snprintf_device hn (by decide)

end Columns

/-! ### Blocks of equal length -/

section Blocks

/-- Terms that are bounded reach the bound of their sum only if each reaches its own. -/
theorem eq_of_sum_eq {f : Nat → Nat} {g n : Nat} (hle : ∀ i < n, f i ≤ g)
    (h : ((List.range n).map f).sum = n * g) : ∀ i < n, f i = g := by
  have hsum : ∀ k ≤ n, ((List.range k).map f).sum ≤ k * g := by
    intro k hk
    induction k with
    | zero => exact Nat.zero_le _
    | succ k ih =>
        rw [List.range_succ, List.map_append, List.sum_append, List.map_singleton,
          List.sum_singleton, Nat.succ_mul]
        exact Nat.add_le_add (ih (Nat.le_of_succ_le hk)) (hle k hk)
  induction n with
  | zero => exact fun i hi => absurd hi (Nat.not_lt_zero i)
  | succ n ih =>
      have hn := hsum n (Nat.le_succ n)
      have hlast := hle n (Nat.lt_succ_self n)
      rw [List.range_succ, List.map_append, List.sum_append, List.map_singleton,
        List.sum_singleton, Nat.succ_mul] at h
      intro i hi
      rcases Nat.lt_succ_iff_lt_or_eq.mp hi with hi | rfl
      · exact ih (fun i hi => hle i (Nat.lt_succ_of_lt hi)) (by omega)
          (fun k hk => hsum k (Nat.le_succ_of_le hk)) i hi
      · omega

/-- Two joined lists of blocks agree block by block where the lengths do. -/
theorem flatMap_injective {α : Type} {f f' : Nat → List α} {n : Nat}
    (hlen : ∀ i < n, (f i).length = (f' i).length)
    (h : (List.range n).flatMap f = (List.range n).flatMap f') : ∀ i < n, f i = f' i := by
  induction n with
  | zero => exact fun i hi => absurd hi (Nat.not_lt_zero i)
  | succ n ih =>
      rw [List.range_succ, List.flatMap_append, List.flatMap_append, List.flatMap_singleton,
        List.flatMap_singleton] at h
      obtain ⟨hbefore, hlast⟩ := List.append_inj' h (hlen n (Nat.lt_succ_self n))
      intro i hi
      rcases Nat.lt_succ_iff_lt_or_eq.mp hi with hi | rfl
      · exact ih (fun i hi => hlen i (Nat.lt_succ_of_lt hi)) hbefore i hi
      · exact hlast

/-- The numbers below `n * g` in blocks of `g`. -/
theorem map_range_blocks {α : Type} (f : Nat → α) (n g : Nat) :
    (List.range (n * g)).map f
      = (List.range n).flatMap fun i => (List.range g).map fun j => f (i * g + j) := by
  rw [← flatMap_blocks, List.map_flatMap]
  simp only [List.range'_eq_map_range, List.map_map]
  rfl

end Blocks

/-! ### Rows -/

section Rows

variable {node : UtilNode} {util : Int → BitVec 32} {value : Int → Int} {i j : Nat}

theorem perSocket_eq (node : UtilNode) : node.gpusPerSocket.toNat = node.perSocket := by
  rw [GpuNode.gpusPerSocket_toNat, node.devices_eq, Nat.mul_div_cancel_left _ node.sockets_pos]

/-- As an `int` the number is not greater. -/
theorem toNat_toInt_le (x : BitVec 32) : x.toInt.toNat ≤ x.toNat := by
  rw [BitVec.toInt_eq_toNat_cond]
  split <;> omega

theorem length_entries_le (node : UtilNode) (value : Int → Int) (i : Nat) :
    (entries node.toGpuNode value i).length ≤ node.gpusPerSocket.toInt.toNat := by
  rw [entries, List.length_map]
  cases h : node.block i with
  | none => exact Nat.zero_le _
  | some devs =>
      rw [(GpuNode.block_devices h).1, Option.getD_some, List.length_map, List.length_range]

/-- A device of a block is one of the node. -/
theorem mem_block_lt (hi : i < node.sockets) {n : Nat} (h : (n : Int) ∈ (node.block i).getD []) :
    n < node.sockets * node.perSocket := by
  cases hblock : node.block i with
  | none =>
      rw [hblock] at h
      cases h
  | some devs =>
      rw [hblock, Option.getD_some, (GpuNode.block_devices hblock).1] at h
      obtain ⟨j, hj, hn⟩ := List.mem_map.mp h
      have hlt := List.mem_range.mp hj
      obtain ⟨g, hg⟩ : ∃ g : Nat, node.gpusPerSocket.toInt = g :=
        ⟨_, Int.eq_natCast_toNat.mpr (by omega)⟩
      have hle := toNat_toInt_le node.gpusPerSocket
      rw [hg, Int.toNat_natCast] at hlt hle
      rw [perSocket_eq] at hle
      have hmul : (i + 1) * g ≤ node.sockets * node.perSocket := Nat.mul_le_mul hi hle
      rw [hg] at hn
      have hcast : i * g + j = n := by exact_mod_cast hn
      rw [Nat.succ_mul] at hmul
      omega

/-- What the monitor shows under an index is 0 or the utilization of that device, if it is
one of the socket. -/
theorem valueText_cases (hvalue : ∀ d, value d = 0 ∨ value d = (util d).toNat)
    (hs : node.sockets ≤ 10000) (hi : i < node.sockets) {n : Nat} (hn : n < 2 ^ 31) :
    valueText (.object (gpuObject node.toGpuNode value node.sockets)) i n = decimalInt 0 ∨
      (n : Int) ∈ (node.block i).getD [] ∧
        valueText (.object (gpuObject node.toGpuNode value node.sockets)) i n
          = decimalInt (util n).toInt := by
  have hsocket : (Json.object (gpuObject node.toGpuNode value node.sockets)).get (socketKey i)
      = some (.object (Fields.setAll [] (entries node.toGpuNode value i))) := by
    refine (get_gpuObject (by omega) hs).trans (if_pos hi)
  unfold valueText
  rw [hsocket, Option.bind_some, snprintf_24_utilKey hn]
  -- what is not found reads as 0, and what is found was set for this device
  rcases Fields.get_setAll_cases (utilKey n) [] (entries node.toGpuNode value i)
    with hget | ⟨kv, hkv, hkey, hget⟩
  · rw [show (Json.object (Fields.setAll [] (entries node.toGpuNode value i))).get (utilKey n)
      = none from hget]
    exact .inl rfl
  · rw [show (Json.object (Fields.setAll [] (entries node.toGpuNode value i))).get (utilKey n)
      = some kv.2 from hget]
    obtain ⟨d, hd, rfl⟩ := List.mem_map.mp hkv
    obtain rfl := eq_of_snprintf_utilKey hkey
    show decimalInt (BitVec.ofInt 32 (value n)).toInt = _ ∨ _
    rcases hvalue n with hzero | hutil
    · rw [hzero]
      exact .inl rfl
    · refine .inr ⟨hd, ?_⟩
      show decimalInt (BitVec.ofInt 32 (value n)).toInt = _
      rw [hutil, BitVec.ofInt_natCast, BitVec.ofNat_toNat, BitVec.setWidth_eq]

theorem utilIndex_natCast (s i j : Nat) : utilIndex s i j = ((i * s + j + 1 : Nat) : Int) := by
  rw [utilIndex]
  push_cast
  rfl

/-- The sizes for which the indices are within the devices that can be numbered. -/
theorem index_lt {s g : Nat} (hs : s ≤ 10000) (hsizes : s = 1 ∧ g ≤ 10 ^ 8 ∨ g ≤ s) (hi : i < s) :
    i * s + g ≤ 10 ^ 8 := by
  rcases hsizes with ⟨rfl, hg⟩ | hg
  · omega
  · calc i * s + g ≤ i * s + s := Nat.add_le_add_left hg _
      _ = (i + 1) * s := (Nat.succ_mul i s).symm
      _ ≤ 10000 * 10000 := Nat.mul_le_mul (by omega) hs
      _ = 10 ^ 8 := by decide

/-- **What a row shows rightly is 0**: each device shows 0 or a device behind it. -/
theorem idle_of_rows (hvalue : ∀ d, value d = 0 ∨ value d = (util d).toNat)
    (hs : node.sockets ≤ 10000)
    (hsizes : node.sockets = 1 ∧ node.perSocket ≤ 10 ^ 8 ∨ node.perSocket ≤ node.sockets)
    (hrows : ∀ i < node.sockets, ∀ j < node.perSocket,
      valueText (.object (gpuObject node.toGpuNode value node.sockets)) i
          (utilIndex node.sockets i j)
        = decimalInt (util ((i * node.perSocket + j : Nat) : Int)).toInt) :
    ∀ d : Nat, d < node.sockets * node.perSocket → util d = 0 := by
  have hstep : ∀ d : Nat, d < node.sockets * node.perSocket → util d = 0 ∨
      ∃ n : Nat, d < n ∧ n < node.sockets * node.perSocket ∧ util d = util n := by
    intro d hd
    have hg := node.perSocket_pos
    have hi : d / node.perSocket < node.sockets := Nat.div_lt_of_lt_mul (by rwa [mul_comm] at hd)
    have hj : d % node.perSocket < node.perSocket := Nat.mod_lt d hg
    have hrow := hrows _ hi _ hj
    rw [Nat.div_add_mod' d node.perSocket, utilIndex_natCast] at hrow
    have hindex := index_lt hs hsizes hi
    rcases valueText_cases hvalue hs hi (n := d / node.perSocket * node.sockets
      + d % node.perSocket + 1) (by omega) with hzero | ⟨hmem, hutil⟩
    · rw [hzero] at hrow
      exact .inl (BitVec.eq_of_toInt_eq (decimalInt_injective hrow).symm)
    · refine .inr ⟨_, ?_, ?_, BitVec.eq_of_toInt_eq (decimalInt_injective (hrow.symm.trans hutil))⟩
      · have hle : d / node.perSocket * node.perSocket ≤ d / node.perSocket * node.sockets := by
          rcases hsizes with ⟨hone, -⟩ | hle
          · rw [hone] at hi
            rw [Nat.lt_one_iff.mp hi, Nat.zero_mul, Nat.zero_mul]
          · exact Nat.mul_le_mul_left _ hle
        have hsplit := Nat.div_add_mod' d node.perSocket
        omega
      · exact mem_block_lt hi hmem
  intro d hd
  -- each device points behind itself, so the induction is on how many there are behind it
  induction hk : node.sockets * node.perSocket - d using Nat.strong_induction_on generalizing d with
  | _ k ih =>
      rcases hstep d hd with hzero | ⟨n, hdn, hn, hutil⟩
      · exact hzero
      · rw [hutil]
        exact ih _ (by omega) n hn rfl

end Rows

/-! ### Ends of lines -/

section Lines

variable {gpuObj : Json} {s g : Nat} {text : Nat → Int → List Char} {host : List Field}

/-- A line that ends has a device in its last socket. -/
theorem ndevices_pos_of_terminated (hhost : ∀ f ∈ host, f.stop = ',')
    (h : Terminated (host ++ (List.range s).flatMap (fieldsFor text gpuObj s))) :
    ∃ i, i + 1 = s ∧ 0 < ndevices gpuObj i := by
  obtain ⟨init, last, heq, hlast, -⟩ := h
  have hmem : last ∈ host ++ (List.range s).flatMap (fieldsFor text gpuObj s) := by
    rw [heq]
    exact List.mem_append_right _ (List.mem_singleton_self _)
  rcases List.mem_append.mp hmem with hmem | hmem
  · rw [hhost last hmem] at hlast
    exact absurd hlast (by decide)
  · obtain ⟨i, -, hmem⟩ := List.mem_flatMap.mp hmem
    rcases stop_of_mem hmem with hcomma | hi
    · rw [hcomma] at hlast
      exact absurd hlast (by decide)
    · exact ⟨i, hi⟩

/-- And one with a device in each ends. -/
theorem terminated_of_ndevices (hhost : ∀ f ∈ host, f.stop = ',') (hs : 0 < s) (hg : 0 < g)
    (hn : ∀ i < s, ndevices gpuObj i = g) :
    Terminated (host ++ (List.range s).flatMap (fieldsFor text gpuObj s)) := by
  obtain ⟨k, rfl⟩ := Nat.exists_eq_succ_of_ne_zero hs.ne'
  obtain ⟨m, rfl⟩ := Nat.exists_eq_succ_of_ne_zero hg.ne'
  -- the fields of the last socket are those of its first `m` devices and the last one
  have hlast : fieldsFor text gpuObj (k + 1) k
      = ((List.range m).map fun j =>
          ⟨text k (utilIndex (k + 1) k j), utilStop (k + 1) k (m + 1) j⟩) ++
        [⟨text k (utilIndex (k + 1) k m), utilStop (k + 1) k (m + 1) m⟩] := by
    rw [fieldsFor, hn k (Nat.lt_succ_self k), List.range_succ, List.map_append, List.map_singleton]
  refine ⟨host ++ (List.range k).flatMap (fieldsFor text gpuObj (k + 1)) ++
    (List.range m).map fun j => ⟨text k (utilIndex (k + 1) k j), utilStop (k + 1) k (m + 1) j⟩,
    ⟨text k (utilIndex (k + 1) k m), utilStop (k + 1) k (m + 1) m⟩, ?_, if_pos ⟨rfl, rfl⟩, ?_⟩
  · rw [List.range_succ, List.flatMap_append, List.flatMap_singleton, hlast]
    simp only [List.append_assoc]
  · intro f hf
    rcases List.mem_append.mp hf with hf | hf
    · rcases List.mem_append.mp hf with hf | hf
      · exact hhost f hf
      · obtain ⟨i, hi, hf⟩ := List.mem_flatMap.mp hf
        have hlt := List.mem_range.mp hi
        exact (stop_of_mem hf).resolve_right fun h => by omega
    · obtain ⟨j, hj, rfl⟩ := List.mem_map.mp hf
      have hlt := List.mem_range.mp hj
      exact if_neg fun h => by omega

end Lines

/-! ### Names -/

section Names

variable {gpuObj : Json} {s g : Nat}

/-- The texts of the columns of the devices. -/
theorem columnTexts_eq (hn : ∀ i < s, ndevices gpuObj i = g) :
    ((List.range s).flatMap (fieldsFor columnText gpuObj s)).map Field.text
      = (List.range s).flatMap fun i => (List.range g).map fun j =>
          snprintf 24 (utilColumn (utilIndex s i j)) := by
  rw [List.map_flatMap]
  refine List.flatMap_congr fun i hi => ?_
  rw [fieldsFor, hn i (List.mem_range.mp hi), List.map_map]
  rfl

/-- With more devices for a socket than sockets, the first two sockets share a name. -/
theorem le_of_names_nodup (hs : 1 < s)
    (h : ((List.range s).flatMap fun i => (List.range g).map fun j =>
      snprintf 24 (utilColumn (utilIndex s i j))).Nodup) : g ≤ s := by
  by_contra hlt
  obtain ⟨-, hpairs⟩ := List.nodup_flatMap.mp h
  have hdisj := List.pairwise_iff_getElem.mp hpairs 0 1 (by rw [List.length_range]; omega)
    (by rw [List.length_range]; omega) (by decide)
  rw [List.getElem_range, List.getElem_range] at hdisj
  -- entry `s` of socket 0 and entry 0 of socket 1 have the index `s + 1`
  apply hdisj (a := snprintf 24 (utilColumn (utilIndex s 1 0)))
  · refine List.mem_map.mpr ⟨s, List.mem_range.mpr (by omega), ?_⟩
    rw [utilIndex_natCast, utilIndex_natCast, Nat.zero_mul, Nat.zero_add, Nat.one_mul, Nat.add_zero]
  · exact List.mem_map.mpr ⟨0, List.mem_range.mpr (by omega), rfl⟩

/-- **The names of all columns differ** for sizes within the indices. -/
theorem names_nodup (hs : s ≤ 10000) (hsizes : s = 1 ∧ g ≤ 10 ^ 8 ∨ g ≤ s)
    (hn : ∀ i < s, ndevices gpuObj i = g) :
    ((hostHeader ',' ++ (List.range s).flatMap (fieldsFor columnText gpuObj s)).map
      Field.text).Nodup := by
  -- the names are numbered, and a number stands for one device only
  have htext : ((List.range s).flatMap (fieldsFor columnText gpuObj s)).map Field.text
      = ((List.range s).flatMap fun i => (List.range g).map fun j => i * s + j + 1).map
          fun n : Nat => utilColumn n := by
    rw [columnTexts_eq hn, List.map_flatMap]
    refine List.flatMap_congr fun i hi => ?_
    rw [List.map_map]
    refine List.map_congr_left fun j hj => ?_
    have hindex := index_lt hs hsizes (List.mem_range.mp hi)
    have hlt := List.mem_range.mp hj
    rw [utilIndex_natCast, snprintf_24_utilColumn (by omega)]
    rfl
  have hcolumns : ((List.range s).flatMap fun i =>
      (List.range g).map fun j => i * s + j + 1).Nodup := by
    refine List.nodup_flatMap.mpr ⟨fun i _ => ?_, ?_⟩
    · exact List.nodup_range.map fun j j' h => by
        have heq : i * s + j + 1 = i * s + j' + 1 := h
        omega
    -- the numbers of a later socket start behind those of an earlier one
    · refine List.pairwise_lt_range.imp_of_mem fun {i k} hi hk hik => ?_
      intro n hni hnk
      obtain ⟨j, hj, rfl⟩ := List.mem_map.mp hni
      obtain ⟨j', -, heq⟩ := List.mem_map.mp hnk
      have hks := List.mem_range.mp hk
      have hjg := List.mem_range.mp hj
      have hle : (i + 1) * s ≤ k * s := Nat.mul_le_mul_right s hik
      rw [Nat.succ_mul] at hle
      omega
  rw [List.map_append, htext, List.nodup_append]
  refine ⟨by decide, hcolumns.map fun m n h => ?_, ?_⟩
  · exact Int.ofNat.inj (utilColumn_injective h)
  -- the names of the devices start with a G, the two at the front do not
  · have hhost : ∀ a ∈ (hostHeader ',').map Field.text, a.head? ≠ some 'G' := by decide
    intro a ha b hb hab
    obtain ⟨n, -, rfl⟩ := List.mem_map.mp hb
    exact hhost a ha (hab ▸ rfl)

end Names

/-! ### Both directions -/

section Agreement

variable {node : UtilNode} {util : Int → BitVec 32} {value : Int → Int} {hostname : List Char}
  {host : Object} {lines : List UtilLine} {printed : UtilPrinted}

/-- The lines of a printing function. -/
def printedLines (node : GpuNode) (util : Int → BitVec 32) : Option (List UtilLine) :=
  GpuNode.overSockets
    (fun chipid => node.forBlock (fun d => ⟨chipid, d, (util d).toInt⟩) chipid) node.sockets

/-- They show the utilization of their devices. -/
theorem util_of_printedLines (h : printedLines node.toGpuNode util = some lines) :
    ∀ x ∈ lines, x.util = (util x.dev).toInt := by
  refine GpuNode.overSockets_forall (fun c l hl x hx => ?_) h
  obtain ⟨devs, -, rfl⟩ := Option.map_eq_some_iff.mp hl
  obtain ⟨d, -, rfl⟩ := List.mem_map.mp hx
  rfl

/-- For all devices in order, the lines are what a row has to show. -/
theorem texts_of_printedLines {n : Nat} (h : printedLines node.toGpuNode util = some lines)
    (hdevs : lines.map UtilLine.dev = (List.range n).map Int.ofNat) :
    (lines.map fun x => decimalInt x.util)
      = (List.range n).map fun d : Nat => decimalInt (util d).toInt := by
  have hutil : (lines.map fun x => decimalInt x.util)
      = (lines.map UtilLine.dev).map fun d => decimalInt (util d).toInt := by
    rw [List.map_map]
    refine List.map_congr_left fun x hx => ?_
    rw [util_of_printedLines h x hx]
    rfl
  rw [hutil, hdevs, List.map_map]
  rfl

/-- Where the object of each socket has all its entries, the keys of the devices differ. -/
theorem perSocket_le_of_ndevices (hone : node.sockets = 1)
    (hn : ∀ i < node.sockets,
      ndevices (.object (gpuObject node.toGpuNode value node.sockets)) i = node.perSocket) :
    node.perSocket ≤ 10 ^ 8 := by
  by_contra hlarge
  have hcount := hn 0 node.sockets_pos
  rw [ndevices_eq (by decide) (by omega) node.sockets_pos] at hcount
  have hle := Fields.length_setAll_le [] (entries node.toGpuNode value 0)
  have hentries := length_entries_le node value 0
  have hint := toNat_toInt_le node.gpusPerSocket
  rw [perSocket_eq] at hint
  rw [List.length_nil, Nat.zero_add] at hle
  obtain ⟨hnodup, -⟩ := Fields.new_of_length_setAll
    (show (Fields.setAll [] (entries node.toGpuNode value 0)).length = 0 + _ by omega)
  cases hblock : node.block 0 with
  | none =>
      rw [entries, hblock] at hcount
      exact absurd hcount (Nat.ne_of_lt node.perSocket_pos)
  | some devs =>
      have hkeys : ((entries node.toGpuNode value 0).map Prod.fst)
          = (List.range node.gpusPerSocket.toInt.toNat).map fun j : Nat =>
              snprintf 12 (utilKey j) := by
        rw [entries, hblock, Option.getD_some, (GpuNode.block_devices hblock).1, List.map_map,
          List.map_map]
        refine List.map_congr_left fun j _ => ?_
        show snprintf 12 (utilKey (((0 : Nat) : Int) * _ + (j : Int))) = _
        rw [Nat.cast_zero, zero_mul, zero_add]
      rw [hkeys] at hnodup
      -- the last digit of device 100000000 is cut off, and device 10000000 has its key
      have hsame : (10000000 : Nat) = 100000000 := by
        refine List.inj_on_of_nodup_map hnodup (List.mem_range.mpr ?_) (List.mem_range.mpr ?_) ?_
        · omega
        · omega
        · decide
      exact absurd hsame (by decide)

/-- The columns of the host are six, with a comma each. -/
theorem drop_hostRow (hostname : List Char) (host : Json) (values : List Field) :
    (hostRow hostname host ',' ++ values).drop 6 = values := rfl

theorem hostRow_stop (hostname : List Char) (host : Json) :
    ∀ f ∈ hostRow hostname host ',', f.stop = ',' := by
  intro f hf
  simp only [hostRow, List.mem_cons, List.not_mem_nil, or_false] at hf
  rcases hf with rfl | rfl | rfl | rfl | rfl | rfl <;> rfl

/-- A row that agrees comes from a node that meets the condition. -/
theorem condition_of_agrees (hvalue : ∀ d, value d = 0 ∨ value d = (util d).toNat)
    {gpuObj : Json} (hobj : gpuObj = .object (gpuObject node.toGpuNode value node.sockets))
    {columns values : List Field} (hlines : printedLines node.toGpuNode util = some lines)
    (hcolumns : deviceFields columnText gpuObj node.sockets = some columns)
    (hvalues : deviceFields (valueText gpuObj) gpuObj node.sockets = some values)
    (h : RowAgrees lines (node.sockets * node.perSocket)
      ⟨hostHeader ',' ++ columns, hostRow hostname (.object host) ',' ++ values⟩) :
    UtilCondition node util := by
  obtain ⟨-, hrow, hnames, hdevs, htexts⟩ := h
  obtain rfl := deviceFields_eq hcolumns
  obtain rfl := deviceFields_eq hvalues
  -- the last socket has entries, so the keys of all sockets fit
  have hs : node.sockets ≤ 10000 := by
    obtain ⟨i, hi, hpos⟩ := ndevices_pos_of_terminated (hostRow_stop _ _) hrow
    by_contra hlarge
    rw [hobj, ndevices, show (Json.object (gpuObject node.toGpuNode value node.sockets)).get
      (socketKey i) = none from get_gpuObject_of_long (by omega) _] at hpos
    exact absurd hpos (Nat.lt_irrefl 0)
  -- no socket has more entries than devices, and together they have as many
  have hle : ∀ i < node.sockets, ndevices gpuObj i ≤ node.perSocket := by
    intro i hi
    rw [hobj, ndevices_eq (by omega) hs hi, ← perSocket_eq]
    have hset := Fields.length_setAll_le [] (entries node.toGpuNode value i)
    rw [List.length_nil, Nat.zero_add] at hset
    exact (hset.trans (length_entries_le node value i)).trans (toNat_toInt_le _)
  rw [texts_of_printedLines hlines hdevs, drop_hostRow, List.map_flatMap,
    map_range_blocks] at htexts
  have hn : ∀ i < node.sockets, ndevices gpuObj i = node.perSocket := by
    refine eq_of_sum_eq hle ?_
    have hlen := congrArg List.length htexts
    rw [List.length_flatMap, List.length_flatMap] at hlen
    simp only [fieldsFor, List.length_map, List.length_range] at hlen
    rw [hlen, List.map_const', List.sum_replicate_nat, List.length_range]
  -- the row and the lines are then the same block by block
  have hrows := flatMap_injective (fun i hi => by
    rw [List.length_map, fieldsFor, List.length_map, List.length_range, List.length_map,
      List.length_range, hn i hi]) htexts
  have hsizes : node.sockets = 1 ∧ node.perSocket ≤ 10 ^ 8 ∨
      1 < node.sockets ∧ node.perSocket ≤ node.sockets := by
    rcases Nat.lt_or_ge 1 node.sockets with hmany | hone
    · rw [List.map_append, List.nodup_append, columnTexts_eq hn] at hnames
      exact .inr ⟨hmany, le_of_names_nodup hmany hnames.2.1⟩
    · have hone : node.sockets = 1 := Nat.le_antisymm hone node.sockets_pos
      exact .inl ⟨hone, perSocket_le_of_ndevices hone (hobj ▸ hn)⟩
  constructor
  · refine idle_of_rows hvalue hs (hsizes.imp_right And.right) fun i hi j hj => ?_
    have hblock := hrows i hi
    rw [fieldsFor, List.map_map, hn i hi] at hblock
    rw [← hobj]
    exact List.map_inj_left.mp hblock j (List.mem_range.mpr hj)
  · exact hsizes.imp_right fun h => ⟨h.1, h.2, hs⟩

/-- Each socket of a node within the sizes has an entry for each of its devices. -/
theorem ndevices_of_sizes (value : Int → Int) (hs : node.sockets ≤ 10000)
    (hdevices : node.sockets * node.perSocket ≤ 10 ^ 8) {i : Nat} (hi : i < node.sockets) :
    ndevices (.object (gpuObject node.toGpuNode value node.sockets)) i = node.perSocket := by
  have hlt : node.devices.toNat < 2 ^ 31 := by
    rw [node.devices_eq]
    omega
  have hquot : node.devices.toNat / node.sockets = node.perSocket := by
    rw [node.devices_eq, Nat.mul_div_cancel_left _ node.sockets_pos]
  have hentries := entries_eq value hlt hi
  rw [hquot] at hentries
  have hnodup : ((entries node.toGpuNode value i).map Prod.fst).Nodup := by
    have hblock : (i + 1) * node.perSocket ≤ node.sockets * node.perSocket :=
      Nat.mul_le_mul_right _ hi
    rw [Nat.succ_mul] at hblock
    rw [hentries, List.map_map]
    refine List.Nodup.map_on (fun m hm n hn h => ?_) List.nodup_range'
    have hm := List.mem_range'_1.mp hm
    have hn := List.mem_range'_1.mp hn
    exact snprintf_utilKey_injective (by omega) (by omega) h
  rw [ndevices_eq (by omega) hs hi, Fields.setAll_nil hnodup, hentries, List.length_map,
    List.length_range']

/-- A node that meets the condition has a row that agrees. -/
theorem agrees_of_condition (hostname : List Char) (host : Object)
    (hvalue : ∀ d, value d = 0 ∨ value d = (util d).toNat) (h : UtilCondition node util)
    {gpuObj : Json}
    (hobj : gpuObj = .object (gpuObject node.toGpuNode value node.sockets)) :
    ∃ lines columns values, printedLines node.toGpuNode util = some lines ∧
      deviceFields columnText gpuObj node.sockets = some columns ∧
      deviceFields (valueText gpuObj) gpuObj node.sockets = some values ∧
      RowAgrees lines (node.sockets * node.perSocket)
        ⟨hostHeader ',' ++ columns, hostRow hostname (.object host) ',' ++ values⟩ := by
  have hs : node.sockets ≤ 10000 := by
    rcases h.sizes with ⟨hone, -⟩ | ⟨-, -, hs⟩
    · omega
    · exact hs
  have hsizes : node.sockets = 1 ∧ node.perSocket ≤ 10 ^ 8 ∨ node.perSocket ≤ node.sockets :=
    h.sizes.imp_right fun h => h.2.1
  have hdevices : node.sockets * node.perSocket ≤ 10 ^ 8 := by
    rcases hsizes with ⟨hone, hg⟩ | hg
    · rw [hone, Nat.one_mul]
      exact hg
    · exact (Nat.mul_le_mul hs (hg.trans hs)).trans (by decide)
  have hlt : node.devices.toNat < 2 ^ 31 := by
    rw [node.devices_eq]
    omega
  have hn : ∀ i < node.sockets, ndevices gpuObj i = node.perSocket := fun i hi =>
    hobj ▸ ndevices_of_sizes value hs hdevices hi
  have hfits : ∀ i < node.sockets, i * node.sockets + ndevices gpuObj i < 2 ^ 31 := by
    intro i hi
    have hindex := index_lt hs hsizes hi
    rw [hn i hi]
    omega
  have hlines : (printedLines node.toGpuNode util).map (·.map UtilLine.dev)
      = some ((List.range (node.sockets * node.perSocket)).map Int.ofNat) := by
    have hquot : node.devices.toNat / node.sockets = node.perSocket := by
      rw [node.devices_eq, Nat.mul_div_cancel_left _ node.sockets_pos]
    rw [← hquot, ← GpuNode.blocks_eq hlt, printedLines, GpuNode.blocks, ← GpuNode.overSockets_map]
    congr 1
    funext c
    rw [GpuNode.forBlock, Option.map_map]
    refine (Option.map_congr fun l _ => ?_).trans Option.map_id'
    show (l.map _).map UtilLine.dev = l
    rw [List.map_map]
    exact List.map_id' l
  obtain ⟨lines, hprinted, hdevs⟩ := Option.map_eq_some_iff.mp hlines
  refine ⟨lines, _, _, hprinted, deviceFields_of_lt hfits, deviceFields_of_lt hfits,
    terminated_of_ndevices (by decide) node.sockets_pos node.perSocket_pos hn,
    terminated_of_ndevices (hostRow_stop _ _) node.sockets_pos node.perSocket_pos hn,
    names_nodup hs hsizes hn, hdevs, ?_⟩
  rw [texts_of_printedLines hprinted hdevs, drop_hostRow, List.map_flatMap, map_range_blocks]
  refine List.flatMap_congr fun i hi => ?_
  have hi := List.mem_range.mp hi
  rw [fieldsFor, List.map_map, hn i hi]
  refine List.map_congr_left fun j hj => ?_
  have hj := List.mem_range.mp hj
  have hindex := index_lt hs hsizes hi
  -- both sides show a device that is idle
  have hblock : (i + 1) * node.perSocket ≤ node.sockets * node.perSocket :=
    Nat.mul_le_mul_right _ hi
  rw [Nat.succ_mul] at hblock
  rw [h.idle (i * node.perSocket + j) (by omega)]
  show valueText gpuObj i (utilIndex node.sockets i j) = decimalInt 0
  rw [hobj, utilIndex_natCast]
  rcases valueText_cases hvalue hs hi (n := i * node.sockets + j + 1) (by omega)
    with hzero | ⟨hmem, hutil⟩
  · exact hzero
  · rw [hutil, h.idle _ (mem_block_lt hi hmem)]
    rfl

end Agreement

end UtilJson

/-- **A row shows what the driver reports** exactly when that is 0 for every device, and
the sizes are such that the columns have names of their own. -/
theorem util_iff (p : UtilPlatform) (node : UtilNode) (hostname : List Char) (ts : Nat → Int)
    (u : HostUtil) (util : Int → BitVec 32) :
    (∃ obj lines printed flag,
      p.getUtilizationJson node.toGpuNode hostname ts util = some obj ∧
      p.getUtilization node.toGpuNode util = some lines ∧
      UtilJson.parseJsonUtilObj node.sockets true (UtilJson.addHostUtil hostname u obj)
        = some (printed, flag) ∧
      RowAgrees lines (node.sockets * node.perSocket) printed) ↔ UtilCondition node util := by
  -- both backends print the same lines
  have hprint : p.getUtilization node.toGpuNode util
      = UtilJson.printedLines node.toGpuNode util := by
    cases p with
    | nvidia => rfl
    | amdGpu => rfl
  rw [p.getUtilizationJson_eq, hprint]
  have hgpu : Fields.get UtilJson.gpuKey
      (UtilJson.hostObject node.toGpuNode (p.value util) (ts 0) node.sockets)
      = some (.object (UtilJson.gpuObject node.toGpuNode (p.value util) node.sockets)) := rfl
  obtain ⟨host, hhost, hget⟩ := UtilJson.addHostUtil_eq hostname u hgpu
  constructor
  · rintro ⟨obj, lines, printed, flag, hobj, hlines, hparse, hagrees⟩
    rw [UtilJson.utilLoop_eq node.sockets_pos.ne' hobj, hhost] at hparse
    obtain ⟨columns, values, hcolumns, hvalues, rfl⟩ :=
      (UtilJson.parseJsonUtilObj_iff hostname hget).mp ⟨flag, hparse⟩
    exact UtilJson.condition_of_agrees (p.value_cases util) rfl hlines hcolumns hvalues hagrees
  · intro h
    obtain ⟨lines, columns, values, hlines, hcolumns, hvalues, hagrees⟩ :=
      UtilJson.agrees_of_condition hostname host (p.value_cases util) h rfl
    obtain ⟨flag, hparse⟩ := (UtilJson.parseJsonUtilObj_iff hostname hget).mpr
      ⟨columns, values, hcolumns, hvalues, rfl⟩
    -- what prints a line for every device also fills the object for every device
    have hsome : (forSockets (UtilJson.utilTurn node.toGpuNode hostname ts (p.value util))
        node.sockets []).isSome := by
      refine UtilJson.utilLoop_isSome_iff.mpr fun c hc => ?_
      have hline := GpuNode.overSockets_eq_some hlines c hc
      rwa [GpuNode.forBlock, Option.isSome_map] at hline
    obtain ⟨obj, hobj⟩ := Option.isSome_iff_exists.mp hsome
    refine ⟨obj, lines, _, flag, hobj, hlines, ?_, hagrees⟩
    rw [UtilJson.utilLoop_eq node.sockets_pos.ne' hobj, hhost]
    exact hparse

/-- One device on one socket. -/
def oneGpu : UtilNode := ⟨⟨1, 1, Nat.one_pos, GpuNode.one_lt⟩, 1, Nat.one_pos, rfl⟩

/-- Its utilization, 50 per cent. -/
def halfUtilized : Int → BitVec 32 := fun _ => 50

/-- The printing function shows 50, and the row 0: the object has an entry for device 0,
and the monitor looks for device 1. -/
theorem oneGpu_reads_zero :
    ∃ obj printed flag,
      UtilPlatform.nvidia.getUtilizationJson oneGpu.toGpuNode "node".toList (fun _ => 7)
        halfUtilized = some obj ∧
      UtilPlatform.nvidia.getUtilization oneGpu.toGpuNode halfUtilized = some [⟨0, 0, 50⟩] ∧
      UtilJson.parseJsonUtilObj 1 true
        (UtilJson.addHostUtil "node".toList ⟨0, 0, 0, 0, 8⟩ obj) = some (printed, flag) ∧
      printed.row.map UtilJson.Field.text = ["node", "7", "0.000000", "0.000000", "0.000000",
        "0.000000", "0"].map String.toList ∧
      ¬ RowAgrees [⟨0, 0, 50⟩] 1 printed := by
  refine ⟨_, _, _, rfl, rfl, rfl, ?_, fun h => ?_⟩
  · decide
  · exact absurd h.values (by decide)

end Variorum
