/-
Variorum/PowerJsonSpec.lean

What a platform leaves in the node object.

The keys come first: within the first ten thousand sockets no key is cut off by
a buffer of twelve, and no two sockets share one; `Keyed` says so of one socket.
A CPU platform leaves a `CpuOutput`, whatever was there before: the object of
each keyed socket is new, and what is under a `Foreign` key is kept.  A GPU platform
leaves a `GpuOutput`: it keeps what it finds in a socket and in the node power, and
adds to it.
-/
import Mathlib.Algebra.BigOperators.Group.List.Lemmas
import Variorum.PowerJson

namespace Variorum

open CString

namespace PowerJson

open Json (Object)

/-! ### The keys -/

theorem socketKey_injective : Function.Injective socketKey := fun _ _ h =>
  decimal_injective (List.append_cancel_left h)

theorem gpuKey_injective : Function.Injective gpuKey := fun _ _ h =>
  decimalInt_injective (List.append_cancel_left h)

theorem length_socketKey (i : Nat) : (socketKey i).length = 7 + (decimal i).length :=
  List.length_append

/-- The keys of sockets and no others begin with an `s`. -/
theorem head_socketKey (i : Nat) : (socketKey i).head? = some 's' := rfl

theorem head_snprintf_socketKey (size i : Nat) :
    (snprintf (size + 2) (socketKey i)).head? = some 's' := rfl

theorem snprintf_socketKey {i w : Nat} (h : i < 10 ^ w) (hw : 0 < w) :
    snprintf (w + 8) (socketKey i) = socketKey i := by
  refine snprintf_of_lt ?_
  have hlen := (decimal_length_le_iff hw).mpr h
  rw [length_socketKey]
  omega

/-- The key of a socket fits a buffer of twelve, and no other socket's is cut off to
the same. -/
structure Keyed (s i : Nat) : Prop where
  fits : snprintf 12 (socketKey i) = socketKey i
  unique : ∀ j < s, snprintf 12 (socketKey j) = socketKey i → j = i

/-- Ten thousand sockets are keyed. -/
theorem keyed_of_le {s i : Nat} (hs : s ≤ 10000) (hi : i < s) : Keyed s i where
  fits := snprintf_socketKey (w := 4) (by omega) (by decide)
  unique := by
    intro j hj h
    rw [snprintf_socketKey (w := 4) (by omega) (by decide)] at h
    exact socketKey_injective h

/-- The first thousand sockets are keyed, however many there are. -/
theorem keyed_of_lt {s i : Nat} (hi : i < 1000) : Keyed s i where
  fits := snprintf_socketKey (w := 4) (by omega) (by decide)
  unique := by
    intro j _ h
    by_cases hj : j < 10 ^ 4
    · rw [snprintf_socketKey hj (by decide)] at h
      exact socketKey_injective h
    · -- the key of `j` is cut off at eleven characters, that of `i` has ten at most
      exfalso
      have hi' := (decimal_length_le_iff (w := 3) (by decide)).mpr (show i < 10 ^ 3 by omega)
      have hj' : ¬ (decimal j).length ≤ 4 := fun hle =>
        hj ((decimal_length_le_iff (by decide)).mp hle)
      have hlen := congrArg List.length h
      rw [snprintf, List.length_take, length_socketKey, length_socketKey] at hlen
      omega

/-- A key that a buffer of twelve cannot hold. -/
theorem length_socketKey_of_le {i : Nat} (h : 10000 ≤ i) : 12 ≤ (socketKey i).length := by
  have hlen : ¬ (decimal i).length ≤ 4 := fun hle =>
    Nat.not_lt.mpr h ((decimal_length_le_iff (by decide)).mp hle)
  rw [length_socketKey]
  omega

theorem snprintf_gpuKey {d : Int} (hlow : -2 ^ 31 ≤ d) (hhigh : d < 2 ^ 31) :
    snprintf 24 (gpuKey d) = gpuKey d := by
  refine snprintf_of_lt ?_
  have hlen : (decimalInt d).length ≤ 11 := by
    cases d with
    | ofNat n =>
        have h := length_decimal_le (Int.ofNat_lt.mp hhigh)
        exact h.trans (by decide)
    | negSucc n =>
        have h := (decimal_length_le_iff (n := n + 1) (w := 10) (by decide)).mpr (by omega)
        exact Nat.succ_le_succ h
  have happ : (gpuKey d).length = 4 + (decimalInt d).length := List.length_append
  omega

theorem get_start {k : List Char} (hk : k.head? ≠ some 't') (timestamp : Int) :
    Fields.get k (start timestamp) = none := by
  have hne : "timestamp".toList ≠ k := fun e => hk (e ▸ rfl)
  exact if_neg hne

/-! ### Loops over the sockets -/

section Loops

variable {n : Nat} {obj obj' : Object} {body : Nat → Object → Option Object}

/-- What every turn keeps holds behind the loop. -/
theorem forSockets_inv (P : Nat → Object → Prop) (h0 : P 0 obj)
    (hstep : ∀ k o o', k < n → P k o → body k o = some o' → P (k + 1) o')
    (h : forSockets body n obj = some obj') : P n obj' := by
  induction n generalizing obj' with
  | zero =>
      obtain rfl := Option.some.inj h
      exact h0
  | succ n ih =>
      obtain ⟨o, ho, hbody⟩ := Option.bind_eq_some_iff.mp h
      have hn := ih (fun k o o' hk => hstep k o o' (Nat.lt_succ_of_lt hk)) ho
      exact hstep n o obj' (Nat.lt_succ_self n) hn hbody

/-- A loop none of whose turns fails comes to its end. -/
theorem forSockets_isSome (h : ∀ k < n, ∀ o, (body k o).isSome) :
    (forSockets body n obj).isSome := by
  induction n with
  | zero => rfl
  | succ n ih =>
      obtain ⟨o, ho⟩ := Option.isSome_iff_exists.mp (ih fun k hk => h k (Nat.lt_succ_of_lt hk))
      rw [forSockets, ho]
      exact h n (Nat.lt_succ_self n) o

/-- A loop with a turn that always fails does not. -/
theorem forSockets_eq_none {k : Nat} (hk : k < n) (h : ∀ o, body k o = none) :
    forSockets body n obj = none := by
  induction n with
  | zero => exact absurd hk (Nat.not_lt_zero k)
  | succ n ih =>
      rw [forSockets]
      by_cases heq : k = n
      · subst heq
        cases forSockets body k obj with
        | none => rfl
        | some o => exact h o
      · rw [ih (by omega)]
        rfl

/-- **A loop comes to its end** exactly when each of its turns may. -/
theorem forSockets_isSome_iff {P : Nat → Prop} (h : ∀ k < n, ∀ o, (body k o).isSome ↔ P k) :
    (forSockets body n obj).isSome ↔ ∀ k < n, P k := by
  constructor
  · intro hsome k hk
    by_contra hP
    have hnone : ∀ o, body k o = none := fun o =>
      Option.not_isSome_iff_eq_none.mp fun ho => hP ((h k hk o).mp ho)
    rw [forSockets_eq_none hk hnone] at hsome
    cases hsome
  · exact fun hP => forSockets_isSome fun k hk o => (h k hk o).mpr (hP k hk)

/-- What always has a result does not matter. -/
theorem isSome_bind_iff {α β : Type*} {x : Option α} {f : α → Option β}
    (hf : ∀ a, (f a).isSome) : (x.bind f).isSome ↔ x.isSome := by
  cases x with
  | none => exact Iff.rfl
  | some a => exact iff_of_true (hf a) rfl

/-- The fields of a list of values. -/
def fieldsOf (values : List (List Char × Rat)) : Object :=
  values.map fun kv => (kv.1, .real kv.2)

/-- A new socket object with values under keys that differ. -/
theorem newSocket_eq {key : List Char} {values : List (List Char × Rat)}
    (hnodup : (values.map Prod.fst).Nodup) :
    newSocket key values obj = Fields.set key (.object (fieldsOf values)) obj := by
  have hfold : ∀ l : Object, values.foldl
      (fun obj kv => Fields.modify key (Json.set kv.1 (.real kv.2)) obj)
        (Fields.set key (.object l) obj)
      = Fields.set key (.object (Fields.setAll l (fieldsOf values))) obj := by
    clear hnodup
    induction values with
    | nil => exact fun l => rfl
    | cons kv values ih =>
        intro l
        rw [List.foldl_cons, Fields.modify_set_self]
        exact ih _
  rw [newSocket, hfold, Fields.setAll_nil]
  rw [fieldsOf, List.map_map]
  exact hnodup

/-- The loop of a CPU platform sets one object a socket. -/
theorem forSockets_newSocket {key : Nat → List Char} {values : Nat → List (List Char × Rat)}
    (hnodup : ∀ i, ((values i).map Prod.fst).Nodup)
    (hbody : ∀ i o o', body i o = some o' → o' = newSocket (key i) (values i) o)
    (h : forSockets body n obj = some obj') :
    obj' = Fields.setAll obj
      ((List.range n).map fun i => (key i, .object (fieldsOf (values i)))) := by
  refine forSockets_inv (fun k o => o = Fields.setAll obj
    ((List.range k).map fun i => (key i, .object (fieldsOf (values i))))) rfl ?_ h
  intro k o o' _ ho hk
  rw [hbody k o o' hk, newSocket_eq (hnodup k), ho, List.range_succ, List.map_append,
    Fields.setAll_append]
  rfl

end Loops

/-! ### CPU platforms -/

/-- A key a platform has nothing to do with: it is no socket's and none of the two keys
of the node object. -/
structure Foreign (k : List Char) : Prop where
  head : k.head? ≠ some 's'
  node : powerNodeWatts ≠ k
  gpus : numGpusPerSocket ≠ k

theorem foreign_timestamp : Foreign "timestamp".toList :=
  ⟨by decide, by decide, by decide⟩

/-- What a CPU platform leaves: the new objects of its sockets, a node power, a number
of GPUs, and what was there under keys its buffer cannot hold and under foreign ones. -/
structure CpuOutput (s : Nat) (fields : Nat → Object) (watts : Rat) (gpus : Option Json)
    (obj out : Object) : Prop where
  socket : ∀ i < s, Keyed s i → Fields.get (socketKey i) out = some (.object (fields i))
  node : Fields.get powerNodeWatts out = some (.real watts)
  gpus : Fields.get numGpusPerSocket out = gpus
  long : ∀ k : List Char, 12 ≤ k.length → k.head? = some 's' →
    Fields.get k out = Fields.get k obj
  other : ∀ k, Foreign k → Fields.get k out = Fields.get k obj

section Cpu

variable {s : Nat} {obj out : Object} {fields : Nat → Object} {k : List Char}

/-- The keys of the node object and those of sockets do not meet. -/
theorem ne_socketKey (hk : k.head? ≠ some 's') (i : Nat) : k ≠ socketKey i :=
  fun h => hk (h ▸ head_socketKey i)

theorem ne_snprintf_socketKey (hk : k.head? ≠ some 's') {w : Nat} (i : Nat) :
    k ≠ snprintf (w + 2) (socketKey i) :=
  fun h => hk (h ▸ head_snprintf_socketKey w i)

theorem powerNodeWatts_ne (i : Nat) : powerNodeWatts ≠ socketKey i :=
  ne_socketKey (by decide) i

theorem numGpusPerSocket_ne (i : Nat) : numGpusPerSocket ≠ socketKey i :=
  ne_socketKey (by decide) i

/-- A loop that sets one object a socket. -/
def socketLoop (s : Nat) (fields : Nat → Object) (obj : Object) : Object :=
  Fields.setAll obj
    ((List.range s).map fun i => (snprintf 12 (socketKey i), .object (fields i)))

theorem get_socketLoop {i : Nat} (hi : i < s) (hkey : Keyed s i) :
    Fields.get (socketKey i) (socketLoop s fields obj) = some (.object (fields i)) := by
  apply Fields.get_setAll
  · rw [List.map_map]
    exact List.mem_map.mpr ⟨i, List.mem_range.mpr hi, hkey.fits⟩
  · intro kv hkv hk
    obtain ⟨j, hj, rfl⟩ := List.mem_map.mp hkv
    rw [hkey.unique j (List.mem_range.mp hj) hk]

theorem get_socketLoop_of_ne (h : ∀ i < s, snprintf 12 (socketKey i) ≠ k) :
    Fields.get k (socketLoop s fields obj) = Fields.get k obj := by
  apply Fields.get_setAll_of_not_mem
  rw [List.map_map, List.mem_map]
  rintro ⟨i, hi, hk⟩
  exact h i (List.mem_range.mp hi) hk

theorem get_socketLoop_of_head (hk : k.head? ≠ some 's') :
    Fields.get k (socketLoop s fields obj) = Fields.get k obj :=
  get_socketLoop_of_ne fun i _ => (ne_snprintf_socketKey hk i).symm

theorem get_socketLoop_of_long (hk : 12 ≤ k.length) :
    Fields.get k (socketLoop s fields obj) = Fields.get k obj :=
  get_socketLoop_of_ne fun i _ h =>
    Nat.not_lt.mpr hk (h ▸ length_snprintf_lt (by decide))

/-- A loop with the node power set behind it. -/
theorem cpuOutput_of_loop (watts : Rat)
    (h : out = Fields.set powerNodeWatts (.real watts) (socketLoop s fields obj)) :
    CpuOutput s fields watts (Fields.get numGpusPerSocket obj) obj out := by
  subst h
  constructor
  · intro i hi hkey
    rw [Fields.get_set_of_ne (powerNodeWatts_ne i)]
    exact get_socketLoop hi hkey
  · exact Fields.get_set_self
  · rw [Fields.get_set_of_ne (by decide)]
    exact get_socketLoop_of_head (by decide)
  · intro k hlong hhead
    rw [Fields.get_set_of_ne (fun e => absurd (e ▸ hhead) (by decide))]
    exact get_socketLoop_of_long hlong
  · intro k hk
    rw [Fields.get_set_of_ne hk.node]
    exact get_socketLoop_of_head hk.head

/-- The two values of a socket have different keys. -/
theorem nodup_cpu_mem (x y : Rat) :
    ([(powerCpuWatts, x), (powerMemWatts, y)].map Prod.fst).Nodup := by
  show [powerCpuWatts, powerMemWatts].Nodup
  decide

/-- **Intel.**  The socket has the two powers, and the node their sum over all sockets. -/
theorem Intel.output {pkgWatts dramWatts : Nat → Rat}
    (h : Intel.jsonGetPowerData pkgWatts dramWatts s obj = some out) :
    CpuOutput s (fun i => fieldsOf [(powerCpuWatts, pkgWatts i), (powerMemWatts, dramWatts i)])
      ((List.range s).map fun i => pkgWatts i + dramWatts i).sum
      (Fields.get numGpusPerSocket obj) obj out := by
  obtain ⟨o, ho, h⟩ := Option.bind_eq_some_iff.mp h
  apply cpuOutput_of_loop
  rw [← Option.some.inj h, socketLoop]
  congr 1
  exact forSockets_newSocket (fun i => nodup_cpu_mem _ _)
    (fun i o o' h => (Option.some.inj h).symm) ho

theorem Intel.isSome (pkgWatts dramWatts : Nat → Rat) (s : Nat) (obj : Object) :
    (Intel.jsonGetPowerData pkgWatts dramWatts s obj).isSome :=
  (isSome_bind_iff fun _ => rfl).mpr (forSockets_isSome fun _ _ _ => rfl)

/-- **AMD.**  The socket has the power of the CPU, and the node the sum over all
sockets. -/
theorem Amd.output {esmi : Nat → Int × BitVec 32}
    (h : Amd.epycGetPowerJson esmi s obj = some out) :
    CpuOutput s
      (fun i => fieldsOf [(powerCpuWatts, ((esmi i).2.toNat : Rat) / 1000), (powerMemWatts, -1)])
      ((List.range s).map fun i => ((esmi i).2.toNat : Rat) / 1000).sum
      (Fields.get numGpusPerSocket obj) obj out := by
  obtain ⟨o, ho, h⟩ := Option.bind_eq_some_iff.mp h
  apply cpuOutput_of_loop
  rw [← Option.some.inj h, socketLoop]
  congr 1
  refine forSockets_newSocket (fun i => nodup_cpu_mem _ _) (fun i o o' h => ?_) ho
  by_cases hret : (esmi i).1 ≠ 0
  · rw [if_pos hret] at h
    cases h
  · rw [if_neg hret] at h
    exact (Option.some.inj h).symm

/-- There is an object when no call of the library fails. -/
theorem Amd.isSome_iff {esmi : Nat → Int × BitVec 32} :
    (Amd.epycGetPowerJson esmi s obj).isSome ↔ ∀ i < s, (esmi i).1 = 0 := by
  refine (isSome_bind_iff fun _ => rfl).trans (forSockets_isSome_iff fun i _ o => ?_)
  by_cases hret : (esmi i).1 = 0
  · rw [if_neg (not_not_intro hret)]
    exact iff_of_true rfl hret
  · rw [if_pos hret]
    exact iff_of_false nofun hret

/-- What the turn of chip `i` sets in the object of the node. -/
def ibmTurn (sensors : Nat → List OccSensor) (i : Nat) : Object :=
  (if i = 0 then [(powerNodeWatts, .real (Ibm.sensorWatts "PWRSYS".toList (sensors 0)))] else [])
    ++ [(socketKey i, .object (fieldsOf
      [(powerCpuWatts, Ibm.sensorWatts "PWRPROC".toList (sensors i)),
        (powerMemWatts, Ibm.sensorWatts "PWRMEM".toList (sensors i))]))]

theorem mem_ibmTurns {sensors : Nat → List OccSensor} {i : Nat} {kv : List Char × Json}
    (hi : i < s) (hkv : kv ∈ ibmTurn sensors i) (hk : kv.1 = k) :
    k ∈ ((List.range s).flatMap (ibmTurn sensors)).map Prod.fst :=
  List.mem_map.mpr ⟨kv, List.mem_flatMap.mpr ⟨i, List.mem_range.mpr hi, hkv⟩, hk⟩

theorem sprintf_socketKey_iff {i : Nat} {text : List Char} :
    sprintf 12 (socketKey i) = some text ↔ i < 10000 ∧ text = socketKey i := by
  have hlen := decimal_length_le_iff (n := i) (w := 4) (by decide)
  have hfits : (socketKey i).length < 12 ↔ i < 10000 := by
    rw [length_socketKey]
    omega
  unfold sprintf
  by_cases h : i < 10000
  · rw [if_pos (hfits.mpr h), Option.some.injEq, and_iff_right h]
    exact eq_comm
  · rw [if_neg (hfits.not.mpr h)]
    exact iff_of_false nofun fun h' => h h'.1

theorem Ibm.turn_eq {sensors : Nat → List OccSensor} {i : Nat}
    (h : Ibm.jsonGetPowerSensors sensors i obj = some out) :
    i < 10000 ∧ out = Fields.setAll obj (ibmTurn sensors i) := by
  obtain ⟨text, htext, h⟩ := Option.bind_eq_some_iff.mp h
  obtain ⟨hi, rfl⟩ := sprintf_socketKey_iff.mp htext
  refine ⟨hi, ?_⟩
  dsimp only at h
  rw [newSocket_eq (nodup_cpu_mem _ _)] at h
  rw [← Option.some.inj h, ibmTurn, Fields.setAll_append]
  by_cases hzero : i = 0
  · subst hzero
    rfl
  · rw [if_neg hzero, if_neg hzero]
    rfl

/-- **IBM.**  The node power is stored in the turn of chip 0. -/
theorem Ibm.output {sensors : Nat → List OccSensor} (hs : 0 < s)
    (h : Ibm.p9GetPowerJson sensors s obj = some out) :
    CpuOutput s
      (fun i => fieldsOf [(powerCpuWatts, Ibm.sensorWatts "PWRPROC".toList (sensors i)),
        (powerMemWatts, Ibm.sensorWatts "PWRMEM".toList (sensors i))])
      (Ibm.sensorWatts "PWRSYS".toList (sensors 0))
      (Fields.get numGpusPerSocket obj) obj out := by
  have hloop : (∀ i < s, i < 10000) ∧
      out = Fields.setAll obj ((List.range s).flatMap (ibmTurn sensors)) := by
    refine forSockets_inv (fun k o => (∀ i < k, i < 10000) ∧
      o = Fields.setAll obj ((List.range k).flatMap (ibmTurn sensors))) ⟨nofun, rfl⟩ ?_ h
    rintro k o o' - ⟨hbefore, rfl⟩ hk
    obtain ⟨hfits, rfl⟩ := Ibm.turn_eq hk
    refine ⟨fun i hi => ?_, ?_⟩
    · rcases Nat.lt_succ_iff_lt_or_eq.mp hi with hi | rfl
      · exact hbefore i hi
      · exact hfits
    · rw [List.range_succ, List.flatMap_append, Fields.setAll_append, List.flatMap_singleton]
  obtain ⟨hfits, rfl⟩ := hloop
  -- an entry is the node power or the object of a socket
  have hentry : ∀ kv ∈ (List.range s).flatMap (ibmTurn sensors),
      kv = (powerNodeWatts, .real (Ibm.sensorWatts "PWRSYS".toList (sensors 0))) ∨
      ∃ i < s, kv = (socketKey i, .object (fieldsOf
        [(powerCpuWatts, Ibm.sensorWatts "PWRPROC".toList (sensors i)),
          (powerMemWatts, Ibm.sensorWatts "PWRMEM".toList (sensors i))])) := by
    intro kv hkv
    obtain ⟨i, hi, hkv⟩ := List.mem_flatMap.mp hkv
    rcases List.mem_append.mp hkv with hkv | hkv
    · by_cases hzero : i = 0
      · rw [if_pos hzero] at hkv
        exact .inl (List.mem_singleton.mp hkv)
      · rw [if_neg hzero] at hkv
        cases hkv
    · exact .inr ⟨i, List.mem_range.mp hi, List.mem_singleton.mp hkv⟩
  have hother : ∀ k : List Char, k ≠ powerNodeWatts → (∀ i < s, k ≠ socketKey i) →
      Fields.get k (Fields.setAll obj ((List.range s).flatMap (ibmTurn sensors)))
        = Fields.get k obj := by
    intro k hnode hsocket
    apply Fields.get_setAll_of_not_mem
    rintro hk
    obtain ⟨kv, hkv, rfl⟩ := List.mem_map.mp hk
    rcases hentry kv hkv with rfl | ⟨i, hi, rfl⟩
    · exact hnode rfl
    · exact hsocket i hi rfl
  constructor
  · intro i hi _
    apply Fields.get_setAll
    · exact mem_ibmTurns hi (List.mem_append_right _ (List.mem_singleton_self _)) rfl
    · intro kv hkv hk
      rcases hentry kv hkv with rfl | ⟨j, -, rfl⟩
      · exact absurd hk (powerNodeWatts_ne i)
      · rw [socketKey_injective hk]
  · apply Fields.get_setAll
    · exact mem_ibmTurns hs (List.mem_append_left _ (List.mem_singleton_self _)) rfl
    · intro kv hkv hk
      rcases hentry kv hkv with rfl | ⟨j, -, rfl⟩
      · rfl
      · exact absurd hk.symm (powerNodeWatts_ne j)
  · exact hother _ (by decide) fun i _ => numGpusPerSocket_ne i
  · intro k hlong hhead
    refine hother k (fun e => absurd (e ▸ hhead) (by decide)) fun i hi e => ?_
    have hlen := (decimal_length_le_iff (n := i) (w := 4) (by decide)).mpr (hfits i hi)
    rw [e, length_socketKey] at hlong
    omega
  · exact fun k hk => hother k hk.node.symm fun i _ => ne_socketKey hk.head i

/-- There is an object when the keys fit the buffer that `sprintf` writes to. -/
theorem Ibm.isSome_iff {sensors : Nat → List OccSensor} :
    (Ibm.p9GetPowerJson sensors s obj).isSome ↔ s ≤ 10000 := by
  have hturn : ∀ i < s, ∀ o, (Ibm.jsonGetPowerSensors sensors i o).isSome ↔ i < 10000 := by
    intro i _ o
    constructor
    · intro h
      obtain ⟨o', ho'⟩ := Option.isSome_iff_exists.mp h
      exact (Ibm.turn_eq ho').1
    · intro hi
      rw [Ibm.jsonGetPowerSensors, sprintf_socketKey_iff.mpr ⟨hi, rfl⟩]
      rfl
  rw [Ibm.p9GetPowerJson, forSockets_isSome_iff hturn]
  constructor
  · intro h
    by_contra hs
    exact absurd (h 10000 (Nat.not_le.mp hs)) (by decide)
  · exact fun hs i hi => hi.trans_le hs

/-- What a Juno r2 stores for a socket. -/
def junoFields (hwmon : JunoHwmon) (i : Nat) : List (List Char × Rat) :=
  if i = 0 then [(powerCpuWatts, microwatts hwmon.big), (powerGpuWatts, microwatts hwmon.gpu)]
  else if i = 1 then [(powerGpuWatts, -1), (powerCpuWatts, microwatts hwmon.little)]
  else [(powerGpuWatts, -1)]

theorem Juno.loop_eq {o : Object} (h : forSockets (fun i obj =>
      some (newSocket (snprintf 12 (socketKey i)) (if i ≠ 0 then [(powerGpuWatts, -1)] else [])
        obj)) s obj = some o) :
    o = socketLoop s (fun i => fieldsOf (if i ≠ 0 then [(powerGpuWatts, -1)] else [])) obj := by
  refine forSockets_newSocket (fun i => ?_) (fun i o o' h => (Option.some.inj h).symm) h
  by_cases hi : i ≠ 0
  · rw [if_pos hi]
    exact List.nodup_singleton _
  · rw [if_neg hi]
    exact List.nodup_nil

/-- **ARM Juno r2.**  The first two sockets have what the board measures, whatever their
number. -/
theorem Juno.output {hwmon : JunoHwmon} (h : Arm.junoR2JsonGetPowerData hwmon s obj = some out) :
    CpuOutput s (fun i => fieldsOf (junoFields hwmon i)) (microwatts hwmon.sys)
      (some (.integer (-1))) obj out := by
  obtain ⟨o, ho, h⟩ := Option.bind_eq_some_iff.mp h
  have hloop := Juno.loop_eq ho
  -- the board writes into the objects of two sockets, which have to be there
  by_cases hs : s < 2
  · rw [if_pos hs] at h
    cases h
  rw [if_neg hs] at h
  obtain rfl := Option.some.inj h
  subst hloop
  -- the writes behind the loop go under different keys, so each field is found as it was set
  have h01 : socketKey 0 ≠ socketKey 1 := fun e => absurd (socketKey_injective e) (by decide)
  constructor
  · intro i hi hkey
    by_cases h0 : i = 0
    · subst h0
      rw [Fields.get_modify_self, Fields.get_modify_of_ne h01.symm, Fields.get_modify_self,
        Fields.get_set_of_ne (numGpusPerSocket_ne _), Fields.get_set_of_ne (powerNodeWatts_ne _),
        get_socketLoop hi hkey]
      rfl
    · have h0i : socketKey 0 ≠ socketKey i := fun e => h0 (socketKey_injective e).symm
      rw [Fields.get_modify_of_ne h0i]
      by_cases h1 : i = 1
      · subst h1
        rw [Fields.get_modify_self, Fields.get_modify_of_ne h01,
          Fields.get_set_of_ne (numGpusPerSocket_ne _), Fields.get_set_of_ne (powerNodeWatts_ne _),
          get_socketLoop hi hkey]
        rfl
      · have h1i : socketKey 1 ≠ socketKey i := fun e => h1 (socketKey_injective e).symm
        rw [Fields.get_modify_of_ne h1i, Fields.get_modify_of_ne h0i,
          Fields.get_set_of_ne (numGpusPerSocket_ne _), Fields.get_set_of_ne (powerNodeWatts_ne _),
          get_socketLoop hi hkey, junoFields, if_neg h0, if_neg h1, if_pos h0]
  · rw [Fields.get_modify_of_ne (by decide), Fields.get_modify_of_ne (by decide),
      Fields.get_modify_of_ne (by decide), Fields.get_set_of_ne (by decide), Fields.get_set_self]
  · rw [Fields.get_modify_of_ne (by decide), Fields.get_modify_of_ne (by decide),
      Fields.get_modify_of_ne (by decide), Fields.get_set_self]
  · intro k hlong hhead
    have hk0 : socketKey 0 ≠ k := fun e => absurd (e ▸ hlong) (by decide)
    have hk1 : socketKey 1 ≠ k := fun e => absurd (e ▸ hlong) (by decide)
    rw [Fields.get_modify_of_ne hk0, Fields.get_modify_of_ne hk1, Fields.get_modify_of_ne hk0,
      Fields.get_set_of_ne (fun e => absurd (e ▸ hhead) (by decide)),
      Fields.get_set_of_ne (fun e => absurd (e ▸ hhead) (by decide))]
    exact get_socketLoop_of_long hlong
  · intro k hk
    have hsocket : ∀ i, socketKey i ≠ k := fun i => (ne_socketKey hk.head i).symm
    rw [Fields.get_modify_of_ne (hsocket 0), Fields.get_modify_of_ne (hsocket 1),
      Fields.get_modify_of_ne (hsocket 0), Fields.get_set_of_ne hk.gpus,
      Fields.get_set_of_ne hk.node]
    exact get_socketLoop_of_head hk.head

/-- Nothing but an object under a key. -/
def OnlyObject (k : List Char) (obj : Object) : Prop :=
  ∀ j, Fields.get k obj = some j → ∃ l, j = .object l

theorem OnlyObject.modify (h : OnlyObject k obj) (key a : List Char) (v : Json) :
    OnlyObject k (Fields.modify key (Json.set a v) obj) := by
  intro j hj
  by_cases hk : key = k
  · rw [hk, Fields.get_modify_self] at hj
    obtain ⟨j', hj', rfl⟩ := Option.map_eq_some_iff.mp hj
    obtain ⟨l, rfl⟩ := h j' hj'
    exact ⟨_, rfl⟩
  · rw [Fields.get_modify_of_ne hk] at hj
    exact h j hj

theorem OnlyObject.set (h : OnlyObject k obj) {key : List Char} (hk : key ≠ k) (v : Json) :
    OnlyObject k (Fields.set key v obj) := by
  intro j hj
  rw [Fields.get_set_of_ne hk] at hj
  exact h j hj

/-- Under the key of a socket there is nothing but an object, if nothing was before. -/
theorem Juno.onlyObject {hwmon : JunoHwmon} {i : Nat}
    (h : Arm.junoR2JsonGetPowerData hwmon s obj = some out)
    (hobj : Fields.get (socketKey i) obj = none) : OnlyObject (socketKey i) out := by
  obtain ⟨o, ho, h⟩ := Option.bind_eq_some_iff.mp h
  have hloop : OnlyObject (socketKey i) o := by
    intro j hj
    rw [Juno.loop_eq ho] at hj
    rcases Fields.get_setAll_cases (socketKey i) obj _ with hget | ⟨kv, hkv, -, hget⟩
    · rw [socketLoop, hget, hobj] at hj
      cases hj
    · rw [socketLoop, hget] at hj
      obtain rfl := Option.some.inj hj
      obtain ⟨c, -, rfl⟩ := List.mem_map.mp hkv
      exact ⟨_, rfl⟩
  by_cases hs : s < 2
  · rw [if_pos hs] at h
    cases h
  rw [if_neg hs] at h
  obtain rfl := Option.some.inj h
  apply OnlyObject.modify
  apply OnlyObject.modify
  apply OnlyObject.modify
  exact (hloop.set (powerNodeWatts_ne i) _).set (numGpusPerSocket_ne i) _

theorem Juno.isSome_iff {hwmon : JunoHwmon} :
    (Arm.junoR2JsonGetPowerData hwmon s obj).isSome ↔ 2 ≤ s := by
  constructor
  · intro h
    by_contra hs
    obtain ⟨out, hout⟩ := Option.isSome_iff_exists.mp h
    obtain ⟨o, -, h⟩ := Option.bind_eq_some_iff.mp hout
    rw [if_pos (by omega)] at h
    cases h
  · intro hs
    refine (isSome_bind_iff fun o => ?_).mpr (forSockets_isSome fun _ _ _ => rfl)
    rw [if_neg (by omega)]
    rfl

end Cpu

/-- **ARM Neoverse N1** makes no object under the key of a socket. -/
theorem Neoverse.get_socketKey {hwmon : NeoverseHwmon} {s i : Nat} {obj out : Object}
    (h : Arm.neoverseN1JsonGetPowerData hwmon s obj = some out)
    (hobj : Fields.get (socketKey i) obj = none) : Fields.get (socketKey i) out = none := by
  obtain ⟨o, ho, h⟩ := Option.bind_eq_some_iff.mp h
  have hset : o = Fields.setAll obj ((List.range s).map fun i =>
      (snprintf 12 ("Socket_".toList ++ decimal i), .object (fieldsOf [(powerMemWatts, -1)]))) :=
    forSockets_newSocket (fun i => List.nodup_singleton powerMemWatts)
      (fun i o o' h => (Option.some.inj h).symm) ho
  have hloop : Fields.get (socketKey i) o = none := by
    rw [hset, Fields.get_setAll_of_not_mem, hobj]
    rw [List.map_map, List.mem_map]
    rintro ⟨j, -, hj⟩
    have hhead : some 'S' = some 's' := congrArg List.head? hj
    exact absurd hhead (by decide)
  obtain rfl := Option.some.inj h
  by_cases h0 : socketKey 0 = socketKey i
  · rw [h0, Fields.get_modify_self, Fields.get_modify_self, hloop]
    rfl
  · rw [Fields.get_modify_of_ne h0, Fields.get_modify_of_ne h0, hloop]

/-! ### GPU platforms -/

section Gpu

variable {node : GpuNode} {watts : Int → Rat} {devs : List Int} {key k : List Char}
  {obj out : Object}

/-- The entries of a `power_gpu_watts`. -/
def gpuFields (watts : Int → Rat) (devs : List Int) : Object :=
  devs.map fun d => (gpuKey d, .real (watts d))

/-- An entry of a device of the block. -/
theorem get_gpuFields {watts : Int → Rat} {devs : List Int} {d : Int} (hd : d ∈ devs) :
    Fields.get (gpuKey d) (gpuFields watts devs) = some (.real (watts d)) := by
  induction devs with
  | nil => cases hd
  | cons e devs ih =>
      show (if gpuKey e = gpuKey d then some (Json.real (watts e)) else _) = _
      by_cases hed : e = d
      · rw [if_pos (congrArg gpuKey hed), hed]
      · rw [if_neg fun h => hed (gpuKey_injective h)]
        exact ih ((List.mem_cons.mp hd).resolve_left fun h => hed h.symm)

/-- What a GPU platform leaves: what it finds in a socket, with the entries of its block;
a node power that is there with the powers of all blocks added. -/
structure GpuOutput (node : GpuNode) (watts : Int → Rat) (keyed : Nat → Prop) (gpus : Int)
    (obj out : Object) : Prop where
  socket : ∀ i < node.sockets, keyed i → ∃ devs, node.block i = some devs ∧
    Fields.get (socketKey i) out
      = some (Json.set powerGpuWatts (.object (gpuFields watts devs))
          ((Fields.get (socketKey i) obj).getD (.object [])))
  node : ∃ devs, node.blocks = some devs ∧ ∀ w, Fields.get powerNodeWatts obj = some (.real w) →
    Fields.get powerNodeWatts out = some (.real (w + (devs.map watts).sum))
  noNode : Fields.get powerNodeWatts obj = none → Fields.get powerNodeWatts out = none
  gpus : Fields.get numGpusPerSocket out = some (.integer gpus)
  other : ∀ k, Foreign k → Fields.get k out = Fields.get k obj

/-- The entries as they are set: no key is cut off and no two are the same. -/
theorem gpuFields_eq (hdevs : (∀ d ∈ devs, -2 ^ 31 ≤ d ∧ d < 2 ^ 31) ∧ devs.Nodup) :
    Fields.setAll [] (devs.map fun d => (snprintf 24 (gpuKey d), Json.real (watts d)))
      = gpuFields watts devs := by
  have hkeys : (devs.map fun d => (snprintf 24 (gpuKey d), Json.real (watts d)))
      = gpuFields watts devs :=
    List.map_congr_left fun d hd => by
      rw [snprintf_gpuKey (hdevs.1 d hd).1 (hdevs.1 d hd).2]
  rw [hkeys]
  apply Fields.setAll_nil
  rw [gpuFields, List.map_map]
  exact hdevs.2.map gpuKey_injective

theorem get_setGpuObject_self (hdevs : (∀ d ∈ devs, -2 ^ 31 ≤ d ∧ d < 2 ^ 31) ∧ devs.Nodup) :
    Fields.get key (setGpuObject key devs watts obj)
      = some (Json.set powerGpuWatts (.object (gpuFields watts devs))
          ((Fields.get key obj).getD (.object []))) := by
  unfold setGpuObject
  simp only [gpuFields_eq hdevs, Fields.get_modify_self]
  cases hget : Fields.get key obj with
  | none => simp only [Option.isNone_none, if_true, Fields.get_set_self, Option.map_some,
      Option.getD_none]
  | some j => simp only [Option.isNone_some, Bool.false_eq_true, if_false, hget, Option.map_some,
      Option.getD_some]

theorem get_setGpuObject_of_ne (h : key ≠ k) :
    Fields.get k (setGpuObject key devs watts obj) = Fields.get k obj := by
  unfold setGpuObject
  simp only [Fields.get_modify_of_ne h]
  cases (Fields.get key obj).isNone with
  | true => exact Fields.get_set_of_ne h
  | false => rfl

theorem get_addToNodeWatts {w total : Rat} (h : Fields.get powerNodeWatts obj = some (.real w)) :
    Fields.get powerNodeWatts (addToNodeWatts total obj) = some (.real (w + total)) := by
  simp only [addToNodeWatts, h, Option.isNone_some, Bool.false_eq_true, if_false,
    Fields.get_set_self, Json.realValue]

theorem addToNodeWatts_of_none {total : Rat} (h : Fields.get powerNodeWatts obj = none) :
    addToNodeWatts total obj = obj := by
  simp only [addToNodeWatts, h, Option.isNone_none, if_true]

theorem get_addToNodeWatts_of_ne {total : Rat} (h : powerNodeWatts ≠ k) :
    Fields.get k (addToNodeWatts total obj) = Fields.get k obj := by
  unfold addToNodeWatts
  cases (Fields.get powerNodeWatts obj).isNone with
  | true => rfl
  | false => exact Fields.get_set_of_ne h

/-- What the turn for socket `c` does to the objects of the sockets. -/
def GpuTurn (node : GpuNode) (watts : Int → Rat) (key : List Char) (c : Nat) (o o' : Object) :
    Prop :=
  ∃ devs, node.block c = some devs ∧
    Fields.get key o' = some (Json.set powerGpuWatts (.object (gpuFields watts devs))
      ((Fields.get key o).getD (.object []))) ∧
    ∀ k : List Char, k.head? = some 's' → key ≠ k → Fields.get k o' = Fields.get k o

/-- The loop over the sockets comes to each keyed one once. -/
theorem gpuTurns {keys : Nat → List Char} {keyed : Nat → Prop} {n : Nat}
    {body : Nat → Object → Option Object}
    (hkeys : ∀ i, keyed i → keys i = socketKey i ∧ ∀ j < n, keys j = socketKey i → j = i)
    (hturn : ∀ c o o', c < n → body c o = some o' → GpuTurn node watts (keys c) c o o')
    (h : forSockets body n obj = some out) (i : Nat) (hi : i < n) (hkey : keyed i) :
    ∃ devs, node.block i = some devs ∧
      Fields.get (socketKey i) out = some (Json.set powerGpuWatts (.object (gpuFields watts devs))
        ((Fields.get (socketKey i) obj).getD (.object []))) := by
  obtain ⟨hfits, hunique⟩ := hkeys i hkey
  -- up to its turn the socket is as it was, and from then on as that turn left it
  have hloop : (n ≤ i → Fields.get (socketKey i) out = Fields.get (socketKey i) obj) ∧
      (i < n → ∃ devs, node.block i = some devs ∧
        Fields.get (socketKey i) out
          = some (Json.set powerGpuWatts (.object (gpuFields watts devs))
            ((Fields.get (socketKey i) obj).getD (.object [])))) := by
    refine forSockets_inv
      (fun c o => (c ≤ i → Fields.get (socketKey i) o = Fields.get (socketKey i) obj) ∧
        (i < c → ∃ devs, node.block i = some devs ∧
          Fields.get (socketKey i) o
            = some (Json.set powerGpuWatts (.object (gpuFields watts devs))
              ((Fields.get (socketKey i) obj).getD (.object []))))) ⟨fun _ => rfl, nofun⟩ ?_ h
    rintro c o o' hc ⟨hbefore, hafter⟩ hbody
    obtain ⟨devs, hdevs, hself, hother⟩ := hturn c o o' hc hbody
    by_cases hci : c = i
    · subst hci
      rw [hfits, hbefore le_rfl] at hself
      exact ⟨fun h => absurd h (by omega), fun _ => ⟨devs, hdevs, hself⟩⟩
    · have hne : keys c ≠ socketKey i := fun e => hci (hunique c hc e)
      rw [hother _ (head_socketKey i) hne]
      exact ⟨fun h => hbefore (by omega), fun h => hafter (by omega)⟩
  exact hloop.2 hi

/-- A turn that changes the object of the socket and perhaps the node power. -/
theorem gpuTurn_of_eq {c : Nat} {o o' : Object}
    (hdevs : node.block c = some devs) (hkey : key.head? = some 's')
    (ho' : (∃ g total, o' = addToNodeWatts total
        (setGpuObject key devs watts (Fields.set numGpusPerSocket g o))) ∨
      o' = setGpuObject key devs watts o) : GpuTurn node watts key c o o' := by
  have hints := GpuNode.block_ints hdevs
  have hnode : ∀ k : List Char, k.head? = some 's' → powerNodeWatts ≠ k ∧ numGpusPerSocket ≠ k :=
    fun k hk => ⟨fun e => absurd (e ▸ hk) (by decide), fun e => absurd (e ▸ hk) (by decide)⟩
  refine ⟨devs, hdevs, ?_⟩
  rcases ho' with ⟨g, total, rfl⟩ | rfl
  · constructor
    · rw [get_addToNodeWatts_of_ne (hnode key hkey).1, get_setGpuObject_self hints,
        Fields.get_set_of_ne (hnode key hkey).2]
    · intro k hk hne
      rw [get_addToNodeWatts_of_ne (hnode k hk).1, get_setGpuObject_of_ne hne,
        Fields.get_set_of_ne (hnode k hk).2]
  · exact ⟨get_setGpuObject_self hints, fun k _ hne => get_setGpuObject_of_ne hne⟩

theorem Nvidia.turn_eq {gpuPower : Int → BitVec 32} {c : Nat} {o o' : Object}
    (h : Nvidia.gpuGetPowerJson node gpuPower c o = some o') :
    ∃ devs, node.block c = some devs ∧
      o' = addToNodeWatts ((devs.map (Nvidia.watts gpuPower)).sum)
        (setGpuObject (snprintf 12 (socketKey c)) devs (Nvidia.watts gpuPower)
          (Fields.set numGpusPerSocket (.integer node.gpusPerSocket.toNat) o)) := by
  obtain ⟨devs, hdevs, h⟩ := Option.bind_eq_some_iff.mp h
  exact ⟨devs, hdevs, (Option.some.inj h).symm⟩

theorem Nvidia.turn {gpuPower : Int → BitVec 32} {c : Nat} {o o' : Object}
    (h : Nvidia.gpuGetPowerJson node gpuPower c o = some o') :
    GpuTurn node (Nvidia.watts gpuPower) (snprintf 12 (socketKey c)) c o o' := by
  obtain ⟨devs, hdevs, ho'⟩ := Nvidia.turn_eq h
  exact gpuTurn_of_eq hdevs (head_snprintf_socketKey 10 c) (.inl ⟨_, _, ho'⟩)

/-- A key of a socket that the buffer cannot hold is left as it is. -/
theorem Nvidia.long {gpuPower : Int → BitVec 32}
    (h : Nvidia.voltaGetPowerJson node gpuPower obj = some out) (hlong : 12 ≤ k.length)
    (hk : k.head? = some 's') : Fields.get k out = Fields.get k obj := by
  refine forSockets_inv (fun _ o => Fields.get k o = Fields.get k obj) rfl ?_ h
  rintro c o o' - ho hbody
  obtain ⟨devs, -, -, hother⟩ := Nvidia.turn hbody
  rw [hother k hk fun e => Nat.not_lt.mpr hlong (e ▸ length_snprintf_lt (by decide)), ho]

/-- **NVIDIA.**  The node power is changed after each block. -/
theorem Nvidia.output {gpuPower : Int → BitVec 32}
    (h : Nvidia.voltaGetPowerJson node gpuPower obj = some out) :
    GpuOutput node (Nvidia.watts gpuPower) (Keyed node.sockets) node.gpusPerSocket.toNat
      obj out := by
  -- the object of the GPUs has a key of its own, whatever is cut off the text of the socket
  have hhead : ∀ c, numGpusPerSocket ≠ snprintf 12 (socketKey c) ∧
      powerNodeWatts ≠ snprintf 12 (socketKey c) := fun c =>
    ⟨ne_snprintf_socketKey (by decide) c, ne_snprintf_socketKey (by decide) c⟩
  have hne : numGpusPerSocket ≠ powerNodeWatts := by decide
  constructor
  · exact gpuTurns (fun i hi => ⟨hi.fits, hi.unique⟩) (fun c o o' _ => Nvidia.turn) h
  · refine forSockets_inv (fun c o => ∃ devs, GpuNode.overSockets node.block c = some devs ∧
      ∀ w, Fields.get powerNodeWatts obj = some (.real w) →
        Fields.get powerNodeWatts o = some (.real (w + (devs.map (Nvidia.watts gpuPower)).sum)))
      ⟨[], rfl, fun w hw => by rw [hw, List.map_nil, List.sum_nil, add_zero]⟩ ?_ h
    -- the total after a turn has the devices of the turns before and its own
    rintro c o o' - ⟨before, hbefore, hnode⟩ hbody
    obtain ⟨devs, hdevs, rfl⟩ := Nvidia.turn_eq hbody
    refine ⟨before ++ devs, by rw [GpuNode.overSockets, hbefore, hdevs]; rfl, fun w hw => ?_⟩
    rw [get_addToNodeWatts (w := w + (before.map (Nvidia.watts gpuPower)).sum), List.map_append,
      List.sum_append, add_assoc]
    rw [get_setGpuObject_of_ne (hhead c).2.symm, Fields.get_set_of_ne hne, hnode w hw]
  · intro hnone
    refine forSockets_inv (fun _ o => Fields.get powerNodeWatts o = none) hnone ?_ h
    rintro c o o' - ho hbody
    obtain ⟨devs, hdevs, rfl⟩ := Nvidia.turn_eq hbody
    have hkeep : Fields.get powerNodeWatts (setGpuObject (snprintf 12 (socketKey c)) devs
        (Nvidia.watts gpuPower)
        (Fields.set numGpusPerSocket (.integer node.gpusPerSocket.toNat) o)) = none := by
      rw [get_setGpuObject_of_ne (hhead c).2.symm, Fields.get_set_of_ne hne, ho]
    rw [addToNodeWatts_of_none hkeep, hkeep]
  · have hset : 0 < node.sockets → Fields.get numGpusPerSocket out
        = some (.integer node.gpusPerSocket.toNat) := by
      refine forSockets_inv (fun c o => 0 < c → Fields.get numGpusPerSocket o
        = some (.integer node.gpusPerSocket.toNat)) (fun h0 => absurd h0 (Nat.lt_irrefl 0)) ?_ h
      rintro c o o' - - hbody -
      obtain ⟨devs, hdevs, rfl⟩ := Nvidia.turn_eq hbody
      rw [get_addToNodeWatts_of_ne hne.symm, get_setGpuObject_of_ne (hhead c).1.symm,
        Fields.get_set_self]
    exact hset node.sockets_pos
  · intro k hk
    refine forSockets_inv (fun _ o => Fields.get k o = Fields.get k obj) rfl ?_ h
    rintro c o o' - ho hbody
    obtain ⟨devs, hdevs, rfl⟩ := Nvidia.turn_eq hbody
    rw [get_addToNodeWatts_of_ne hk.node,
      get_setGpuObject_of_ne (ne_snprintf_socketKey hk.head c).symm,
      Fields.get_set_of_ne hk.gpus, ho]

/-- **AMD GPU.**  A socket gets the powers of its devices, and the node their sum on
top. -/
theorem AmdGpu.output {pwrVal : Int → BitVec 64}
    (h : AmdGpu.getJsonPowerData node pwrVal obj = some out) :
    GpuOutput node (AmdGpu.watts pwrVal) (fun _ => True) node.gpusPerSocket.toInt obj out := by
  obtain ⟨o, ho, h⟩ := Option.bind_eq_some_iff.mp h
  obtain ⟨devs, hdevs, h⟩ := Option.bind_eq_some_iff.mp h
  obtain rfl := Option.some.inj h
  have hne : numGpusPerSocket ≠ powerNodeWatts := by decide
  -- the loop leaves what is under no socket's key alone
  have hkeep : ∀ k : List Char, k.head? ≠ some 's' → Fields.get k o
      = Fields.get k (Fields.set numGpusPerSocket (.integer node.gpusPerSocket.toInt) obj) := by
    intro k hk
    refine forSockets_inv (fun _ o => Fields.get k o
      = Fields.get k (Fields.set numGpusPerSocket (.integer node.gpusPerSocket.toInt) obj))
      rfl ?_ ho
    rintro c o o' - ho hbody
    obtain ⟨devs, -, hbody⟩ := Option.bind_eq_some_iff.mp hbody
    rw [← Option.some.inj hbody, get_setGpuObject_of_ne (ne_snprintf_socketKey hk c).symm, ho]
  have hnode : Fields.get powerNodeWatts o = Fields.get powerNodeWatts obj := by
    rw [hkeep _ (by decide), Fields.get_set_of_ne hne]
  constructor
  · intro i hi _
    have hsocket := @gpuTurns node (AmdGpu.watts pwrVal) _ _
      (fun c => snprintf 24 (socketKey c)) (fun i => i < node.sockets) _ _ ?_ ?_ ho i hi hi
    · obtain ⟨devs', hdevs', hget⟩ := hsocket
      refine ⟨devs', hdevs', ?_⟩
      rw [get_addToNodeWatts_of_ne (powerNodeWatts_ne i), hget,
        Fields.get_set_of_ne (numGpusPerSocket_ne i)]
    · have hfits : ∀ j < node.sockets, snprintf 24 (socketKey j) = socketKey j := fun j hj =>
        snprintf_socketKey (w := 16) (hj.trans (node.sockets_lt.trans (by decide))) (by decide)
      intro j hj
      refine ⟨hfits j hj, fun l hl h => ?_⟩
      rw [hfits l hl] at h
      exact socketKey_injective h
    · intro c o o' _ hbody
      obtain ⟨devs', hdevs', hbody⟩ := Option.bind_eq_some_iff.mp hbody
      exact gpuTurn_of_eq hdevs' (head_snprintf_socketKey 22 c)
        (.inr (Option.some.inj hbody).symm)
  · refine ⟨devs, hdevs, fun w hw => ?_⟩
    exact get_addToNodeWatts (hnode.trans hw)
  · intro hnone
    rw [addToNodeWatts_of_none (hnode.trans hnone), hnode, hnone]
  · rw [get_addToNodeWatts_of_ne hne.symm, hkeep _ (by decide), Fields.get_set_self]
  · intro k hk
    rw [get_addToNodeWatts_of_ne hk.node, hkeep k hk.head, Fields.get_set_of_ne hk.gpus]

/-- There is an object when no bound of a loop overflows. -/
theorem Nvidia.isSome_iff {gpuPower : Int → BitVec 32} :
    (Nvidia.voltaGetPowerJson node gpuPower obj).isSome ↔
      ∀ c < node.sockets, (node.block c).isSome :=
  forSockets_isSome_iff fun _ _ _ => isSome_bind_iff fun _ => rfl

theorem AmdGpu.isSome_iff {pwrVal : Int → BitVec 64} :
    (AmdGpu.getJsonPowerData node pwrVal obj).isSome ↔
      ∀ c < node.sockets, (node.block c).isSome := by
  have hloop : ∀ o, (forSockets (fun chipid obj => (node.block chipid).bind fun devs =>
      some (setGpuObject (snprintf 24 (socketKey chipid)) devs (AmdGpu.watts pwrVal) obj))
      node.sockets o).isSome ↔ ∀ c < node.sockets, (node.block c).isSome := fun o =>
    forSockets_isSome_iff fun _ _ _ => isSome_bind_iff fun _ => rfl
  constructor
  · intro h
    obtain ⟨out, hout⟩ := Option.isSome_iff_exists.mp h
    obtain ⟨o, ho, -⟩ := Option.bind_eq_some_iff.mp hout
    exact (hloop _).mp (Option.isSome_iff_exists.mpr ⟨o, ho⟩)
  · intro h
    have hblocks : node.blocks.isSome := GpuNode.overSockets_isSome h
    obtain ⟨devs, hdevs⟩ := Option.isSome_iff_exists.mp hblocks
    refine (isSome_bind_iff fun o => ?_).mpr ((hloop _).mpr h)
    rw [hdevs]
    rfl

end Gpu

end PowerJson

end Variorum
