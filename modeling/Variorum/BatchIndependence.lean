/-
Variorum/BatchIndependence.lean

Batches do not disturb one another.

All batches stand in the two arrays of `batch_storage`, which any call may grow:
the first use of a batch number, one beyond the arrays, or one inside them.
`BatchStorage.entry` is what stands in the arrays themselves, behind the map
`slot`.  A call that returns takes one of four forms (`BatchCall.step_cases`), and
from these follow

* `step_slot_of_ne`, `step_entry` — the other batches, and their entries, stay;
* `MsrBatch.Points.step` — a pointer handed out keeps its operation;
* `BatchStorage.Apart.step` — no two batches share an array.

`batches_independent` puts them together over runs, with the commutation of
building calls on different batches, which `componentwise_build` gives.
-/
import Variorum.BatchContents
import Variorum.BatchLoad

namespace Variorum

open Runs

/-! ### Pointers and arrays -/

/-- The pointer is the address of the data of an operation in use, which names the
register. -/
def MsrBatch.Points (x : MsrBatch) (ptr : Dest) (reg : Nat × Nat) : Prop :=
  x.ops.map (·.addr) = some ptr.1 ∧
    ∃ ops, x.live = some ops ∧ (ops.map (·.register))[ptr.2]? = some reg

namespace BatchStorage

/-- What stands in the arrays. -/
def entry (s : BatchStorage) (batchnum : Nat) : Option MsrBatch := s.batch.bind (·[batchnum]?)

/-- The block behind a batch. -/
def block (s : BatchStorage) (batchnum : Nat) : Option Nat := (s.slot batchnum).ops.map (·.addr)

/-- Blocks have been returned by `calloc`, each to one batch. -/
structure Apart (s : BatchStorage) : Prop where
  below : ∀ b n, s.block b = some n → n < s.brk
  inj : ∀ b b' n, s.block b = some n → s.block b' = some n → b = b'

/-- From `s` to `s'` no entry has been lost and no block returned. -/
structure Grown (s s' : BatchStorage) : Prop where
  brk : s'.brk = s.brk
  entry : ∀ b, (s.entry b).isSome → (s'.entry b).isSome

end BatchStorage

/-! ### The arrays -/

section Arrays

variable {e : MsrEnv} {s s' s'' : BatchStorage} {msr cpu i b batchnum : Nat}
variable {dest dest' : DestTable} {pairs : List (Nat × Nat)}

theorem BatchStorage.slot_eq (s : BatchStorage) (b : Nat) :
    s.slot b = (s.entry b).getD .empty := by
  rcases s with ⟨- | l, brk⟩
  · rfl
  · exact List.getD_eq_getElem?_getD

theorem BatchStorage.entry_of_isSome (h : (s.entry b).isSome) : s.entry b = some (s.slot b) := by
  obtain ⟨x, hx⟩ := Option.isSome_iff_exists.mp h
  rw [s.slot_eq, hx]
  rfl

theorem BatchStorage.entry_isSome_iff :
    (s.entry b).isSome ↔ ∃ l, s.batch = some l ∧ b < l.length := by
  rcases s with ⟨- | l, brk⟩ <;> simp [entry]

theorem BatchStorage.Grown.refl (s : BatchStorage) : s.Grown s := ⟨rfl, fun _ h => h⟩

theorem BatchStorage.Grown.trans (h : s.Grown s') (h' : s'.Grown s'') : s.Grown s'' :=
  ⟨h'.brk.trans h.brk, fun b hb => h'.entry b (h.entry b hb)⟩

theorem BatchStorage.grown_setSlot (s : BatchStorage) (b : Nat) (x : MsrBatch) :
    s.Grown (s.setSlot b x) := by
  refine ⟨rfl, fun k hk => ?_⟩
  obtain ⟨l, hl, hlt⟩ := entry_isSome_iff.mp hk
  rw [entry_isSome_iff]
  refine ⟨l.set b x, ?_, by rwa [List.length_set]⟩
  rw [setSlot, hl, Option.map_some]

/-- **Growing the arrays**, from whichever of the three conditions: the entries that
were there stay, and the one asked for is there. -/
theorem batchStorage_grown (h : batchStorage s b = some s') :
    s.Grown s' ∧ (s'.entry b).isSome := by
  unfold batchStorage at h
  split at h
  · cases h
  · rcases s with ⟨- | l, brk⟩ <;> simp only at h
    · -- the first use of any number
      obtain rfl := Option.some.inj h
      refine ⟨⟨rfl, fun k hk => ?_⟩, BatchStorage.entry_isSome_iff.mpr ⟨_, rfl, ?_⟩⟩
      · cases hk
      · rw [List.length_replicate]
        split <;> omega
    · split at h
      · -- a number beyond the arrays
        obtain rfl := Option.some.inj h
        refine ⟨⟨rfl, fun k hk => ?_⟩, BatchStorage.entry_isSome_iff.mpr ⟨_, rfl, ?_⟩⟩
        · obtain ⟨l', hl', hlt⟩ := BatchStorage.entry_isSome_iff.mp hk
          obtain rfl := Option.some.inj hl'
          refine BatchStorage.entry_isSome_iff.mpr ⟨_, rfl, ?_⟩
          rw [List.length_append]
          exact Nat.lt_add_right _ hlt
        · rw [List.length_append, List.length_replicate]
          omega
      · next hin =>
          obtain rfl := Option.some.inj h
          exact ⟨.refl _, BatchStorage.entry_isSome_iff.mpr ⟨l, rfl, by omega⟩⟩

theorem allocateBatch_grown {bsize : Nat} {ret : Int}
    (h : allocateBatch s b bsize = some (ret, s')) :
    s'.brk = s.brk + 1 ∧ ∀ k, (s.entry k).isSome → (s'.entry k).isSome := by
  obtain ⟨s₁, hs₁, heq⟩ := Option.map_eq_some_iff.mp h
  obtain ⟨-, rfl⟩ := Prod.mk.inj heq
  obtain ⟨hgrown, -⟩ := batchStorage_grown hs₁
  refine ⟨congrArg (· + 1) hgrown.brk, fun k hk => ?_⟩
  exact (BatchStorage.grown_setSlot s₁ b _).entry k (hgrown.entry k hk)

theorem createBatchOp_grown {ret : Int}
    (h : createBatchOp s msr cpu dest i batchnum = some (ret, dest', s')) : s.Grown s' := by
  obtain ⟨s₁, hs₁, h⟩ := Option.bind_eq_some_iff.mp h
  obtain ⟨hgrown, -⟩ := batchStorage_grown hs₁
  simp only at h
  split at h
  · obtain ⟨-, -, rfl⟩ : _ ∧ _ ∧ s₁ = s' := by simpa using h
    exact hgrown
  · obtain ⟨⟨ptr, x'⟩, -, heq⟩ := Option.map_eq_some_iff.mp h
    obtain ⟨-, -, rfl⟩ : _ ∧ _ ∧ s₁.setSlot batchnum x' = s' := by simpa using heq
    exact hgrown.trans (s₁.grown_setSlot _ _)

theorem loadLoop_grown (h : loadLoop msr batchnum pairs dest s = some (dest', s')) :
    s.Grown s' := by
  induction pairs generalizing dest s with
  | nil =>
      obtain ⟨-, rfl⟩ := Prod.mk.inj (Option.some.inj h)
      exact .refl s
  | cons p rest ih =>
      obtain ⟨⟨ret, dest₁, s₁⟩, hs₁, hrest⟩ := Option.bind_eq_some_iff.mp h
      exact (createBatchOp_grown hs₁).trans (ih hrest)

theorem doBatchOp_grown {type : BatchType} {ret : Int} {st st' : MsrState}
    (h : doBatchOp e type batchnum st = some (ret, st')) : st.store.Grown st'.store := by
  unfold doBatchOp compatibilityBatch at h
  split at h
  · obtain ⟨s₁, hs₁, h⟩ := Option.bind_eq_some_iff.mp h
    obtain ⟨hgrown, -⟩ := batchStorage_grown hs₁
    simp only at h
    split at h
    · obtain ⟨-, rfl⟩ := Prod.mk.inj (Option.some.inj h)
      exact hgrown
    · obtain ⟨ops, -, heq⟩ := Option.map_eq_some_iff.mp h
      obtain ⟨-, rfl⟩ := Prod.mk.inj heq
      exact hgrown.trans (s₁.grown_setSlot _ _)
  · obtain ⟨s₁, hs₁, h⟩ := Option.bind_eq_some_iff.mp h
    obtain ⟨hgrown, -⟩ := batchStorage_grown hs₁
    obtain ⟨ops, -, heq⟩ := Option.map_eq_some_iff.mp h
    obtain ⟨-, rfl⟩ := Prod.mk.inj heq
    exact hgrown.trans (s₁.grown_setSlot _ _)

end Arrays

/-! ### The forms of a call -/

section Forms

variable {e : MsrEnv} {st st' : MsrState} {c : BatchCall} {b : Nat}

namespace BatchCall

/-- **What a call can be**: an allocation, one that adds operations, a load with a NULL
table, or one that carries the batch out. -/
theorem step_cases (h : c.step e st = some st') :
    (∃ bsize, c = .allocate c.batchnum bsize ∧
      allocateBatch st.store c.batchnum bsize = some (0, st'.store)) ∨
    (∃ msr pairs dest dest', c.adds e.topo = some (msr, pairs, dest) ∧
      loadLoop msr c.batchnum pairs dest st.store = some (dest', st'.store)) ∨
    st' = st ∨
    ∃ type ret, doBatchOp e type c.batchnum st = some (ret, st') := by
  obtain ⟨r, hrun, rfl⟩ := Option.map_eq_some_iff.mp h
  -- the calls that add operations, one or one for each socket or thread, share a loop
  have hadds : ∀ {msr pairs dest}, c.adds e.topo = some (msr, pairs, dest) →
      ∃ dest', loadLoop msr c.batchnum pairs dest st.store = some (dest', r.state.store) := by
    intro msr pairs dest hadd
    have hloop : (c.run e st).map (fun r => (r.table, r.state)) = _ := run_of_adds hadd
    rw [hrun, Option.map_some] at hloop
    obtain ⟨⟨dest', s⟩, hs, heq⟩ := Option.map_eq_some_iff.mp hloop.symm
    rw [← (Prod.mk.inj heq).2]
    exact ⟨dest', hs⟩
  cases c with
  | allocate b bsize =>
      obtain ⟨⟨ret, s⟩, hs, rfl⟩ := Option.map_eq_some_iff.mp hrun
      have hret : ret = 0 := by
        obtain ⟨s₁, -, heq⟩ := Option.map_eq_some_iff.mp hs
        exact (Prod.mk.inj heq).1.symm
      subst hret
      exact .inl ⟨bsize, rfl, hs⟩
  | create msr cpu dest i b => exact .inr (.inl ⟨_, _, _, (hadds rfl).imp fun _ h => ⟨rfl, h⟩⟩)
  | loadSocket msr val b =>
      cases val with
      | none =>
          obtain rfl := Option.some.inj hrun
          exact .inr (.inr (.inl rfl))
      | some dest => exact .inr (.inl ⟨_, _, _, (hadds rfl).imp fun _ h => ⟨rfl, h⟩⟩)
  | loadThread msr val b =>
      cases val with
      | none =>
          obtain rfl := Option.some.inj hrun
          exact .inr (.inr (.inl rfl))
      | some dest => exact .inr (.inl ⟨_, _, _, (hadds rfl).imp fun _ h => ⟨rfl, h⟩⟩)
  | read b =>
      obtain ⟨⟨ret, st'⟩, hdo, rfl⟩ := Option.map_eq_some_iff.mp hrun
      exact .inr (.inr (.inr ⟨.read, ret, hdo⟩))
  | write b =>
      obtain ⟨⟨ret, st'⟩, hdo, rfl⟩ := Option.map_eq_some_iff.mp hrun
      exact .inr (.inr (.inr ⟨.write, ret, hdo⟩))

/-- **A call leaves every other batch alone.** -/
theorem step_slot_of_ne (h : c.step e st = some st') (hb : b ≠ c.batchnum) :
    st'.store.slot b = st.store.slot b := by
  obtain ⟨bsize, -, hs⟩ | ⟨msr, pairs, dest, dest', -, hs⟩ | rfl | ⟨type, ret, hdo⟩ :=
    step_cases h
  · rw [(allocateBatch_slot hs).2, Function.update_of_ne hb]
  · exact loadLoop_slot_of_ne hs hb
  · rfl
  · exact doBatchOp_slot_of_ne hdo hb

/-- The arrays only grow: an entry that is there stays there. -/
theorem step_entry_isSome (h : c.step e st = some st') (hb : (st.store.entry b).isSome) :
    (st'.store.entry b).isSome := by
  obtain ⟨bsize, -, hs⟩ | ⟨msr, pairs, dest, dest', -, hs⟩ | rfl | ⟨type, ret, hdo⟩ :=
    step_cases h
  · exact (allocateBatch_grown hs).2 b hb
  · exact (loadLoop_grown hs).entry b hb
  · exact hb
  · exact (doBatchOp_grown hdo).entry b hb

/-- The entry of every other batch stays what it is, whether or not the arrays grow. -/
theorem step_entry (h : c.step e st = some st') (hb : b ≠ c.batchnum) {x : MsrBatch}
    (hx : st.store.entry b = some x) : st'.store.entry b = some x := by
  have hin : (st.store.entry b).isSome := by rw [hx, Option.isSome_some]
  rw [BatchStorage.entry_of_isSome (step_entry_isSome h hin), step_slot_of_ne h hb,
    ← BatchStorage.entry_of_isSome hin, hx]

end BatchCall

end Forms

/-! ### Pointers -/

section Pointers

variable {e : MsrEnv} {type : BatchType} {x x' : MsrBatch} {ptr ptr' : Dest} {reg : Nat × Nat}
variable {ops ops' : List MsrBatchOp} {m : Machine} {msr cpu b batchnum : Nat}

/-- Carrying operations out changes their data and flags, not their registers. -/
theorem compatLoop_register (ops : List MsrBatchOp) (m : Machine) :
    (compatLoop e type ops m).1.map (·.register) = ops.map (·.register) := by
  apply compatLoop_map
  intro op m
  cases type <;> rfl

theorem ioctlLoop_register (ops : List MsrBatchOp) (m : Machine) :
    (ioctlLoop e ops m).2.1.map (·.register) = ops.map (·.register) := by
  apply ioctlLoop_map
  intro op _ m
  unfold ioctlOp
  split
  · split <;> split <;> rfl
  · rfl

theorem switchFlags_register (ops : List MsrBatchOp) :
    (switchFlags type ops).map (·.register) = ops.map (·.register) := by
  cases ops with
  | nil => rfl
  | cons op rest =>
      rw [switchFlags]
      split
      · rfl
      · rw [List.map_map]
        rfl

/-- `do_batch_op` puts back operations that name the same registers. -/
theorem doBatchOp_register {ret : Int} {st st' : MsrState}
    (h : doBatchOp e type batchnum st = some (ret, st')) :
    st'.store.slot = st.store.slot ∨ ∃ ops ops', (st.store.slot batchnum).live = some ops ∧
      ops'.map (·.register) = ops.map (·.register) ∧
      st'.store.slot
        = Function.update st.store.slot batchnum ((st.store.slot batchnum).withLive ops') := by
  obtain ⟨-, ops, hlive, ⟨-, -, hslot⟩ | ⟨-, -, -, hslot⟩ | ⟨-, -, -, hslot⟩⟩ :=
    doBatchOp_cases h
  · exact .inr ⟨ops, _, hlive, compatLoop_register ops _, hslot⟩
  · exact .inl hslot
  · refine .inr ⟨ops, _, hlive, ?_, hslot⟩
    rw [ioctlLoop_register, switchFlags_register]

namespace MsrBatch

/-- Adding an operation keeps the array. -/
theorem addOp_addr (h : x.addOp msr cpu = some (ptr, x')) :
    x.ops.map (·.addr) = some ptr.1 ∧ ptr.2 = x.numops ∧
      x'.ops.map (·.addr) = x.ops.map (·.addr) := by
  rcases x with ⟨- | a, numops, size⟩
  · cases h
  · simp only [addOp] at h
    split at h
    · obtain ⟨rfl, rfl⟩ := Prod.mk.inj (Option.some.inj h)
      exact ⟨rfl, rfl, rfl⟩
    · cases h

/-- The address that `create_batch_op` hands out. -/
theorem points_addOp (h : x.addOp msr cpu = some (ptr, x')) :
    x'.Points ptr (MsrBatchOp.fill .zero msr cpu).register := by
  obtain ⟨haddr, hpos, hkeep⟩ := addOp_addr h
  obtain ⟨-, -, -, ops, op, hlive, hlive'⟩ := addOp_spec h
  refine ⟨hkeep.trans haddr, _, hlive', ?_⟩
  rw [hpos, ← live_length hlive, List.map_append, ← List.length_map (·.register),
    List.getElem?_append_right (Nat.le_refl _), Nat.sub_self]
  rfl

/-- Adding an operation does not move those that are there. -/
theorem Points.addOp (hp : x.Points ptr reg) (h : x.addOp msr cpu = some (ptr', x')) :
    x'.Points ptr reg := by
  obtain ⟨haddr, ops, hlive, hget⟩ := hp
  obtain ⟨-, -, hkeep⟩ := addOp_addr h
  obtain ⟨-, -, -, ops₁, op, hlive₁, hlive'⟩ := addOp_spec h
  obtain rfl := Option.some.inj (hlive.symm.trans hlive₁)
  refine ⟨hkeep.trans haddr, _, hlive', ?_⟩
  rw [List.map_append, List.getElem?_append_left (List.getElem?_eq_some_iff.mp hget).1, hget]

/-- Nor does carrying them out. -/
theorem Points.withLive (hp : x.Points ptr reg) (hlive : x.live = some ops)
    (hreg : ops'.map (·.register) = ops.map (·.register)) : (x.withLive ops').Points ptr reg := by
  obtain ⟨haddr, ops₁, hlive₁, hget⟩ := hp
  obtain rfl := Option.some.inj (hlive.symm.trans hlive₁)
  have hlen : ops'.length = ops.length := by simpa using congrArg List.length hreg
  refine ⟨?_, ops', live_withLive hlive hlen, hreg ▸ hget⟩
  rw [MsrBatch.withLive, Option.map_map]
  exact haddr

/-- **A pointer keeps its operation** over any conforming call, for its own batch or for
another. -/
theorem Points.step {st st' : MsrState} {c : BatchCall} (hpre : c.CapacityPre e st)
    (h : c.step e st = some st') (hp : (st.store.slot b).Points ptr reg) :
    (st'.store.slot b).Points ptr reg := by
  by_cases hb : b = c.batchnum
  · subst hb
    obtain ⟨bsize, hc, -⟩ | ⟨msr, pairs, dest, dest', -, hs⟩ | rfl | ⟨type, ret, hdo⟩ :=
      c.step_cases h
    · -- a batch to which something points has been allocated
      rw [hc] at hpre
      rw [Points, hpre.2] at hp
      cases hp.1
    · exact loadLoop_keeps (P := fun x => x.Points ptr reg) (fun hx hadd => hx.addOp hadd) hp hs
    · exact hp
    · obtain hslot | ⟨ops, ops', hlive, hreg, hslot⟩ := doBatchOp_register hdo
      · rwa [hslot]
      · rw [hslot, Function.update_self]
        exact hp.withLive hlive hreg
  · rwa [c.step_slot_of_ne h hb]

end MsrBatch

/-- A loader stores to no entry of the table but those it was given. -/
theorem loadLoop_dest {s s' : BatchStorage} {pairs : List (Nat × Nat)} {dest dest' : DestTable}
    (h : loadLoop msr b pairs dest s = some (dest', s')) {i : Nat} (hi : i ∉ pairs.map (·.2)) :
    dest' i = dest i := by
  induction pairs generalizing dest s with
  | nil => rw [(Prod.mk.inj (Option.some.inj h)).1]
  | cons p rest ih =>
      rw [List.map_cons, List.mem_cons, not_or] at hi
      obtain ⟨⟨ret, dest₁, s₁⟩, hs₁, hrest⟩ := Option.bind_eq_some_iff.mp h
      rw [ih hrest hi.2]
      obtain ⟨s₀, -, hs₁⟩ := Option.bind_eq_some_iff.mp hs₁
      simp only at hs₁
      split at hs₁
      · obtain ⟨-, rfl, -⟩ : _ ∧ dest = dest₁ ∧ _ := by simpa using hs₁
        rfl
      · obtain ⟨⟨ptr, x'⟩, -, heq⟩ := Option.map_eq_some_iff.mp hs₁
        obtain ⟨-, rfl, -⟩ : _ ∧ Function.update dest p.2 (some ptr) = dest₁ ∧ _ := by
          simpa using heq
        exact Function.update_of_ne hi.1 _ _

/-- **What a loader hands out**, with room for its operations: behind each index stands
the operation for its device. -/
theorem loadLoop_points {s s' : BatchStorage} {pairs : List (Nat × Nat)} {dest dest' : DestTable}
    (hb : b + 1 < 2 ^ 31) (hx : (s.slot b).Within) (hpairs : (pairs.map (·.2)).Nodup)
    (h : loadLoop msr b pairs dest s = some (dest', s')) : ∀ p ∈ pairs, ∃ ptr,
      dest' p.2 = some ptr ∧ (s'.slot b).Points ptr (MsrBatchOp.fill .zero msr p.1).register := by
  induction pairs generalizing dest s with
  | nil => exact nofun
  | cons p rest ih =>
      obtain ⟨hp, hrest⟩ := List.nodup_cons.mp hpairs
      have hsize : (s.slot b).numops ≤ (s.slot b).size := hx.2 ▸ hx.1
      rcases hadd : (s.slot b).addOp msr p.1 with - | ⟨ptr, x'⟩
      · rw [loadLoop, createBatchOp_fault hb hsize (MsrBatch.addOp_eq_none_iff.mp hadd),
          Option.bind_none] at h
        cases h
      · obtain ⟨s₁, hs₁, hslot⟩ := createBatchOp_room dest p.2 hb hsize hadd
        have hself : s₁.slot b = x' := by
          rw [hslot, Function.update_self]
        rw [loadLoop, hs₁, Option.bind_some] at h
        refine List.forall_mem_cons.mpr ⟨⟨ptr, ?_, ?_⟩, ?_⟩
        · rw [loadLoop_dest h hp, Function.update_self]
        · refine loadLoop_keeps (P := fun x => x.Points ptr _) (fun hx hadd => hx.addOp hadd) ?_ h
          rw [hself]
          exact MsrBatch.points_addOp hadd
        · exact ih (hself ▸ MsrBatch.within_addOp hx hadd) hrest h

end Pointers

/-! ### Arrays of their own -/

section Apart

variable {e : MsrEnv} {s s' : BatchStorage} {st st' : MsrState} {c : BatchCall} {b : Nat}

theorem BatchStorage.apart_start : start.Apart := ⟨nofun, nofun⟩

/-- Where no block moves, none is shared. -/
theorem BatchStorage.Apart.of_block (h : s.Apart) (hblock : s'.block = s.block)
    (hbrk : s'.brk = s.brk) : s'.Apart := by
  refine ⟨fun b n hb => ?_, fun b b' n hb hb' => ?_⟩
  · rw [hbrk]
    exact h.below b n (hblock ▸ hb)
  · rw [hblock] at hb hb'
    exact h.inj b b' n hb hb'

/-- A block that `calloc` has just returned belongs to no other batch. -/
theorem BatchStorage.Apart.of_fresh (h : s.Apart)
    (hblock : s'.block = Function.update s.block b (some s.brk)) (hbrk : s'.brk = s.brk + 1) :
    s'.Apart := by
  have hnew : ∀ k n, s'.block k = some n → k = b ∧ n = s.brk ∨ s.block k = some n := by
    intro k n hk
    rw [hblock] at hk
    by_cases hkb : k = b
    · subst hkb
      rw [Function.update_self] at hk
      exact .inl ⟨rfl, (Option.some.inj hk).symm⟩
    · rw [Function.update_of_ne hkb] at hk
      exact .inr hk
  refine ⟨fun k n hk => ?_, fun k k' n hk hk' => ?_⟩
  · rw [hbrk]
    rcases hnew k n hk with ⟨-, rfl⟩ | hold
    · exact Nat.lt_succ_self _
    · exact Nat.lt_succ_of_lt (h.below k n hold)
  · rcases hnew k n hk with ⟨rfl, rfl⟩ | hold <;> rcases hnew k' _ hk' with ⟨rfl, hn⟩ | hold'
    · rfl
    · exact absurd (h.below _ _ hold') (Nat.lt_irrefl _)
    · exact absurd (h.below _ _ (hn ▸ hold)) (Nat.lt_irrefl _)
    · exact h.inj k k' n hold hold'

/-- **No two batches share an array**, after any call that returns. -/
theorem BatchStorage.Apart.step (hs : st.store.Apart) (h : c.step e st = some st') :
    st'.store.Apart := by
  -- only an allocation changes which addresses a batch has
  have hkeep : (∀ b, st'.store.block b = st.store.block b) → st'.store.brk = st.store.brk →
      st'.store.Apart := fun hblock => hs.of_block (funext hblock)
  obtain ⟨bsize, -, hrun⟩ | ⟨msr, pairs, dest, dest', -, hrun⟩ | rfl | ⟨type, ret, hdo⟩ :=
    c.step_cases h
  · refine hs.of_fresh (b := c.batchnum) ?_ (allocateBatch_grown hrun).1
    funext k
    rw [block, (allocateBatch_slot hrun).2]
    by_cases hk : k = c.batchnum
    · subst hk
      rw [Function.update_self, Function.update_self]
      rfl
    · rw [Function.update_of_ne hk, Function.update_of_ne hk]
      rfl
  · refine hkeep (fun b => ?_) (loadLoop_grown hrun).brk
    have hb : (st.store.slot b).ops.map (·.addr) = st.store.block b := rfl
    exact loadLoop_keeps (P := fun x => x.ops.map (·.addr) = st.store.block b)
      (fun hx hadd => (MsrBatch.addOp_addr hadd).2.2.trans hx) hb hrun
  · exact hs
  · refine hkeep (fun b => ?_) (doBatchOp_grown hdo).brk
    obtain hslot | ⟨ops, ops', -, -, hslot⟩ := doBatchOp_register hdo
    · rw [block, hslot]
      rfl
    · have hb : (st.store.slot b).ops.map (·.addr) = st.store.block b := rfl
      refine BatchStorage.of_update (P := fun x => x.ops.map (·.addr) = st.store.block b) hb ?_
        hslot
      rintro rfl
      rw [MsrBatch.withLive, Option.map_map]
      rfl

end Apart

/-! ### Runs -/

/-- Batches are independent in the state `st` in which the calls `calls` leave the
process. -/
structure BatchesIndependent (e : MsrEnv) (calls : List BatchCall) (st : MsrState) : Prop where
  /-- A call leaves every other batch as it is, and its entry in the arrays, should they
  grow. -/
  frame : ∀ c : BatchCall, c.CapacityPre e st → ∃ st', c.step e st = some st' ∧
    ∀ b ≠ c.batchnum, st'.store.slot b = st.store.slot b ∧
      ∀ x, st.store.entry b = some x → st'.store.entry b = some x
  /-- The pointer to each operation that a call adds points to it however the run goes
  on, and no other batch has its block. -/
  pointers : ∀ c : BatchCall, c.CapacityPre e st →
    ∀ msr pairs dest, c.adds e.topo = some (msr, pairs, dest) →
      ∃ r dest', c.run e st = some r ∧ r.table = some dest' ∧
        ∀ p ∈ pairs, ∃ ptr, dest' p.2 = some ptr ∧
          ∀ more, Along (BatchCall.step e) (fun st c => c.CapacityPre e st) r.state more →
            ∃ st', exec (BatchCall.step e) r.state more = some st' ∧
              (st'.store.slot c.batchnum).Points ptr (MsrBatchOp.fill .zero msr p.1).register ∧
              ∀ b, st'.store.block b = some ptr.1 → b = c.batchnum
  /-- A batch number not used before is empty, and so is the entry that its first use
  finds. -/
  unused : ∀ b, (∀ c ∈ calls, c.batchnum ≠ b) → st.store.slot b = ⟨none, 0, 0⟩ ∧
    (b + 1 < 2 ^ 31 →
      ∃ s', batchStorage st.store b = some s' ∧ s'.entry b = some ⟨none, 0, 0⟩)
  /-- Interleavings of building calls with the same order for each batch conform alike and
  build the same batches. -/
  commute : ∀ one other : List BatchCall,
    (∀ c ∈ one, c.Building) → (∀ c ∈ other, c.Building) →
    (∀ b, actionsOn BatchCall.batchnum b one = actionsOn BatchCall.batchnum b other) →
    Along (BatchCall.step e) (fun st c => c.CapacityPre e st) st one →
      Along (BatchCall.step e) (fun st c => c.CapacityPre e st) st other ∧
      ∃ st₁ st₂, exec (BatchCall.step e) st one = some st₁ ∧
        exec (BatchCall.step e) st other = some st₂ ∧
        ∀ b, (st₁.store.slot b).contents = (st₂.store.slot b).contents

section Run

variable {e : MsrEnv} {st : MsrState} {calls : List BatchCall}

theorem BatchStorage.Apart.exec {st' : MsrState} (hs : st.store.Apart)
    (hexec : exec (BatchCall.step e) st calls = some st') : st'.store.Apart :=
  exec_inv (fun st => st.store.Apart) (fun hi h => hi.step h) hs hexec

/-- **A pointer keeps its operation over a run.** -/
theorem MsrBatch.Points.exec {st' : MsrState} {b : Nat} {ptr : Dest} {reg : Nat × Nat}
    (hpre : Along (BatchCall.step e) (fun st c => c.CapacityPre e st) st calls)
    (hexec : Runs.exec (BatchCall.step e) st calls = some st')
    (hp : (st.store.slot b).Points ptr reg) : (st'.store.slot b).Points ptr reg :=
  hpre.exec_inv (fun st => (st.store.slot b).Points ptr reg) (fun hi hc h => hi.step hc h) hp hexec

/-- The batches that a run does not name stay what they are. -/
theorem exec_slot_of_notMem {st' : MsrState} {b : Nat} (hcalls : ∀ c ∈ calls, c.batchnum ≠ b)
    (hexec : exec (BatchCall.step e) st calls = some st') :
    st'.store.slot b = st.store.slot b := by
  refine (along_of_mem hcalls).exec_inv (fun st' => st'.store.slot b = st.store.slot b) ?_ rfl hexec
  intro st₁ c st₂ hst hne hstep
  exact (c.step_slot_of_ne hstep (Ne.symm hne)).trans hst

/-- The indices of a call are different. -/
theorem BatchCall.adds_nodup {t : Topology} {c : BatchCall} {msr : Nat}
    {pairs : List (Nat × Nat)} {dest : DestTable} (h : c.adds t = some (msr, pairs, dest)) :
    (pairs.map (·.2)).Nodup := by
  obtain ⟨cpu, i, rfl⟩ | rfl | rfl := c.adds_cases h
  · exact List.pairwise_singleton _ _
  · exact (BatchLoad.socket 0).pairs_nodup t
  · exact (BatchLoad.thread 0).pairs_nodup t

/-- **What a conforming call hands out**: behind each index that it stores to stands the
operation for its device. -/
theorem BatchCall.run_points {c : BatchCall} {msr : Nat} {pairs : List (Nat × Nat)}
    {dest : DestTable} (hs : st.store.Within) (hpre : c.CapacityPre e st)
    (hadds : c.adds e.topo = some (msr, pairs, dest)) :
    ∃ r dest', c.run e st = some r ∧ r.table = some dest' ∧ r.state.store.Within ∧
      ∀ p ∈ pairs, ∃ ptr, dest' p.2 = some ptr ∧
        (r.state.store.slot c.batchnum).Points ptr (MsrBatchOp.fill .zero msr p.1).register := by
  obtain ⟨r, hrun, hwithin, -⟩ := run_of_pre hs hpre
  have hloop : (c.run e st).map (fun r => (r.table, r.state)) = _ := run_of_adds hadds
  rw [hrun, Option.map_some] at hloop
  obtain ⟨⟨dest', s⟩, hload, heq⟩ := Option.map_eq_some_iff.mp hloop.symm
  obtain ⟨htable, hstate⟩ := Prod.mk.inj heq
  have hb : c.batchnum + 1 < 2 ^ 31 := by
    by_contra hge
    rw [loadLoop_of_ge (Nat.not_lt.mp hge) (adds_pairs_ne_nil hadds)] at hload
    cases hload
  refine ⟨r, dest', hrun, htable.symm, hwithin, ?_⟩
  rw [← hstate]
  exact loadLoop_points hb (hs _) (adds_nodup hadds) hload

/-- **Batches are independent** in every state that a conforming run reaches: a call
leaves the other batches alone, every pointer it has handed out stays with its
operation, a batch not yet used is empty, and calls on different batches can be
exchanged. -/
theorem batches_independent (e : MsrEnv) (m : Machine) {calls : List BatchCall}
    (hpre : Along (BatchCall.step e) (fun st c => c.CapacityPre e st) (.start m) calls) :
    ∃ st, exec (BatchCall.step e) (.start m) calls = some st ∧
      BatchesIndependent e calls st := by
  obtain ⟨st, hexec, hwithin⟩ := exec_of_pre BatchStorage.within_start hpre
  have hapart : st.store.Apart := BatchStorage.apart_start.exec hexec
  refine ⟨st, hexec, ⟨fun c hc => ?_, ?_, fun b hb => ?_, ?_⟩⟩
  · obtain ⟨r, hrun, -⟩ := BatchCall.run_of_pre hwithin hc
    have hstep : c.step e st = some r.state := congrArg (Option.map _) hrun
    exact ⟨r.state, hstep, fun b hb => ⟨c.step_slot_of_ne hstep hb, fun x => c.step_entry hstep hb⟩⟩
  · intro c hc msr pairs dest hadds
    obtain ⟨r, dest', hrun, htable, hwithin', hpoints⟩ := BatchCall.run_points hwithin hc hadds
    have hstep : c.step e st = some r.state := congrArg (Option.map _) hrun
    refine ⟨r, dest', hrun, htable, fun p hp => ?_⟩
    obtain ⟨ptr, hptr, hpoint⟩ := hpoints p hp
    refine ⟨ptr, hptr, fun more hmore => ?_⟩
    obtain ⟨st', hexec', -⟩ := exec_of_pre hwithin' hmore
    have hlast := hpoint.exec hmore hexec'
    refine ⟨st', hexec', hlast, fun b hblock => ?_⟩
    exact ((hapart.step hstep).exec hexec').inj b _ _ hblock hlast.1
  · have hslot : st.store.slot b = ⟨none, 0, 0⟩ := exec_slot_of_notMem hb hexec
    refine ⟨hslot, fun hlt => ?_⟩
    obtain ⟨s', hs', hkeep, -⟩ := BatchStorage.batchStorage_of_lt (s := st.store) hlt
    refine ⟨s', hs', ?_⟩
    rw [BatchStorage.entry_of_isSome (batchStorage_grown hs').2, hkeep, hslot]
  · intro one other hone hother hsame hpre'
    obtain ⟨halong, st₁, st₂, h₁, h₂, hview⟩ :=
      (componentwise_build e).interleave (fun _ _ _ => capacityPre_iff)
        (fun _ _ hc hQ => BatchContents.build_of_pre hc hQ) hone hother hsame hpre'
    exact ⟨halong, st₁, st₂, h₁, h₂, fun b => congrFun hview b⟩

/-- Two batches that take turns, the second beyond the arrays that the first made. -/
theorem batches_independent_turns :
    ∃ st, exec (BatchCall.step twoSocketEnv) (.start ⟨fun _ _ => 0, []⟩)
        [.allocate 0 1, .allocate 3 2, .create 0x610 2 (fun _ => none) 0 0,
          .loadSocket 0x611 (some fun _ => none) 3, .read 0] = some st ∧
      BatchesIndependent twoSocketEnv
        [.allocate 0 1, .allocate 3 2, .create 0x610 2 (fun _ => none) 0 0,
          .loadSocket 0x611 (some fun _ => none) 3, .read 0] st := by
  refine batches_independent twoSocketEnv ⟨fun _ _ => 0, []⟩ ?_
  refine ⟨⟨by decide, rfl⟩, fun st₁ h₁ => ?_⟩
  obtain rfl := Option.some.inj h₁
  refine ⟨⟨by decide, rfl⟩, fun st₂ h₂ => ?_⟩
  obtain rfl := Option.some.inj h₂
  refine ⟨⟨by decide, by decide⟩, fun st₃ h₃ => ?_⟩
  obtain rfl := Option.some.inj h₃
  refine ⟨.inr ⟨by decide, by decide⟩, fun st₄ h₄ => ?_⟩
  obtain rfl := Option.some.inj h₄
  exact ⟨show 0 + 1 < 2 ^ 31 by decide, fun _ _ => trivial⟩

end Run

end Variorum
