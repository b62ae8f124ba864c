/-
Variorum/BatchDirection.lean

The direction of a submitted batch over runs of calls.

`do_batch_op` rewrites the direction flags of a batch only when its first
operation has the wrong one, and `create_batch_op` appends every operation as a
read.  In every reachable state the flags of a batch are therefore sorted:
first the operations left over from a write, then those appended since
(`MsrBatch.Sorted`).  A read always finds or makes all flags agree; a write
does unless both kinds are present, and then it submits the appended operations
as reads (`switchFlags_directed_iff`).
-/
import Variorum.Batch
import Variorum.Runs

namespace Variorum

open Runs

/-! ### Sorted flags -/

/-- Among the operations in use, those flagged as writes come first. -/
def MsrBatch.Sorted (x : MsrBatch) : Prop :=
  ∀ ops, x.live = some ops → (ops.map (·.isrdmsr)).Pairwise (· ≤ ·)

/-- Every flag agrees with the request. -/
def Directed (type : BatchType) (ops : List MsrBatchOp) : Prop :=
  ∀ op ∈ ops, op.isrdmsr = type.flag

/-- When the first flag is that of the request, so is the last. -/
def FlagsMeet (type : BatchType) (ops : List MsrBatchOp) : Prop :=
  ∀ first ∈ ops.head?, ∀ last ∈ ops.getLast?,
    first.isrdmsr = type.flag → last.isrdmsr = type.flag

namespace MsrBatch

variable {x x' : MsrBatch} {ops ops' : List MsrBatchOp}

theorem sorted_empty : MsrBatch.empty.Sorted := by
  intro ops h
  obtain rfl := Option.some.inj h
  exact List.Pairwise.nil

/-- A fresh array holds nothing but entries flagged as writes. -/
theorem sorted_allocate (x : MsrBatch) (addr n : Nat) :
    Sorted { x with ops := some ⟨addr, List.replicate n .zero⟩, size := n } := by
  intro ops h
  simp only [live] at h
  split at h
  · obtain rfl := Option.some.inj h
    rw [List.take_replicate, List.map_replicate, List.pairwise_replicate]
    exact .inr (le_refl _)
  · cases h

/-- An operation is appended as a read. -/
theorem Sorted.addOp (hx : x.Sorted) {msr cpu : Nat} {ptr : Dest}
    (h : x.addOp msr cpu = some (ptr, x')) : x'.Sorted := by
  obtain ⟨-, -, -, ops, op, hlive, hlive'⟩ := addOp_spec h
  intro ops' h'
  obtain rfl := Option.some.inj (hlive'.symm.trans h')
  rw [List.map_append, List.pairwise_append]
  refine ⟨hx ops hlive, List.pairwise_singleton _ _, fun a _ b hb => ?_⟩
  rw [List.map_singleton, List.mem_singleton, MsrBatchOp.fill] at hb
  rw [hb]
  exact Bool.le_true a

theorem sorted_withLive (hlive : x.live = some ops) (hlen : ops'.length = ops.length)
    (hsort : (ops'.map (·.isrdmsr)).Pairwise (· ≤ ·)) : (x.withLive ops').Sorted := by
  intro ops'' h
  obtain rfl := Option.some.inj ((live_withLive hlive hlen).symm.trans h)
  exact hsort

end MsrBatch

/-! ### Switching flags -/

section Switch

variable {type : BatchType} {ops : List MsrBatchOp}

theorem switchFlags_sorted (h : (ops.map (·.isrdmsr)).Pairwise (· ≤ ·)) :
    ((switchFlags type ops).map (·.isrdmsr)).Pairwise (· ≤ ·) := by
  cases ops with
  | nil => exact h
  | cons op rest =>
      by_cases hop : op.isrdmsr = type.flag
      · rwa [switchFlags, if_pos hop]
      · rw [switchFlags, if_neg hop, List.map_map]
        exact List.pairwise_map.mpr (List.pairwise_of_forall fun _ _ => le_refl _)

/-- In a sorted batch the first and the last flag bound all others. -/
theorem flag_between {op last : MsrBatchOp} {rest : List MsrBatchOp}
    (h : ((op :: rest).map (·.isrdmsr)).Pairwise (· ≤ ·))
    (hlast : (op :: rest).getLast? = some last) {o : MsrBatchOp} (ho : o ∈ op :: rest) :
    op.isrdmsr ≤ o.isrdmsr ∧ o.isrdmsr ≤ last.isrdmsr := by
  have hpair := List.pairwise_map.mp h
  constructor
  · rcases List.mem_cons.mp ho with rfl | hrest
    · exact le_refl _
    · exact (List.pairwise_cons.mp hpair).1 o hrest
  · obtain ⟨front, hfront⟩ := List.getLast?_eq_some_iff.mp hlast
    rw [hfront] at hpair ho
    rcases List.mem_append.mp ho with hin | hin
    · exact (List.pairwise_append.mp hpair).2.2 o hin last List.mem_cons_self
    · rw [List.mem_singleton.mp hin]

/-- **A sorted batch is submitted in the right direction exactly when its first
and last flags do not tell it apart.** -/
theorem switchFlags_directed_iff (h : (ops.map (·.isrdmsr)).Pairwise (· ≤ ·)) :
    Directed type (switchFlags type ops) ↔ FlagsMeet type ops := by
  cases ops with
  | nil => simp [Directed, FlagsMeet, switchFlags]
  | cons op rest =>
      obtain ⟨last, hlast⟩ : ∃ last, (op :: rest).getLast? = some last :=
        ⟨_, List.getLast?_eq_some_getLast (List.cons_ne_nil op rest)⟩
      have hmem : last ∈ op :: rest := List.mem_of_getLast? hlast
      by_cases hop : op.isrdmsr = type.flag
      · have hmeet : FlagsMeet type (op :: rest) ↔ last.isrdmsr = type.flag := by
          simp [FlagsMeet, hlast, hop]
        rw [switchFlags, if_pos hop, hmeet]
        constructor
        · exact fun hdir => hdir last hmem
        · intro hl o ho
          obtain ⟨hlow, hhigh⟩ := flag_between h hlast ho
          rw [hop] at hlow
          rw [hl] at hhigh
          exact le_antisymm hhigh hlow
      · rw [switchFlags, if_neg hop]
        refine iff_of_true (fun o ho => ?_) (fun first hfirst _ _ hf => ?_)
        · obtain ⟨_, -, rfl⟩ := List.mem_map.mp ho
          rfl
        · obtain rfl := Option.some.inj hfirst
          exact absurd hf hop

/-- A sorted batch is always read as a whole. -/
theorem flagsMeet_read (h : (ops.map (·.isrdmsr)).Pairwise (· ≤ ·)) : FlagsMeet .read ops := by
  intro first hfirst last hlast hf
  cases ops with
  | nil => cases hfirst
  | cons op rest =>
      obtain rfl := Option.some.inj hfirst
      obtain ⟨hle, -⟩ := flag_between h hlast (List.mem_of_getLast? hlast)
      rw [hf] at hle
      exact le_antisymm (Bool.le_true _) hle

end Switch

/-! ### The invariant of a run -/

/-- The flags of every batch are sorted. -/
def BatchStorage.Sorted (s : BatchStorage) : Prop := ∀ b, (s.slot b).Sorted

theorem BatchStorage.sorted_start : start.Sorted := fun _ => MsrBatch.sorted_empty

theorem doBatchOp_sorted {e : MsrEnv} {type : BatchType} {b : Nat} {st st' : MsrState}
    {ret : Int} (hs : st.store.Sorted) (h : doBatchOp e type b st = some (ret, st')) :
    st'.store.Sorted := by
  refine doBatchOp_forall ?_ hs h
  rintro x ops ops' hx hlive hlen (hflags | hflags)
  · exact MsrBatch.sorted_withLive hlive hlen (hflags ▸ hx ops hlive)
  · exact MsrBatch.sorted_withLive hlive hlen (hflags ▸ switchFlags_sorted (hx ops hlive))

/-- The flags stay sorted whatever is called. -/
theorem BatchCall.step_sorted {e : MsrEnv} {st st' : MsrState} {c : BatchCall}
    (hs : st.store.Sorted) (h : c.step e st = some st') : st'.store.Sorted := by
  obtain ⟨r, hrun, rfl⟩ := Option.map_eq_some_iff.mp h
  -- adding an operation is the only change to a batch; reads and writes do not move its
  -- operations
  cases c with
  | allocate b bsize =>
      obtain ⟨⟨ret, s'⟩, ha, rfl⟩ := Option.map_eq_some_iff.mp hrun
      obtain ⟨-, hslot⟩ := allocateBatch_slot ha
      exact BatchStorage.forall_update hs (MsrBatch.sorted_allocate _ _ _) hslot
  | create msr cpu dest i b =>
      obtain ⟨⟨ret, dest', s'⟩, hc, rfl⟩ := Option.map_eq_some_iff.mp hrun
      rcases createBatchOp_slot hc with hslot | ⟨ptr, x', hadd, hslot⟩
      · show ∀ b, (s'.slot b).Sorted
        rw [hslot]
        exact hs
      · exact BatchStorage.forall_update hs ((hs b).addOp hadd) hslot
  | loadSocket msr val b =>
      obtain ⟨⟨ret, val', s'⟩, hl, rfl⟩ := Option.map_eq_some_iff.mp hrun
      rcases val with - | dest
      · obtain ⟨-, -, rfl⟩ : _ ∧ _ ∧ st.store = s' := by simpa [loadSocketBatch] using hl
        exact hs
      · obtain ⟨⟨dest', s''⟩, hloop, he⟩ := Option.map_eq_some_iff.mp hl
        cases he
        exact fun b => loadLoop_keeps (fun hx hadd => hx.addOp hadd) (hs b) hloop
  | loadThread msr val b =>
      obtain ⟨⟨ret, val', s'⟩, hl, rfl⟩ := Option.map_eq_some_iff.mp hrun
      rcases val with - | dest
      · obtain ⟨-, -, rfl⟩ : _ ∧ _ ∧ st.store = s' := by simpa [loadThreadBatch] using hl
        exact hs
      · obtain ⟨⟨dest', s''⟩, hloop, he⟩ := Option.map_eq_some_iff.mp hl
        cases he
        exact fun b => loadLoop_keeps (fun hx hadd => hx.addOp hadd) (hs b) hloop
  | read b =>
      obtain ⟨⟨ret, st'⟩, hb, rfl⟩ := Option.map_eq_some_iff.mp hrun
      exact doBatchOp_sorted hs hb
  | write b =>
      obtain ⟨⟨ret, st'⟩, hb, rfl⟩ := Option.map_eq_some_iff.mp hrun
      exact doBatchOp_sorted hs hb

/-! ### Submissions -/

/-- The submissions a step adds agree with the request. -/
def SubmitsDirected (st st' : MsrState) : Prop :=
  ∀ sub ∈ st'.ioctls.drop st.ioctls.length, Directed sub.type sub.ops

theorem submitsDirected_of_eq {st st' : MsrState} (h : st'.ioctls = st.ioctls) :
    SubmitsDirected st st' := by
  intro sub hsub
  rw [h, List.drop_length] at hsub
  cases hsub

/-- A batch carried out is submitted in the right direction exactly when its
first and last flags meet the request. -/
theorem doBatchOp_directed_iff (e : MsrEnv) (type : BatchType) (b : Nat) {st : MsrState}
    (hs : st.store.Sorted) :
    (∀ ret st', doBatchOp e type b st = some (ret, st') → SubmitsDirected st st') ↔
      (e.batchfd = true → b + 1 < 2 ^ 31 → ∀ ops, (st.store.slot b).live = some ops →
        FlagsMeet type ops) := by
  constructor
  · intro hdir hfd hb ops hlive
    rw [← switchFlags_directed_iff (hs b ops hlive)]
    by_cases hne : ops = []
    · subst hne
      exact List.forall_mem_nil _
    · obtain ⟨s', hrun, -⟩ := doBatchOp_fast type hb hfd hlive hne
      exact hdir _ _ hrun ⟨type, switchFlags type ops⟩ (by simp)
  · intro hmeet ret st' hrun
    obtain ⟨hb, ops, hlive, ⟨-, hio, -⟩ | ⟨-, -, hio, -⟩ | ⟨hfd, -, hio, -⟩⟩ :=
      doBatchOp_cases hrun
    · exact submitsDirected_of_eq hio
    · exact submitsDirected_of_eq hio
    · intro sub hsub
      rw [hio, List.drop_left, List.mem_singleton] at hsub
      subst hsub
      exact (switchFlags_directed_iff (hs b ops hlive)).mpr (hmeet hfd hb ops hlive)

namespace BatchCall

/-- A call submits, if anything, only operations that agree with the request. -/
def DirectionOk (e : MsrEnv) (st : MsrState) (c : BatchCall) : Prop :=
  ∀ st', c.step e st = some st' → SubmitsDirected st st'

/-- The calls that do: all but a `write_batch`, through `msr_batch`, of a batch
whose first operation is left over from a write and whose last was appended
since. -/
def DirectionPre (e : MsrEnv) (st : MsrState) : BatchCall → Prop
  | write b =>
      e.batchfd = true → b + 1 < 2 ^ 31 → ∀ ops, (st.store.slot b).live = some ops →
        FlagsMeet .write ops
  | _ => True

theorem directionOk_iff {e : MsrEnv} {st : MsrState} {c : BatchCall} (hs : st.store.Sorted) :
    c.DirectionOk e st ↔ c.DirectionPre e st := by
  have hreply : ∀ {type : BatchType} {b : Nat},
      (∀ st', ((doBatchOp e type b st).map fun p =>
          (⟨p.1, none, p.2⟩ : BatchReply)).map (·.state) = some st' → SubmitsDirected st st') ↔
        ∀ ret st', doBatchOp e type b st = some (ret, st') → SubmitsDirected st st' := by
    intro type b
    rw [forall_comm]
    simp
  cases c with
  | read b =>
      refine iff_of_true (hreply.mpr ((doBatchOp_directed_iff e .read b hs).mpr ?_)) trivial
      exact fun _ _ ops hlive => flagsMeet_read (hs b ops hlive)
  | write b => exact hreply.trans (doBatchOp_directed_iff e .write b hs)
  | _ =>
      refine iff_of_true (fun st' h => submitsDirected_of_eq ?_) trivial
      obtain ⟨r, hrun, rfl⟩ := Option.map_eq_some_iff.mp h
      obtain ⟨_, -, rfl⟩ := Option.map_eq_some_iff.mp hrun
      rfl

end BatchCall

/-- **Batch direction over whole runs.**  Every batch a run submits carries the
flags of the request exactly when the run never writes a batch whose first
operation is still flagged as a write while its last is flagged as a read. -/
theorem direction_iff (e : MsrEnv) (m : Machine) (calls : List BatchCall) :
    Along (BatchCall.step e) (fun st c => c.DirectionOk e st) (.start m) calls ↔
      Along (BatchCall.step e) (fun st c => c.DirectionPre e st) (.start m) calls := by
  refine along_iff_of_inv (fun st => st.store.Sorted) ?_ ?_ BatchStorage.sorted_start
  · exact fun hs _ hstep => BatchCall.step_sorted hs hstep
  · exact fun hs => BatchCall.directionOk_iff hs

/-- A write, an operation appended, another write: the second submission holds
a read. -/
theorem writeBatch_reads :
    ¬ Along (BatchCall.step twoSocketEnv) (fun st c => c.DirectionOk twoSocketEnv st)
        (.start ⟨fun _ _ => 0, []⟩)
        [.allocate 0 2, .create 0x610 0 (fun _ => none) 0 0, .write 0,
          .create 0x610 2 (fun _ => none) 1 0, .write 0] := by
  rintro ⟨-, h₁⟩
  obtain ⟨-, h₂⟩ := h₁ _ rfl
  obtain ⟨-, h₃⟩ := h₂ _ rfl
  obtain ⟨-, h₄⟩ := h₃ _ rfl
  obtain ⟨hlast, -⟩ := h₄ _ rfl
  have hread := hlast _ rfl _ (List.mem_singleton.mpr rfl) _
    (List.mem_cons_of_mem _ (List.mem_singleton.mpr rfl))
  cases hread

end Variorum
