/-
Variorum/BatchCompat.lean

The two ways of carrying out a batch compared.

With `/dev/cpu/msr_batch` a batch goes to the kernel as a whole, which follows
the flag of each operation and reports whether any failed; without it
`compatibility_batch` goes through the operations itself, follows the request
and reports success whatever happened.  `compat_iff` says on which batches the
two agree: those with an operation in them, none of which fails, and in which
an operation flagged against the request finds its register holding what it was
to write there (`Idle`).
-/
import Variorum.Batch

namespace Variorum

/-! ### Comparing outcomes -/

/-- A pattern of failing operations: by position, CPU and register, the same
for reads and writes. -/
def patternDriver (fails : Nat → Nat → Nat → Bool) : Driver :=
  ⟨fun i a => fails i a.cpu a.msr⟩

/-- The data of the operations of a batch. -/
def MsrBatch.data (x : MsrBatch) : Option (List (BitVec 64)) :=
  x.live.map fun ops => ops.map (·.msrdata)

/-- Two executions of one batch agree: they succeed in the same cases, and then
leave the same data in the operations and the same registers. -/
def SameOutcome (batchnum : Nat) : Option (Int × MsrState) → Option (Int × MsrState) → Prop
  | some (r, st), some (r', st') =>
      (r = 0 ↔ r' = 0) ∧
        (r = 0 → (st.store.slot batchnum).data = (st'.store.slot batchnum).data ∧
          st.machine.msr = st'.machine.msr)
  | none, none => True
  | _, _ => False

/-! ### Where they agree -/

/-- No operation fails: each names a CPU of the node and is let through. -/
def NoneFails (t : Topology) (fails : Nat → Nat → Nat → Bool) : Nat → List MsrBatchOp → Prop
  | _, [] => True
  | i, op :: rest =>
      op.cpu.toNat < t.nthreads ∧ fails i op.cpu.toNat op.msr.toNat = false ∧
        NoneFails t fails (i + 1) rest

/-- Every operation flagged against the request finds its register holding its
data when its turn comes. -/
def Idle (type : BatchType) : List MsrBatchOp → Machine → Prop
  | [], _ => True
  | op :: rest, m =>
      if op.isrdmsr = type.flag then
        Idle type rest (match type with
          | .read => m
          | .write => { m with msr := m.store op.cpu.toNat op.msr.toNat op.msrdata })
      else m.msr op.cpu.toNat op.msr.toNat = op.msrdata ∧ Idle type rest m

/-- Only the registers matter to it. -/
theorem idle_congr {type : BatchType} {ops : List MsrBatchOp} {m m' : Machine}
    (h : m.msr = m'.msr) : Idle type ops m ↔ Idle type ops m' := by
  induction ops generalizing m m' with
  | nil => exact Iff.rfl
  | cons op rest ih =>
      unfold Idle
      split
      · cases type with
        | read => exact ih h
        | write => exact ih (by simp only [Machine.store, h])
      · rw [h, ih h]

theorem Machine.store_eq_self {m : Machine} {cpu msr : Nat} {val : BitVec 64}
    (h : m.msr cpu msr = val) : m.store cpu msr val = m.msr := by
  funext cpu' msr'
  by_cases hself : cpu' = cpu ∧ msr' = msr
  · obtain ⟨rfl, rfl⟩ := hself
    rw [store_self, h]
  · exact m.store_of_ne cpu msr val (not_and_or.mp hself)

/-! ### One operation that does not fail -/

/-- The data of an operation and the registers after carrying it out, as a read
or as a write. -/
def perform (rd : Bool) (op : MsrBatchOp) (m : Machine) :
    BitVec 64 × (Nat → Nat → BitVec 64) :=
  if rd then (m.msr op.cpu.toNat op.msr.toNat, m.msr)
  else (op.msrdata, m.store op.cpu.toNat op.msr.toNat op.msrdata)

/-- Reading and writing come to the same when the register holds the data. -/
theorem perform_fst_eq_iff {rd rd' : Bool} (hne : rd ≠ rd') (op : MsrBatchOp) (m : Machine) :
    (perform rd op m).1 = (perform rd' op m).1 ↔ m.msr op.cpu.toNat op.msr.toNat = op.msrdata := by
  cases rd <;> cases rd' <;> first | exact absurd rfl hne | simp [perform, eq_comm]

theorem perform_congr {m m' : Machine} (h : m.msr = m'.msr) (rd : Bool) (op : MsrBatchOp) :
    perform rd op m = perform rd op m' := by
  simp only [perform, Machine.store, h]

theorem perform_snd_of_eq {op : MsrBatchOp} {m : Machine}
    (h : m.msr op.cpu.toNat op.msr.toNat = op.msrdata) (rd : Bool) :
    (perform rd op m).2 = m.msr := by
  cases rd
  · exact Machine.store_eq_self h
  · rfl

section Op

variable {t : Topology} {fails : Nat → Nat → Nat → Bool} {fd : Bool} {type : BatchType}
variable {op : MsrBatchOp} {m : Machine}

theorem ioctlOp_of_ok (fd : Bool) (hcpu : op.cpu.toNat < t.nthreads)
    (hf : fails m.log.length op.cpu.toNat op.msr.toNat = false) :
    ∃ a, ioctlOp ⟨t, patternDriver fails, fd⟩ op m
      = (true, { op with msrdata := (perform op.isrdmsr op m).1, err := 0 },
          ⟨(perform op.isrdmsr op m).2, m.log ++ [a]⟩) := by
  unfold ioctlOp
  rw [if_pos hcpu]
  cases hrd : op.isrdmsr with
  | true =>
      refine ⟨⟨.read, op.cpu.toNat, op.msr.toNat⟩, ?_⟩
      simp [Machine.pread, patternDriver, hf, perform]
  | false =>
      refine ⟨⟨.write, op.cpu.toNat, op.msr.toNat⟩, ?_⟩
      simp [Machine.pwrite, patternDriver, hf, perform]

theorem ioctlOp_of_fails (fd : Bool) (h : ¬ (op.cpu.toNat < t.nthreads ∧
      fails m.log.length op.cpu.toNat op.msr.toNat = false)) :
    (ioctlOp ⟨t, patternDriver fails, fd⟩ op m).1 = false := by
  unfold ioctlOp
  split
  · next hcpu =>
      have hf : fails m.log.length op.cpu.toNat op.msr.toNat = true := by
        simpa using fun hf => h ⟨hcpu, hf⟩
      split <;> simp [Machine.pread, Machine.pwrite, patternDriver, hf]
  · rfl

theorem compatOp_of_ok (fd : Bool) (type : BatchType) (hcpu : op.cpu.toNat < t.nthreads)
    (hf : fails m.log.length op.cpu.toNat op.msr.toNat = false) :
    ∃ a, compatOp ⟨t, patternDriver fails, fd⟩ type op m
      = ({ op with msrdata := (perform type.flag op m).1 },
          ⟨(perform type.flag op m).2, m.log ++ [a]⟩) := by
  have hidx : (op.cpu.setWidth 32).toNat = op.cpu.toNat := by
    rw [BitVec.toNat_setWidth]
    exact Nat.mod_eq_of_lt (op.cpu.isLt.trans (by decide))
  have hlt : (op.cpu.setWidth 32).toNat < t.nthreads := hidx.symm ▸ hcpu
  cases type with
  | read =>
      refine ⟨⟨.read, op.cpu.toNat, op.msr.toNat⟩, ?_⟩
      simp [compatOp, readMsrByIdx_of_lt hlt, hidx, Machine.pread, patternDriver, hf,
        perform, BatchType.flag]
  | write =>
      refine ⟨⟨.write, op.cpu.toNat, op.msr.toNat⟩, ?_⟩
      simp [compatOp, writeMsrByIdx_of_lt hlt, hidx, Machine.pwrite, patternDriver, hf,
        perform, BatchType.flag]

end Op

/-! ### The loops -/

section Loop

variable {t : Topology} {fails : Nat → Nat → Nat → Bool} {fd : Bool} {type : BatchType}
variable {ops : List MsrBatchOp}

/-- The ioctl succeeds exactly when no operation fails. -/
theorem ioctlLoop_fst_iff (fd : Bool) {m : Machine} :
    (ioctlLoop ⟨t, patternDriver fails, fd⟩ ops m).1 = true ↔
      NoneFails t fails m.log.length ops := by
  induction ops generalizing m with
  | nil => exact iff_of_true rfl trivial
  | cons op rest ih =>
      by_cases hok : op.cpu.toNat < t.nthreads ∧
          fails m.log.length op.cpu.toNat op.msr.toNat = false
      · obtain ⟨a, ha⟩ := ioctlOp_of_ok fd hok.1 hok.2
        simp only [ioctlLoop, ha, Bool.true_and, ih, NoneFails, hok, true_and,
          List.length_append, List.length_singleton]
      · have hbad := ioctlOp_of_fails fd hok
        simp only [ioctlLoop, hbad, Bool.false_and, Bool.false_eq_true, NoneFails, false_iff]
        exact fun h => hok ⟨h.1, h.2.1⟩

/-- **When no operation fails, the two loops agree exactly on idle batches.**
The second machine differs from the first only in what it logged. -/
theorem loops_agree_iff {m m' : Machine} (hmsr : m.msr = m'.msr)
    (hlen : m.log.length = m'.log.length) (hok : NoneFails t fails m.log.length ops) :
    ((compatLoop ⟨t, patternDriver fails, false⟩ type ops m).1.map (·.msrdata)
          = (ioctlLoop ⟨t, patternDriver fails, true⟩ ops m').2.1.map (·.msrdata) ∧
        (compatLoop ⟨t, patternDriver fails, false⟩ type ops m).2.msr
          = (ioctlLoop ⟨t, patternDriver fails, true⟩ ops m').2.2.msr) ↔
      Idle type ops m := by
  induction ops generalizing m m' with
  | nil => exact iff_of_true ⟨rfl, hmsr⟩ trivial
  | cons op rest ih =>
      obtain ⟨hcpu, hf, hrest⟩ := hok
      obtain ⟨a, ha⟩ := compatOp_of_ok false type hcpu hf
      obtain ⟨a', ha'⟩ := ioctlOp_of_ok true hcpu (hlen ▸ hf)
      rw [← perform_congr hmsr] at ha'
      have hrest' : NoneFails t fails (m.log ++ [a]).length rest := by
        rwa [List.length_append, List.length_singleton]
      have hlen' : (m.log ++ [a]).length = (m'.log ++ [a']).length := by
        rw [List.length_append, List.length_append, hlen, List.length_singleton,
          List.length_singleton]
      simp only [compatLoop, ioctlLoop, ha, ha', List.map_cons, List.cons.injEq, and_assoc]
      by_cases hflag : op.isrdmsr = type.flag
      · -- the same access on both sides
        rw [hflag, eq_self, true_and]
        refine (@ih ⟨(perform type.flag op m).2, m.log ++ [a]⟩
          ⟨(perform type.flag op m).2, m'.log ++ [a']⟩ rfl hlen' hrest').trans ?_
        simp only [Idle, hflag, if_true]
        cases type with
        | read => exact idle_congr rfl
        | write => exact idle_congr rfl
      · -- one side reads and the other writes
        rw [perform_fst_eq_iff (Ne.symm hflag)]
        simp only [Idle, hflag, if_false]
        refine and_congr_right fun hreg => ?_
        have hmsr' : (perform type.flag op m).2 = (perform op.isrdmsr op m).2 := by
          rw [perform_snd_of_eq hreg, perform_snd_of_eq hreg]
        exact (@ih ⟨(perform type.flag op m).2, m.log ++ [a]⟩
          ⟨(perform op.isrdmsr op m).2, m'.log ++ [a']⟩ hmsr' hlen' hrest').trans
          (idle_congr (perform_snd_of_eq hreg _))

/-- Switching flags changes neither CPU nor register of an operation. -/
theorem noneFails_switchFlags (type : BatchType) {i : Nat} :
    NoneFails t fails i (switchFlags type ops) ↔ NoneFails t fails i ops := by
  have hmap : ∀ (i : Nat) (l : List MsrBatchOp),
      NoneFails t fails i (l.map fun op => { op with isrdmsr := type.flag }) ↔
        NoneFails t fails i l := by
    intro i l
    induction l generalizing i with
    | nil => exact Iff.rfl
    | cons op rest ih => simp only [List.map_cons, NoneFails, ih]
  cases ops with
  | nil => exact Iff.rfl
  | cons op rest =>
      by_cases hop : op.isrdmsr = type.flag
      · rw [switchFlags, if_pos hop]
      · rw [switchFlags, if_neg hop, hmap]

/-- The slow path does not look at the flags. -/
theorem compatLoop_switchFlags (e : MsrEnv) (m : Machine) :
    (compatLoop e type (switchFlags type ops) m).1.map (·.msrdata)
        = (compatLoop e type ops m).1.map (·.msrdata) ∧
      (compatLoop e type (switchFlags type ops) m).2 = (compatLoop e type ops m).2 := by
  have hmap : ∀ (l : List MsrBatchOp) (m : Machine),
      (compatLoop e type (l.map fun op => { op with isrdmsr := type.flag }) m).1.map (·.msrdata)
          = (compatLoop e type l m).1.map (·.msrdata) ∧
        (compatLoop e type (l.map fun op => { op with isrdmsr := type.flag }) m).2
          = (compatLoop e type l m).2 := by
    intro l
    induction l with
    | nil => exact fun m => ⟨rfl, rfl⟩
    | cons op rest ih =>
        intro m
        have hop : (compatOp e type { op with isrdmsr := type.flag } m).2
              = (compatOp e type op m).2 ∧
            (compatOp e type { op with isrdmsr := type.flag } m).1.msrdata
              = (compatOp e type op m).1.msrdata := by
          cases type <;> exact ⟨rfl, rfl⟩
        obtain ⟨hd, hm⟩ := ih (compatOp e type op m).2
        simp only [compatLoop, List.map_cons, hop.1, hop.2, hd, hm, true_and]
  cases ops with
  | nil => exact ⟨rfl, rfl⟩
  | cons op rest =>
      by_cases hop : op.isrdmsr = type.flag
      · rw [switchFlags, if_pos hop]
        exact ⟨rfl, rfl⟩
      · rw [switchFlags, if_neg hop]
        exact hmap (op :: rest) m

end Loop

/-! ### The comparison -/

/-- The batches on which the two paths agree: those with an operation in them,
no failing operation, and idle ones among those flagged against the request
after the flags were looked at. -/
def CompatPre (t : Topology) (fails : Nat → Nat → Nat → Bool) (type : BatchType)
    (ops : List MsrBatchOp) (m : Machine) : Prop :=
  ops ≠ [] ∧ NoneFails t fails m.log.length ops ∧ Idle type (switchFlags type ops) m

/-- **The slow path refines the fast one exactly where the paths agree.**  For every
batch and every pattern of refused accesses, the loop of single reads and writes has the
outcome of the one ioctl exactly when the batch has an operation, none of them fails,
and each one that is still flagged against the request after the first look at the flags
finds its register holding its data already. -/
theorem compat_iff (t : Topology) (fails : Nat → Nat → Nat → Bool) (type : BatchType)
    (batchnum : Nat) (st : MsrState) :
    SameOutcome batchnum (doBatchOp ⟨t, patternDriver fails, false⟩ type batchnum st)
        (doBatchOp ⟨t, patternDriver fails, true⟩ type batchnum st) ↔
      (batchnum + 1 < 2 ^ 31 → ∀ ops, (st.store.slot batchnum).live = some ops →
        CompatPre t fails type ops st.machine) := by
  rcases Nat.lt_or_ge (batchnum + 1) (2 ^ 31) with hb | hb
  swap
  -- a batch number that is out of range is refused by both paths alike
  · rw [doBatchOp_of_ge hb, doBatchOp_of_ge hb]
    exact iff_of_true trivial fun h => absurd hb (Nat.not_le.mpr h)
  rcases hlive : (st.store.slot batchnum).live with - | ops
  -- a slot without a batch is refused by both as well
  · rw [doBatchOp_of_not_live hlive, doBatchOp_of_not_live hlive]
    exact iff_of_true trivial fun _ ops h => by cases h
  have hright : (batchnum + 1 < 2 ^ 31 → ∀ ops', some ops = some ops' →
      CompatPre t fails type ops' st.machine) ↔ CompatPre t fails type ops st.machine := by
    exact ⟨fun h => h hb ops rfl, fun h _ _ heq => Option.some.inj heq ▸ h⟩
  rw [hright]
  obtain ⟨s, hslow, hslot⟩ :=
    doBatchOp_slow (e := ⟨t, patternDriver fails, false⟩) type hb rfl hlive
  -- the fast path refuses an empty batch, the compatibility path does nothing and succeeds
  by_cases hne : ops = []
  · subst hne
    obtain ⟨s', hfast, -⟩ :=
      doBatchOp_empty (e := ⟨t, patternDriver fails, true⟩) type hb rfl hlive
    rw [hslow, hfast]
    refine iff_of_false ?_ fun h => h.1 rfl
    rintro ⟨hret, -⟩
    exact absurd (hret.mp rfl) (by decide)
  · obtain ⟨s', hfast, hslot'⟩ :=
      doBatchOp_fast (e := ⟨t, patternDriver fails, true⟩) type hb rfl hlive hne
    have hdata : ∀ {s₁ : BatchStorage} {ops' : List MsrBatchOp}, ops'.length = ops.length →
        s₁.slot = Function.update st.store.slot batchnum
          ((st.store.slot batchnum).withLive ops') →
        (s₁.slot batchnum).data = some (ops'.map (·.msrdata)) := by
      intro s₁ ops' hlen hs₁
      rw [hs₁, Function.update_self, MsrBatch.data, MsrBatch.live_withLive hlive hlen,
        Option.map_some]
    rw [hslow, hfast]
    simp only [SameOutcome, true_iff, true_imp_iff,
      hdata (compatLoop_length ops st.machine) hslot,
      hdata ((ioctlLoop_length _ st.machine).trans (switchFlags_length ops)) hslot',
      Option.some.injEq]
    rw [← (compatLoop_switchFlags _ _).1, ← (compatLoop_switchFlags _ _).2]
    have hok : ((if (ioctlLoop ⟨t, patternDriver fails, true⟩ (switchFlags type ops)
          st.machine).1 = true then (0 : Int) else -1) = 0) ↔
        NoneFails t fails st.machine.log.length ops := by
      rw [← noneFails_switchFlags type, ← ioctlLoop_fst_iff true]
      split <;> simp [*]
    rw [hok, CompatPre, ne_eq, iff_true_intro hne, true_and]
    -- where no operation fails, only the flags set against the request can tell the loops apart
    refine and_congr_right fun hnone => ?_
    exact loops_agree_iff rfl rfl ((noneFails_switchFlags type).mpr hnone)

/-- One operation, refused by the driver: the kernel reports it, the slow path
does not. -/
theorem compatibilityBatch_drops_failure :
    ¬ SameOutcome 0
        (doBatchOp ⟨twoSockets, patternDriver fun _ _ _ => true, false⟩ .read 0
          ⟨⟨some [⟨some ⟨0, [⟨0, true, 0, 0x611, 0⟩]⟩, 1, 1⟩], 1⟩, ⟨fun _ _ => 5, []⟩, []⟩)
        (doBatchOp ⟨twoSockets, patternDriver fun _ _ _ => true, true⟩ .read 0
          ⟨⟨some [⟨some ⟨0, [⟨0, true, 0, 0x611, 0⟩]⟩, 1, 1⟩], 1⟩, ⟨fun _ _ => 5, []⟩, []⟩) := by
  rintro ⟨hret, -⟩
  exact absurd (hret.mp rfl) (by decide)

end Variorum
