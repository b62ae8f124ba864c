/-
Variorum/SocketRatio.lean

The ratios of a node: `get_max_non_turbo_ratio`, `get_max_efficiency_ratio` and
`get_min_operating_ratio`.

Each reads a field of `MSR_PLATFORM_INFO` of all sockets through a batch that it
keeps, and gives the field of socket 0, times 100, if the sockets match.  It
compares socket 0 with socket 1 and with no other.  `getRatio_spec` says what a
call does to a batch that is unused or loaded, and `ratioAgreement_iff` for which
registers this is what it should.
-/
import Variorum.FlatIndex

namespace Variorum

open History

/-! ### Reading a kept batch -/

/-- Unused, or loaded as its function loads it. -/
def FeatureState.BatchKept (t : Topology) (b : Nat) (loads : List BatchLoad) (st : FeatureState) :
    Prop :=
  st.Unused b ∨ st.Loaded t b loads

/-- From `st` to `st'` only batch `b` has changed, and registers were at most read. -/
structure ReadsOnly (b : Nat) (st st' : FeatureState) : Prop where
  sameBut : st.SameBut b st'
  contents : st'.msr.machine.msr = st.msr.machine.msr
  grows : st.msr.machine.log <+: st'.msr.machine.log

section Reading

variable {e : MsrEnv} {t : Topology} {b bsize n i : Nat} {st st' st'' : FeatureState}
variable {load : BatchLoad} {loads : List BatchLoad} {ops : List MsrBatchOp} {m : Machine}

/-- A batch of reads that are let through succeeds. -/
theorem ioctlLoop_ok (hcpu : ∀ op ∈ ops, op.cpu.toNat < e.topo.nthreads)
    (hflag : ∀ op ∈ ops, op.isrdmsr = true)
    (hacc : Accepted e.driver.fails m.log.length (ops.map (·.readAccess))) :
    (ioctlLoop e ops m).1 = true := by
  induction ops generalizing m with
  | nil => rfl
  | cons op ops ih =>
      obtain ⟨hcpu, hcpus⟩ := List.forall_mem_cons.mp hcpu
      obtain ⟨hflag, hflags⟩ := List.forall_mem_cons.mp hflag
      obtain ⟨hok, haccs⟩ := hacc
      have hop : (ioctlOp e op m).1 = true := by
        have hfails : e.driver.fails m.log.length ⟨.read, op.cpu.toNat, op.msr.toNat⟩ = false := hok
        simp [ioctlOp, hcpu, hflag, Machine.pread, hfails]
      have hlog : (ioctlOp e op m).2.2.log.length = m.log.length + 1 := by
        rw [(ioctlOp_reads hcpu hflag m).machine]
        simp
      show ((ioctlOp e op m).1 && (ioctlLoop e ops (ioctlOp e op m).2.2).1) = true
      rw [hop, Bool.true_and]
      exact ih hcpus hflags (hlog ▸ haccs)

/-- So does `read_batch`, on either path. -/
theorem readBatch_ok {s : BatchStorage} {addr room : Nat} (ioctls : List Submission)
    (hb : b + 1 < 2 ^ 31) (hne : ops ≠ []) (hs : s.slot b = .loaded addr ops room)
    (hu : Uniform e.topo ops)
    (hacc : Accepted e.driver.fails m.log.length (ops.map (·.readAccess))) :
    ∃ st', readBatch e b ⟨s, m, ioctls⟩ = some (0, st') := by
  have hlive : ((⟨s, m, ioctls⟩ : MsrState).store.slot b).live = some ops := by
    rw [hs, MsrBatch.loaded_live]
  cases hfd : e.batchfd with
  | true =>
      obtain ⟨s', hrun, -⟩ := doBatchOp_fast .read hb hfd hlive hne
      have hflagged := flagged_uniform hu .read
      have hok : (ioctlLoop e (switchFlags .read ops) m).1 = true := by
        rw [switchFlags_uniform hu]
        apply ioctlLoop_ok hflagged.1 hflagged.2
        rwa [List.map_map]
      rw [hok, if_pos rfl] at hrun
      exact ⟨_, hrun⟩
  | false =>
      obtain ⟨s', hrun, -⟩ := doBatchOp_slow .read hb hfd hlive
      exact ⟨_, hrun⟩

namespace FeatureState

/-- The `if (!init)` block, with room for its loads. -/
theorem BatchKept.init (hst : st.BatchKept t b loads) (hb : b + 1 < 2 ^ 31)
    (hroom : (loads.map fun load => load.count t).sum ≤ bsize % 2 ^ 32) :
    ∃ st', initBatch t b bsize loads st = some st' ∧ st'.Loaded t b loads ∧ ReadsOnly b st st' := by
  rcases hst with hunused | ⟨ops, hholds⟩
  · obtain ⟨st', hrun, hholds⟩ := initBatch_holds hunused hb loads hroom
    obtain ⟨hsame, hmachine⟩ := initBatch_sameBut hrun
    exact ⟨st', hrun, ⟨_, hholds⟩, hsame, congrArg Machine.msr hmachine,
      hmachine ▸ List.prefix_refl _⟩
  · exact ⟨st, hholds.init bsize loads, ⟨ops, hholds⟩, .refl b st, rfl, List.prefix_refl _⟩

/-- **Reading a kept batch.**  If nothing is refused, the read succeeds and every entry
of the tables holds its register, the CPU by the 16 bits of its field. -/
theorem Loaded.readValues (h : st.Loaded e.topo b loads) (hb : b + 1 < 2 ^ 31) (hne : loads ≠ []) :
    ∃ err st', st.read e b = some (err, st') ∧ st'.Loaded e.topo b loads ∧ ReadsOnly b st st' ∧
      (st.msr.machine.Clean e.driver st'.msr.machine → err = 0 ∧
        ∀ n load, loads[n]? = some load → ∀ i : Nat, i < load.count e.topo →
          st'.peek b n i = some (narrowed st.msr.machine.msr (load.dev e.topo i) load.msr)) := by
  obtain ⟨ops, h⟩ := h
  have hops := h.ops_ne_nil hne
  obtain ⟨err, st', hrun, h', hmachine⟩ := h.read hb hops
  have himage := readOps_image h.uniform st.msr.machine
  have hgrows : st'.msr.machine.log = st.msr.machine.log ++ ops.map (·.readAccess) := by
    rw [hmachine, himage.machine]
  refine ⟨err, st', hrun, ⟨_, h'⟩, ⟨read_sameBut hrun, ?_, hgrows ▸ List.prefix_append _ _⟩, ?_⟩
  · rw [hmachine, himage.machine]
  intro hclean
  have hacc : Accepted e.driver.fails st.msr.machine.log.length (ops.map (·.readAccess)) := by
    rwa [Machine.Clean, hgrows, clean_append_iff] at hclean
  constructor
  · obtain ⟨addr, room, vals, hslot, -, -⟩ := h.place
    obtain ⟨msr', hok⟩ := readBatch_ok st.msr.ioctls hb hops hslot h.uniform hacc
    have hread : st.read e b = some (0, { st with msr := msr' }) := by
      rw [FeatureState.read]
      exact congrArg (Option.map _) hok
    exact congrArg Prod.fst (Option.some.inj (hrun.symm.trans hread))
  · intro n load hload i hi
    -- the entry of the table is the data of the operation that the load made for it
    have hreg : (ops.map (·.register))[loadStart e.topo loads n + i]?
        = some (load.dev e.topo i % 2 ^ 16, load.msr) := by
      rw [h.register]
      exact loadRegisters_getElem? hload hi
    rw [h'.peek hload hi, ← List.getElem?_map, himage.data, image_of_accepted hacc]
    rw [List.getElem?_map] at hreg ⊢
    obtain ⟨op, hop, hregister⟩ := Option.map_eq_some_iff.mp hreg
    rw [hop, Option.map_some]
    obtain ⟨hcpu, hmsr⟩ := Prod.mk.inj hregister
    rw [hcpu, hmsr]
    rfl

theorem BatchKept.of_sameAt (h : st.BatchKept t b loads) (hsame : SameAt b st st') :
    st'.BatchKept t b loads :=
  h.imp (·.of_sameAt hsame) (·.of_sameAt hsame)

theorem BatchKept.found (h : st.BatchKept t b loads) (contents : Nat → Nat → BitVec 64) :
    (st.found contents).BatchKept t b loads :=
  h.imp id (·.found contents)

/-- What is looked at in a batch that has not changed. -/
theorem SameAt.peek (h : SameAt b st st') (n : Nat) (i : Int) :
    st'.peek b n i = st.peek b n i := by
  simp only [FeatureState.peek, deref, h.slot, h.tables]

end FeatureState

theorem ReadsOnly.trans (h : ReadsOnly b st st') (h' : ReadsOnly b st' st'') :
    ReadsOnly b st st'' :=
  ⟨h.sameBut.trans h'.sameBut, h'.contents.trans h.contents, h.grows.trans h'.grows⟩

end Reading

/-! ### The functions -/

/-- The members of `enum variorum_data_type_e` that the other two read. -/
def MIN_OPERATING_RATIO : Nat := 30
def MAX_EFFICIENCY : Nat := 31

/-- The common body: the batch that is kept, the bits of the field, the register.  The
return value and `*val`. -/
def getRatio (e : MsrEnv) (batchnum m n : Nat) (msrPlatformInfo : BitVec 32) (st : FeatureState) :
    Option (Int × Int × FeatureState) := do
  let st ← initBatch e.topo batchnum e.topo.nsockets [.socket msrPlatformInfo] st
  let (err, st) ← st.read e batchnum
  if err ≠ 0 then return (-1, 0, st)
  let raw ← st.peek batchnum 0 0
  let ratio : Int := (maskVal raw m n).toNat
  -- "Do sockets match?"
  if e.topo.nsockets ≠ 1 then
    let raw ← st.peek batchnum 0 1
    if ratio ≠ (maskVal raw m n).toNat then return (VariorumError.inval.code, 0, st)
    return (0, ratio * 100, st)
  return (0, ratio * 100, st)

/-- `get_max_efficiency_ratio`. -/
def getMaxEfficiencyRatio (e : MsrEnv) (msrs : FeatureMsrs) (st : FeatureState) :
    Option (Int × Int × FeatureState) :=
  getRatio e MAX_EFFICIENCY 47 40 msrs.platformInfo st

/-- `get_min_operating_ratio`. -/
def getMinOperatingRatio (e : MsrEnv) (msrs : FeatureMsrs) (st : FeatureState) :
    Option (Int × Int × FeatureState) :=
  getRatio e MIN_OPERATING_RATIO 55 48 msrs.platformInfo st

/-- `get_max_non_turbo_ratio` is the same. -/
theorem getMaxNonTurboRatio_eq (e : MsrEnv) (msrs : FeatureMsrs) (st : FeatureState) :
    getMaxNonTurboRatio e msrs st = getRatio e PLATFORM_INFO 15 8 msrs.platformInfo st := rfl

/-- The three functions, each with a field of the register. -/
inductive RatioCall
  | maxNonTurbo
  | maxEfficiency
  | minOperating

namespace RatioCall

def run (e : MsrEnv) (msrs : FeatureMsrs) (st : FeatureState) :
    RatioCall → Option (Int × Int × FeatureState)
  | maxNonTurbo => getMaxNonTurboRatio e msrs st
  | maxEfficiency => getMaxEfficiencyRatio e msrs st
  | minOperating => getMinOperatingRatio e msrs st

/-- The batch that the function keeps. -/
def batchnum : RatioCall → Nat
  | maxNonTurbo => PLATFORM_INFO
  | maxEfficiency => MAX_EFFICIENCY
  | minOperating => MIN_OPERATING_RATIO

/-- Its field in a register. -/
def field (reg : BitVec 64) : RatioCall → Nat
  | maxNonTurbo => (maskVal reg 15 8).toNat
  | maxEfficiency => (maskVal reg 47 40).toNat
  | minOperating => (maskVal reg 55 48).toNat

/-- The ratio of a socket. -/
def ratio (t : Topology) (msrs : FeatureMsrs) (contents : Nat → Nat → BitVec 64) (i : Nat)
    (c : RatioCall) : Nat :=
  c.field (contents (t.cpu i 0 0) msrs.platformInfo.toNat)

end RatioCall

/-! ### What is asked of a call -/

/-- All sockets have the same ratio. -/
def SocketsAgree (t : Topology) (msrs : FeatureMsrs) (contents : Nat → Nat → BitVec 64)
    (c : RatioCall) : Prop :=
  ∀ i < t.nsockets, c.ratio t msrs contents i = c.ratio t msrs contents 0

/-- A call is defined, so it looks at no entry that is not there, and when its reads are
let through it returns 0 if all sockets have the same ratio, and then gives this
ratio, times 100, and returns an error if they do not. -/
def RatioRight (e : MsrEnv) (msrs : FeatureMsrs) (st : FeatureState) (c : RatioCall) : Prop :=
  ∃ ret val st', c.run e msrs st = some (ret, val, st') ∧
    (st.msr.machine.Clean e.driver st'.msr.machine →
      (ret = 0 ↔ SocketsAgree e.topo msrs st.msr.machine.msr c) ∧
        (ret = 0 → val = c.ratio e.topo msrs st.msr.machine.msr 0 * 100))

/-- The call is right on a node with these registers, wherever the process stands. -/
def RatioAgreement (t : Topology) (msrs : FeatureMsrs) (contents : Nat → Nat → BitVec 64)
    (c : RatioCall) : Prop :=
  ∀ e : MsrEnv, e.topo = t → ∀ st : FeatureState,
    st.BatchKept t c.batchnum [.socket msrs.platformInfo] → RatioRight e msrs (st.found contents) c

/-- The ratio in the register that entry 1 of the batch names, which has 16 bits for the
number of the CPU. -/
def RatioCall.second (t : Topology) (msrs : FeatureMsrs) (contents : Nat → Nat → BitVec 64)
    (c : RatioCall) : Nat :=
  c.field (contents (t.cpu 1 0 0 % 2 ^ 16) msrs.platformInfo.toNat)

/-- The comparison of one pair tells: the sockets agree, and the second entry, if there
is one, agrees as well; or they do not, and neither does the second entry. -/
def SecondTells (t : Topology) (msrs : FeatureMsrs) (contents : Nat → Nat → BitVec 64)
    (c : RatioCall) : Prop :=
  (SocketsAgree t msrs contents c ∧
      (t.nsockets = 1 ∨ c.second t msrs contents = c.ratio t msrs contents 0)) ∨
    (¬ SocketsAgree t msrs contents c ∧ t.nsockets ≠ 1 ∧
      c.second t msrs contents ≠ c.ratio t msrs contents 0)

/-! ### A call -/

section Call

variable {e : MsrEnv} {t : Topology} {msrs : FeatureMsrs} {b m n : Nat} {msr : BitVec 32}
variable {st : FeatureState} {c : RatioCall}

/-- **The common body.**  The registers that entries 0 and 1 name decide. -/
theorem getRatio_spec (hst : st.BatchKept e.topo b [.socket msr]) (hb : b + 1 < 2 ^ 31) :
    let field (i : Nat) : Nat :=
      (maskVal (narrowed st.msr.machine.msr (e.topo.cpu i 0 0) msr.toNat) m n).toNat
    ∃ ret val st', getRatio e b m n msr st = some (ret, val, st') ∧
      st'.Loaded e.topo b [.socket msr] ∧ ReadsOnly b st st' ∧
      (st.msr.machine.Clean e.driver st'.msr.machine →
        (ret, val) = if e.topo.nsockets = 1 ∨ field 1 = field 0 then (0, (field 0 * 100 : Int))
          else (VariorumError.inval.code, 0)) := by
  intro field
  have hroom : ([BatchLoad.socket msr].map fun load => load.count e.topo).sum
      ≤ e.topo.nsockets % 2 ^ 32 := (BatchLoad.socket msr).count_mod e.topo
  obtain ⟨st₁, hinit, hloaded₁, hreads₁⟩ := hst.init hb hroom
  obtain ⟨err, st₂, hread, hloaded₂, hreads₂, hvalues⟩ :=
    hloaded₁.readValues hb (List.cons_ne_nil _ _)
  have hreads := hreads₁.trans hreads₂
  -- what entry `i` holds
  have hentry : ∀ i < e.topo.nsockets, ∃ raw, st₂.peek b 0 i = some raw ∧
      (st.msr.machine.Clean e.driver st₂.msr.machine → (maskVal raw m n).toNat = field i) := by
    intro i hi
    obtain ⟨raw, hraw⟩ := hloaded₂.peek (n := 0) rfl hi
    refine ⟨raw, hraw, fun hclean => ?_⟩
    obtain ⟨-, hclean₂⟩ := (clean_trans_iff hreads₁.grows hreads₂.grows).mp hclean
    have hvalue := (hvalues hclean₂).2 0 _ rfl i hi
    rw [hraw, hreads₁.contents] at hvalue
    rw [Option.some.inj hvalue]
    show _ = (maskVal (narrowed _ (e.topo.cpu i 0 0) msr.toNat) m n).toNat
    rw [Topology.cpu_socket]
    rfl
  have hok : st.msr.machine.Clean e.driver st₂.msr.machine → err = 0 := fun hclean =>
    (hvalues ((clean_trans_iff hreads₁.grows hreads₂.grows).mp hclean).2).1
  obtain ⟨raw₀, hraw₀, hfield₀⟩ := hentry 0 e.topo.nsockets_pos
  have hzero : st₂.peek b 0 0 = some raw₀ := hraw₀
  by_cases herr : err = 0
  · by_cases hone : e.topo.nsockets = 1
    · refine ⟨0, (maskVal raw₀ m n).toNat * 100, st₂, ?_, hloaded₂, hreads, fun hclean => ?_⟩
      · have hnot : ¬ e.topo.nsockets ≠ 1 := not_not.mpr hone
        simp only [getRatio, hinit, Option.bind_eq_bind, Option.bind_some, hread, herr, hzero]
        rw [if_neg (not_not.mpr rfl), if_neg hnot]
        rfl
      · rw [if_pos (.inl hone), hfield₀ hclean]
    · obtain ⟨raw₁, hraw₁, hfield₁⟩ := hentry 1 (by have := e.topo.nsockets_pos; omega)
      have hsecond : st₂.peek b 0 1 = some raw₁ := hraw₁
      by_cases hsame : (maskVal raw₀ m n).toNat = (maskVal raw₁ m n).toNat
      · refine ⟨0, (maskVal raw₀ m n).toNat * 100, st₂, ?_, hloaded₂, hreads, fun hclean => ?_⟩
        · simp [getRatio, hinit, hread, herr, hzero, hone, hsecond, hsame]
        · rw [← hfield₀ hclean, ← hfield₁ hclean, if_pos (.inr hsame.symm)]
      · refine ⟨VariorumError.inval.code, 0, st₂, ?_, hloaded₂, hreads, fun hclean => ?_⟩
        · simp [getRatio, hinit, hread, herr, hzero, hone, hsecond, hsame]
        · rw [← hfield₀ hclean, ← hfield₁ hclean, if_neg (not_or.mpr ⟨hone, Ne.symm hsame⟩)]
  · refine ⟨-1, 0, st₂, ?_, hloaded₂, hreads, fun hclean => absurd (hok hclean) herr⟩
    simp [getRatio, hinit, hread, herr]

theorem RatioCall.batchnum_lt (c : RatioCall) : c.batchnum + 1 < 2 ^ 31 := by
  cases c <;> decide

/-- A call returns 0 when the second entry agrees with the first. -/
theorem RatioCall.run_spec (c : RatioCall)
    (hst : st.BatchKept e.topo c.batchnum [.socket msrs.platformInfo]) :
    let contents := st.msr.machine.msr
    ∃ ret val st', c.run e msrs st = some (ret, val, st') ∧
      st'.Loaded e.topo c.batchnum [.socket msrs.platformInfo] ∧ ReadsOnly c.batchnum st st' ∧
      (st.msr.machine.Clean e.driver st'.msr.machine →
        (ret, val) = if e.topo.nsockets = 1 ∨
            c.second e.topo msrs contents = c.ratio e.topo msrs contents 0 then
          (0, (c.ratio e.topo msrs contents 0 * 100 : Int))
        else (VariorumError.inval.code, 0)) := by
  have hfirst : narrowed st.msr.machine.msr (e.topo.cpu 0 0 0)
      = st.msr.machine.msr (e.topo.cpu 0 0 0) := by
    rw [narrowed, Topology.cpu_socket, Nat.zero_mul, Nat.zero_mod]
  have hspec : ∀ m n, _ := fun m n => getRatio_spec (m := m) (n := n) hst c.batchnum_lt
  simp only [hfirst] at hspec
  cases c with
  | maxNonTurbo =>
      rw [RatioCall.run, getMaxNonTurboRatio_eq]
      exact hspec 15 8
  | maxEfficiency => exact hspec 47 40
  | minOperating => exact hspec 55 48

/-- Seen from the outside: what is compared decides over the return value. -/
theorem RatioCall.run_ret (c : RatioCall)
    (hst : st.BatchKept e.topo c.batchnum [.socket msrs.platformInfo]) :
    let contents := st.msr.machine.msr
    ∃ ret val st', c.run e msrs st = some (ret, val, st') ∧
      st.msr.machine.log <+: st'.msr.machine.log ∧
      (st.msr.machine.Clean e.driver st'.msr.machine →
        (ret = 0 ↔ e.topo.nsockets = 1 ∨
            c.second e.topo msrs contents = c.ratio e.topo msrs contents 0) ∧
          (ret = 0 → val = c.ratio e.topo msrs contents 0 * 100)) := by
  intro contents
  obtain ⟨ret, val, st', hrun, -, hreads, hret⟩ := c.run_spec hst
  refine ⟨ret, val, st', hrun, hreads.grows, fun hclean => ?_⟩
  have hpair := hret hclean
  split at hpair
  · next htell =>
      obtain ⟨rfl, rfl⟩ := Prod.mk.inj hpair
      exact ⟨iff_of_true rfl htell, fun _ => rfl⟩
  · next htell =>
      obtain ⟨rfl, rfl⟩ := Prod.mk.inj hpair
      have hne := VariorumError.inval.code_ne_zero
      exact ⟨iff_of_false hne htell, fun h => absurd h hne⟩

theorem secondTells_iff (t : Topology) (msrs : FeatureMsrs) (contents : Nat → Nat → BitVec 64)
    (c : RatioCall) :
    SecondTells t msrs contents c ↔
      ((t.nsockets = 1 ∨ c.second t msrs contents = c.ratio t msrs contents 0) ↔
        SocketsAgree t msrs contents c) := by
  unfold SecondTells
  tauto

theorem ratioRight_of_tells (hst : st.BatchKept e.topo c.batchnum [.socket msrs.platformInfo])
    (htells : SecondTells e.topo msrs st.msr.machine.msr c) : RatioRight e msrs st c := by
  obtain ⟨ret, val, st', hrun, -, hret⟩ := c.run_ret hst
  refine ⟨ret, val, st', hrun, fun hclean => ?_⟩
  obtain ⟨hzero, hval⟩ := hret hclean
  exact ⟨hzero.trans ((secondTells_iff _ _ _ c).mp htells), hval⟩

theorem tells_of_ratioRight (hst : st.BatchKept e.topo c.batchnum [.socket msrs.platformInfo])
    (hnever : ∀ n a, e.driver.fails n a = false) (h : RatioRight e msrs st c) :
    SecondTells e.topo msrs st.msr.machine.msr c := by
  obtain ⟨ret, val, st', hrun, hgrows, hret⟩ := c.run_ret hst
  obtain ⟨ret', val', st'', hrun', hright⟩ := h
  obtain ⟨rfl, rfl, rfl⟩ : ret' = ret ∧ val' = val ∧ st'' = st' := by
    simpa using hrun'.symm.trans hrun
  have hclean : st.msr.machine.Clean e.driver st''.msr.machine := clean_of_never hnever hgrows
  rw [secondTells_iff]
  exact (hret hclean).1.symm.trans (hright hclean).1

theorem tells_of_agreement {contents : Nat → Nat → BitVec 64}
    (h : RatioAgreement t msrs contents c) : SecondTells t msrs contents c := by
  let e : MsrEnv := ⟨t, ⟨fun _ _ => false⟩, true⟩
  have hstart : FeatureState.start.BatchKept t c.batchnum [.socket msrs.platformInfo] :=
    .inl ⟨rfl, rfl⟩
  have hfound : (FeatureState.start.found contents).BatchKept t c.batchnum
      [.socket msrs.platformInfo] := .inl ⟨rfl, rfl⟩
  have hcall : RatioRight e msrs (FeatureState.start.found contents) c := h e rfl .start hstart
  exact tells_of_ratioRight hfound (fun _ _ => rfl) hcall

/-- **The three functions, exactly**: right on the registers on which the second socket
tells, since it is the only one that they compare with the first. -/
theorem ratioAgreement_iff (t : Topology) (msrs : FeatureMsrs)
    (contents : Nat → Nat → BitVec 64) (c : RatioCall) :
    RatioAgreement t msrs contents c ↔ SecondTells t msrs contents c := by
  constructor
  · exact tells_of_agreement
  · rintro htells e rfl st hst
    exact ratioRight_of_tells (hst.found contents) htells

/-- Where the number of the second socket's CPU fits, it tells if it differs from the
first, or all sockets agree. -/
theorem secondTells_of_fits {t : Topology} (hfit : t.coresPerSocket < 2 ^ 16)
    (msrs : FeatureMsrs) (contents : Nat → Nat → BitVec 64) (c : RatioCall) :
    SecondTells t msrs contents c ↔
      (t.nsockets ≠ 1 ∧ c.ratio t msrs contents 1 ≠ c.ratio t msrs contents 0) ∨
        SocketsAgree t msrs contents c := by
  have hsecond : c.second t msrs contents = c.ratio t msrs contents 1 := by
    rw [RatioCall.second, Topology.cpu_socket, Nat.one_mul, Nat.mod_eq_of_lt hfit,
      RatioCall.ratio, Topology.cpu_socket, Nat.one_mul]
  have hpos := t.nsockets_pos
  rw [secondTells_iff, hsecond]
  constructor
  · intro h
    by_cases hagree : SocketsAgree t msrs contents c
    · exact .inr hagree
    · exact .inl (not_or.mp (mt h.mp hagree))
  · rintro (⟨hmany, hne⟩ | hagree)
    · refine iff_of_false (not_or.mpr ⟨hmany, hne⟩) fun hagree => hne (hagree 1 (by omega))
    · refine iff_of_true ?_ hagree
      by_cases hone : t.nsockets = 1
      · exact .inl hone
      · exact .inr (hagree 1 (by omega))

end Call

/-- Three sockets of one core each. -/
def threeSockets : Topology where
  nsockets := 3
  ncores := 3
  nthreads := 3
  nsockets_pos := by decide
  ncores_pos := by decide
  nthreads_pos := by decide
  nsockets_dvd := by decide
  ncores_dvd := by decide
  nthreads_lt := by decide

/-- A maximum ratio of 20 on socket 2, of 16 on the others. -/
def oddThird : Nat → Nat → BitVec 64 := fun cpu _ => if cpu = 2 then 0x1400 else 0x1000

/-- The registers of 06_4F. -/
def fm064fFeatureMsrs : FeatureMsrs where
  aperf := 0xE8
  mperf := 0xE7
  tsc := 0x10
  perfStatus := 0x198
  platformInfo := 0xCE
  thermStat := 0x19C
  pkgThermStat := 0x1B1
  tempTarget := 0x1A2

/-- The odd one out is not noticed. -/
theorem not_ratioAgreement_three :
    ¬ RatioAgreement threeSockets fm064fFeatureMsrs oddThird .maxNonTurbo := by
  intro h
  rcases (secondTells_of_fits (by decide) _ _ _).mp (tells_of_agreement h) with ⟨-, hne⟩ | hagree
  · exact hne (by decide)
  · exact absurd (hagree 2 (by decide)) (by decide)

end Variorum
