/-
Variorum/NodeCap.lean

The best-effort power limit of an Intel node.

`intel_cpu_fm_06_4f_cap_best_effort_node_power_limit` rounds the limit of the
node down to a multiple of the number of sockets and caps every socket with its
share, so that "we will guarantee that we stay under the specified cap".  A cap
is encoded in the units of the socket and decoded in them again without a loss
(`pkgLimit_toInt`, `capSockets_applies_iff`), and keeps the second limit
(`capSockets_upper`), so all that can go wrong is which CPU's registers are
used.  `keepsBudget_iff` says for which nodes they are the socket's own.
-/
import Mathlib.Algebra.BigOperators.Ring.Finset
import Variorum.CapFailure
import Variorum.PowerCapExact

namespace Variorum

open Fm064f History

/-! ### The function -/

/-- The limit for each socket: the lines of
`intel_cpu_fm_06_4f_cap_best_effort_node_power_limit` between the topology and
the call.  `node_limit` becomes unsigned for the remainder and the quotient. -/
def pkgLimit (t : Topology) (nodeLimit : BitVec 32) : BitVec 32 :=
  let nsockets := BitVec.ofNat 32 t.nsockets
  let remainder := nodeLimit % nsockets
  let nodeLimit := if remainder = 0 then nodeLimit else nodeLimit - remainder
  nodeLimit / nsockets

/-- `intel_cpu_fm_06_4f_cap_best_effort_node_power_limit`. -/
def intelCpuFm064fCapBestEffortNodePowerLimit (e : MsrEnv) (nodeLimit : BitVec 32) :
    Call PowerState :=
  fun st =>
    (intelCpuFm064fCapPowerLimits e (pkgLimit e.topo nodeLimit) st).map fun (_, st) => (0, st)

/-! ### What it is for -/

section Spec

variable (t : Topology) (m : Machine) (socket : Nat)

/-- The unit register of a socket. -/
def unitReg : BitVec 64 := m.msr (t.cpu socket 0 0) msrRaplPowerUnit

/-- The power limit register of a socket. -/
def limitsReg : BitVec 64 := m.msr (t.cpu socket 0 0) msrPkgPowerLimit

/-- The watts of limit 1 of a socket. -/
def limit1Watts : ℚ := (decodeLimit (unitReg t m socket) (limitsReg t m socket) 0).watts

/-- From `m` to `m'` the node was limited: all sockets alike, to less than
`nsockets` watts below the limit in all, and the second limits are what they
were. -/
structure StaysUnder (nodeLimit : BitVec 32) (m m' : Machine) : Prop where
  alike : ∀ s < t.nsockets, ∀ s' < t.nsockets, limit1Watts t m' s = limit1Watts t m' s'
  lt_sum : (nodeLimit.toInt : ℚ) - t.nsockets
    < ∑ s ∈ Finset.range t.nsockets, limit1Watts t m' s
  sum_le : ∑ s ∈ Finset.range t.nsockets, limit1Watts t m' s ≤ nodeLimit.toInt
  limit2 : ∀ s < t.nsockets, maskVal (limitsReg t m' s) 63 32 = maskVal (limitsReg t m s) 63 32

/-- The table of `translate`, if it is there already, has the power units of the
sockets. -/
def UnitsKnown (st : PowerState) : Prop :=
  ∀ ru, st.ru = some ru →
    ∀ s < t.nsockets, powerUnit (ru s) = powerUnit (unitReg t st.machine s)

/-- The function does what it is for on this node, whatever is in the registers. -/
def KeepsBudget : Prop :=
  ∀ (d : Driver) (batchfd : Bool) (st : PowerState) (nodeLimit : BitVec 32) (ret : Int)
    (st' : PowerState),
    0 ≤ nodeLimit.toInt → UnitsKnown t st →
    (∀ s < t.nsockets,
      nodeLimit.toInt / t.nsockets * 2 ^ powerUnit (unitReg t st.machine s) < 2 ^ 15) →
    intelCpuFm064fCapBestEffortNodePowerLimit ⟨t, d, batchfd⟩ nodeLimit st = some (ret, st') →
    st.machine.Clean d st'.machine →
    StaysUnder t nodeLimit st.machine st'.machine

end Spec

/-! ### The share of a socket -/

theorem pkgLimit_toNat (t : Topology) (nodeLimit : BitVec 32) :
    (pkgLimit t nodeLimit).toNat = nodeLimit.toNat / t.nsockets := by
  have hlt := t.nsockets_lt
  have hn : (BitVec.ofNat 32 t.nsockets).toNat = t.nsockets := by
    rw [BitVec.toNat_ofNat, Nat.mod_eq_of_lt (by omega)]
  have hmod : (nodeLimit % BitVec.ofNat 32 t.nsockets).toNat = nodeLimit.toNat % t.nsockets := by
    rw [BitVec.toNat_umod, hn]
  -- the remainder is at most the limit, so the subtraction does not wrap
  have hle : nodeLimit.toNat % t.nsockets ≤ nodeLimit.toNat := Nat.mod_le _ _
  have hlimit := nodeLimit.isLt
  simp only [pkgLimit, BitVec.toNat_udiv, hn]
  split
  · rfl
  · have hsub : (nodeLimit - nodeLimit % BitVec.ofNat 32 t.nsockets).toNat
        = nodeLimit.toNat - nodeLimit.toNat % t.nsockets := by
      rw [BitVec.toNat_sub, hmod]
      omega
    rw [hsub, ← Nat.div_eq_sub_mod_div]

/-- **The share is the quotient**, rounded down. -/
theorem pkgLimit_toInt (t : Topology) {nodeLimit : BitVec 32} (h : 0 ≤ nodeLimit.toInt) :
    (pkgLimit t nodeLimit).toInt = nodeLimit.toInt / t.nsockets := by
  have hnat : nodeLimit.toInt = nodeLimit.toNat := by
    rw [BitVec.toInt_eq_toNat_cond] at h ⊢
    split at h
    · next hlt => rw [if_pos hlt]
    · have hlimit := nodeLimit.isLt
      omega
  have hlt : 2 * nodeLimit.toNat < 2 ^ 32 := by
    have hmax : nodeLimit.toInt < 2 ^ 31 := BitVec.toInt_lt
    omega
  have hle : nodeLimit.toNat / t.nsockets ≤ nodeLimit.toNat := Nat.div_le_self _ _
  rw [BitVec.toInt_eq_toNat_of_lt (by rw [pkgLimit_toNat]; omega), pkgLimit_toNat, hnat]
  norm_cast

/-! ### The second limit, and what a clean history means -/

section Calls

variable {e : MsrEnv} {socket k msrPowerLimit msrRaplUnit : Nat} {st : PowerState}

/-- A write is refused, or it stores the value. -/
theorem Machine.pwrite_msr_cases (d : Driver) (m : Machine) (cpu msr : Nat) (val : BitVec 64) :
    (m.pwrite d cpu msr val).2.msr = m.msr ∨
      (m.pwrite d cpu msr val).2.msr = m.store cpu msr val := by
  cases h : d.fails m.log.length ⟨.write, cpu, msr⟩ with
  | false => exact .inr (by rw [Machine.pwrite_of_ok d m cpu msr val h])
  | true => exact .inl (by rw [Machine.pwrite_of_fail d m cpu msr val h])

/-- A call whose read is let through keeps the upper half of every register. -/
theorem capPackagePowerLimit_upper (hs : socket < e.topo.nsockets) (hmsr : msrRaplUnit < 2 ^ 32)
    (watts : BitVec 32) (hread : ReadRefused e msrPowerLimit st socket = false) (cpu : Nat) :
    maskVal ((capPackagePowerLimit e socket watts msrPowerLimit msrRaplUnit st).2.machine.msr
        cpu msrPowerLimit) 63 32
      = maskVal (st.machine.msr cpu msrPowerLimit) 63 32 := by
  obtain ⟨ru, data, -, hcall⟩ := capPackagePowerLimit_cases hs hmsr watts msrPowerLimit st
  have hval : currentval e msrPowerLimit st socket
      = st.machine.msr (socketIndex e.topo socket) msrPowerLimit :=
    if_neg (by rw [hread]; exact Bool.false_ne_true)
  rw [hcall]
  by_cases henc : Encodable (ru socket) watts
  · simp only [if_pos henc]
    rcases Machine.pwrite_msr_cases e.driver _ (socketIndex e.topo socket) msrPowerLimit _ with
      hsame | hstore
    · rw [hsame]
    · rw [hstore]
      by_cases hcpu : cpu = socketIndex e.topo socket
      · subst hcpu
        rw [Machine.store_self, hval]
        exact capReg_upper henc _ (by decide) (by decide) (by decide)
      · rw [Machine.store_of_ne _ _ _ _ (.inl hcpu)]
  · simp only [if_neg henc]

/-- **The loop keeps the second limits.** -/
theorem capSockets_upper (hmsr : msrRaplUnit < 2 ^ 32) (hk : k ≤ e.topo.nsockets)
    (watts : BitVec 32)
    (h : st.Clean e.driver (capSockets e watts msrPowerLimit msrRaplUnit k st)) (cpu : Nat) :
    maskVal ((capSockets e watts msrPowerLimit msrRaplUnit k st).machine.msr cpu msrPowerLimit)
        63 32
      = maskVal (st.machine.msr cpu msrPowerLimit) 63 32 := by
  induction k with
  | zero => rfl
  | succ k ih =>
      rw [capSockets_succ] at h ⊢
      obtain ⟨hgrows, -, -⟩ := capSockets_spec hmsr (Nat.le_of_succ_le hk) watts msrPowerLimit st
      obtain ⟨hgrows', hclean', -⟩ := capPackagePowerLimit_spec hk hmsr watts msrPowerLimit
        (capSockets e watts msrPowerLimit msrRaplUnit k st) rfl
      obtain ⟨h, h'⟩ := (PowerState.clean_trans_iff hgrows hgrows').mp h
      have hread : ReadRefused e msrPowerLimit
          (capSockets e watts msrPowerLimit msrRaplUnit k st) k = false :=
        (hclean'.mp h').2.1
      rw [capPackagePowerLimit_upper hk hmsr watts hread, ih (Nat.le_of_succ_le hk) h]

/-- Where a limit is encodable and no access refused, nothing is reported. -/
theorem capPackagePowerLimit_clean (hs : socket < e.topo.nsockets) (hmsr : msrRaplUnit < 2 ^ 32)
    {watts : BitVec 32} (henc : Encodable (unitsInUse e msrRaplUnit st socket) watts)
    (h : st.machine.Clean e.driver
      (capPackagePowerLimit e socket watts msrPowerLimit msrRaplUnit st).2.machine) :
    st.Clean e.driver (capPackagePowerLimit e socket watts msrPowerLimit msrRaplUnit st).2 := by
  obtain ⟨ru, data, hused, hcall⟩ := capPackagePowerLimit_cases hs hmsr watts msrPowerLimit st
  refine ⟨h, ?_⟩
  rw [hcall] at h ⊢
  by_cases henc' : Encodable (ru socket) watts
  · simp only [if_pos henc']
  · -- the units come from accesses that were let through
    simp only [if_neg henc'] at h
    obtain ⟨-, hfill⟩ := (clean_append_iff _).mp h
    refine absurd ?_ henc'
    rw [hused socket hs, tableUnits_of_accepted hs]
    · exact henc
    · show Accepted _ (st.machine.log ++ [_]).length (fillAccesses e msrRaplUnit st)
      rw [List.length_append]
      exact hfill

theorem capSockets_clean (hmsr : msrRaplUnit < 2 ^ 32) (hk : k ≤ e.topo.nsockets)
    {watts : BitVec 32} (henc : ∀ s < k, Encodable (unitsInUse e msrRaplUnit st s) watts)
    (h : st.machine.Clean e.driver
      (capSockets e watts msrPowerLimit msrRaplUnit k st).machine) :
    st.Clean e.driver (capSockets e watts msrPowerLimit msrRaplUnit k st) := by
  induction k with
  | zero => exact .refl _ st
  | succ k ih =>
      rw [capSockets_succ] at h ⊢
      obtain ⟨hgrows, -, hcapped⟩ :=
        capSockets_spec hmsr (Nat.le_of_succ_le hk) watts msrPowerLimit st
      obtain ⟨hgrows', -, -⟩ := capPackagePowerLimit_spec hk hmsr watts msrPowerLimit
        (capSockets e watts msrPowerLimit msrRaplUnit k st) rfl
      obtain ⟨h, h'⟩ := (History.clean_trans_iff hgrows.1 hgrows'.1).mp h
      have hclean := ih (Nat.le_of_succ_le hk) (fun s hs => henc s (Nat.lt_succ_of_lt hs)) h
      refine (PowerState.clean_trans_iff hgrows hgrows').mpr ⟨hclean, ?_⟩
      refine capPackagePowerLimit_clean hk hmsr ?_ h'
      rw [(hcapped hclean).units k hk]
      exact henc k (Nat.lt_succ_self k)

end Calls

/-! ### Nodes whose numbers fit -/

section Fits

variable {t : Topology} {socket : Nat}

/-- The CPU of every socket fits in the 16 bits of a batch operation. -/
def Topology.SocketsFit (t : Topology) : Prop := (t.nsockets - 1) * t.coresPerSocket < 2 ^ 16

theorem unitCpu_of_fits (hfit : t.SocketsFit) (hs : socket < t.nsockets) :
    unitCpu t socket = t.cpu socket 0 0 := by
  have hle : socket * t.coresPerSocket ≤ (t.nsockets - 1) * t.coresPerSocket :=
    Nat.mul_le_mul_right _ (by omega)
  rw [Topology.cpu_socket, unitCpu, Nat.mod_eq_of_lt (hle.trans_lt hfit)]

/-- And then no socket number overflows either. -/
theorem nsockets_mul_ncores_le (hfit : t.SocketsFit) : t.nsockets * t.ncores ≤ 2 ^ 32 := by
  have hcores := t.nsockets_mul_coresPerSocket
  have hpos := t.coresPerSocket_pos
  have hlt : t.ncores < 2 ^ 31 := t.ncores_le.trans_lt t.nthreads_lt
  obtain ⟨n, hn⟩ : ∃ n, t.nsockets = n + 1 := ⟨t.nsockets - 1, by have := t.nsockets_pos; omega⟩
  have hfit' : n * t.coresPerSocket < 2 ^ 16 := by
    have h : (t.nsockets - 1) * t.coresPerSocket < 2 ^ 16 := hfit
    rwa [hn, Nat.add_sub_cancel] at h
  rw [← hcores, hn] at hlt ⊢
  generalize t.coresPerSocket = c at hpos hfit' hlt ⊢
  have hn' : n ≤ n * c := Nat.le_mul_of_pos_right n hpos
  have hsq : (n + 1) * ((n + 1) * c) = n * (n * c) + 2 * (n * c) + c := by ring
  rw [hsq]
  -- below the bound the product has room to spare
  rcases Nat.lt_or_ge n (2 ^ 16 - 1) with hlt' | hge
  · have hmul : n * (n * c) ≤ (2 ^ 16 - 2) * (2 ^ 16 - 1) :=
      Nat.mul_le_mul (by omega) (by omega)
    rcases n.eq_zero_or_pos with rfl | hpos'
    · omega
    · have hc : c ≤ n * c := Nat.le_mul_of_pos_left c hpos'
      omega
  · -- the only node at the bound has one core a socket
    have hn : n = 2 ^ 16 - 1 := by omega
    subst hn
    have hc : c = 1 := by omega
    subst hc
    decide

/-- **The units in use are the units of the socket.** -/
theorem powerUnit_unitsInUse {e : MsrEnv} {st : PowerState} (hfit : e.topo.SocketsFit)
    (hknown : UnitsKnown e.topo st) (hs : socket < e.topo.nsockets) :
    powerUnit (unitsInUse e msrRaplPowerUnit st socket)
      = powerUnit (unitReg e.topo st.machine socket) := by
  unfold unitsInUse
  cases hru : st.ru with
  | some ru => exact hknown ru hru socket hs
  | none => rw [unitCpu_of_fits hfit hs, unitReg]

/-- The table that a call leaves is known as well, so the next call starts with
it. -/
theorem unitsKnown_of_capped {e : MsrEnv} {watts : BitVec 32} {st st' : PowerState}
    (hfit : e.topo.SocketsFit) (hknown : UnitsKnown e.topo st)
    (h : CappedUpTo e msrPkgPowerLimit msrRaplPowerUnit watts e.topo.nsockets st st') :
    UnitsKnown e.topo st' := by
  intro ru hru s hs
  have hused : unitsInUse e msrRaplPowerUnit st' s = ru s := by simp only [unitsInUse, hru]
  have hreg : unitReg e.topo st'.machine s = unitReg e.topo st.machine s :=
    h.frame _ _ (by decide)
  rw [← hused, h.units s hs, hreg]
  exact powerUnit_unitsInUse hfit hknown hs

/-- A share that can be encoded on a socket is encoded in its units. -/
theorem encodable_pkgLimit {reg : BitVec 64} {nodeLimit : BitVec 32} (h : 0 ≤ nodeLimit.toInt)
    (hquot : nodeLimit.toInt / t.nsockets * 2 ^ powerUnit reg < 2 ^ 15) :
    Encodable reg (pkgLimit t nodeLimit) := by
  rw [Encodable, pkgLimit_toInt t h]
  exact ⟨Int.ediv_nonneg h (Int.natCast_nonneg _), hquot⟩

/-- Shares of a node that are rounded down. -/
theorem sum_shares (limit : Int) (t : Topology) {watts : Nat → ℚ}
    (h : ∀ s < t.nsockets, watts s = (limit / t.nsockets : Int)) :
    (limit : ℚ) - t.nsockets < ∑ s ∈ Finset.range t.nsockets, watts s ∧
      ∑ s ∈ Finset.range t.nsockets, watts s ≤ limit := by
  have hpos : (0 : Int) < t.nsockets := Int.natCast_pos.mpr t.nsockets_pos
  have hsum : ∑ s ∈ Finset.range t.nsockets, watts s
      = (t.nsockets * (limit / t.nsockets) : Int) := by
    rw [Finset.sum_congr rfl fun s hs => h s (Finset.mem_range.mp hs), Finset.sum_const,
      Finset.card_range, nsmul_eq_mul]
    norm_cast
  have hdiv := Int.mul_ediv_add_emod limit t.nsockets
  have hnonneg := Int.emod_nonneg limit hpos.ne'
  have hlt := Int.emod_lt_of_pos limit hpos
  rw [hsum]
  constructor
  · exact_mod_cast (by omega : limit - t.nsockets < t.nsockets * (limit / t.nsockets))
  · exact_mod_cast (by omega : t.nsockets * (limit / t.nsockets) ≤ limit)

/-- **One direction.**  On a node whose CPUs fit, every socket ends up with its
share, in its own units. -/
theorem keepsBudget_of_fits (hfit : t.SocketsFit) : KeepsBudget t := by
  intro d batchfd st nodeLimit ret st' hsign hknown hquot hcall hclean
  let e : MsrEnv := ⟨t, d, batchfd⟩
  have hst' : capSockets e (pkgLimit t nodeLimit) msrPkgPowerLimit msrRaplPowerUnit t.nsockets st
      = st' := congrArg Prod.snd (Option.some.inj hcall)
  have hmsr : msrRaplPowerUnit < 2 ^ 32 := by decide
  have hpower : ∀ s < t.nsockets, powerUnit (unitsInUse e msrRaplPowerUnit st s)
      = powerUnit (unitReg t st.machine s) := fun s hs => powerUnit_unitsInUse hfit hknown hs
  have henc : ∀ s < t.nsockets,
      Encodable (unitsInUse e msrRaplPowerUnit st s) (pkgLimit t nodeLimit) := by
    intro s hs
    refine encodable_pkgLimit hsign ?_
    rw [hpower s hs]
    exact hquot s hs
  -- the accesses went through, so no limit was reported either
  have hall : st.Clean d st' := by
    rw [← hst'] at hclean ⊢
    exact capSockets_clean hmsr le_rfl henc hclean
  have happlies : CapApplies e msrPkgPowerLimit msrRaplPowerUnit (pkgLimit t nodeLimit) st := by
    have hacc := ((capSockets_spec hmsr le_rfl _ _ st).2.1.mp (hst' ▸ hall)).2
    refine ⟨henc, hacc, fun s hs => ?_⟩
    simp only
    -- no other socket comes to this CPU
    rw [lastFor_socketIndex (nsockets_mul_ncores_le hfit) hs]
    exact .inr (hpower s hs)
  obtain ⟨-, hold⟩ := (capSockets_applies_iff (by decide) hmsr _ st).mpr happlies
  rw [hst'] at hold
  have hwatts : ∀ s < t.nsockets,
      limit1Watts t st'.machine s = (nodeLimit.toInt / t.nsockets : Int) := by
    intro s hs
    rw [← pkgLimit_toInt t hsign]
    exact (hold s hs).limit
  obtain ⟨hlt, hle⟩ := sum_shares nodeLimit.toInt t hwatts
  refine ⟨fun s hs s' hs' => (hwatts s hs).trans (hwatts s' hs').symm, hlt, hle, fun s _ => ?_⟩
  rw [limitsReg, limitsReg, ← hst']
  exact capSockets_upper hmsr le_rfl _ (hst' ▸ hall) _

end Fits

/-! ### Nodes whose numbers do not fit -/

section Overflow

variable {t : Topology}

/-- Before the first call on a node whose last socket has a power unit of half a
watt, all others one watt. -/
def lastHalfWatt (t : Topology) : PowerState where
  machine := ⟨fun cpu msr =>
    if cpu = (t.nsockets - 1) * t.coresPerSocket ∧ msr = msrRaplPowerUnit then 1 else 0, []⟩
  unitData _ := 0
  ru := none
  tooLarge := []

theorem lastHalfWatt_of_ne {cpu : Nat} (h : cpu ≠ (t.nsockets - 1) * t.coresPerSocket)
    (msr : Nat) : (lastHalfWatt t).machine.msr cpu msr = 0 :=
  if_neg fun hlast => h hlast.1

theorem lastHalfWatt_limits (cpu : Nat) :
    (lastHalfWatt t).machine.msr cpu msrPkgPowerLimit = 0 :=
  if_neg fun hlast => absurd hlast.2 (by decide)

theorem lastHalfWatt_last : unitReg t (lastHalfWatt t).machine (t.nsockets - 1) = 1 := by
  rw [unitReg, Topology.cpu_socket]
  exact if_pos ⟨rfl, rfl⟩

theorem powerUnit_lastHalfWatt_le (cpu : Nat) :
    powerUnit ((lastHalfWatt t).machine.msr cpu msrRaplPowerUnit) ≤ 1 := by
  simp only [lastHalfWatt]
  split <;> decide

/-- The batch finds one watt everywhere: the CPU of the last socket is out of its
reach. -/
theorem unitsInUse_lastHalfWatt {e : MsrEnv} (hover : ¬ e.topo.SocketsFit) (socket : Nat) :
    unitsInUse e msrRaplPowerUnit (lastHalfWatt e.topo) socket = 0 := by
  refine lastHalfWatt_of_ne (ne_of_lt ?_) msrRaplPowerUnit
  exact (Nat.mod_lt _ (by decide)).trans_le (Nat.not_lt.mp hover)

/-- A limit of one watt in units of one watt. -/
theorem limit1_one (unitReg upper seconds : BitVec 64) :
    (decodeLimit unitReg (limitReg upper (wattsBits 0 1) seconds) 0).watts
      = 1 / 2 ^ powerUnit unitReg := by
  show ((maskVal (limitReg upper (wattsBits 0 1) seconds) 14 0).toNat : ℚ)
    * (getRaplPowerUnit unitReg).watts = _
  have hone : (wattsBits 0 1).toNat = 1 := by decide
  rw [limitReg_limit _ _ (by rw [hone]; decide), hone, getRaplPowerUnit_watts, Nat.cast_one,
    one_mul]

section Capped

variable {d : Driver} {batchfd : Bool} {st' : PowerState}

/-- What a socket ends up with: one unit of its own, or nothing. -/
theorem limit1Watts_capped (hover : ¬ t.SocketsFit)
    (h : CappedUpTo ⟨t, d, batchfd⟩ msrPkgPowerLimit msrRaplPowerUnit 1 t.nsockets (lastHalfWatt t)
      st') (socket : Nat) :
    limit1Watts t st'.machine socket = 1 / 2 ^ powerUnit (unitReg t (lastHalfWatt t).machine socket)
      ∨ limit1Watts t st'.machine socket = 0 := by
  have hlimit := h.limit (t.cpu socket 0 0)
  have hunit : unitReg t st'.machine socket = unitReg t (lastHalfWatt t).machine socket :=
    h.frame _ _ (by decide)
  rw [limit1Watts, hunit, limitsReg]
  split at hlimit
  · obtain ⟨upper, seconds, hreg⟩ := hlimit
    rw [hreg, unitsInUse_lastHalfWatt hover]
    exact .inl (limit1_one _ upper seconds)
  · rw [hlimit, lastHalfWatt_limits]
    exact .inr (zero_mul _)

/-- The first socket ends up with one watt. -/
theorem limit1Watts_first (hover : ¬ t.SocketsFit)
    (h : CappedUpTo ⟨t, d, batchfd⟩ msrPkgPowerLimit msrRaplPowerUnit 1 t.nsockets (lastHalfWatt t)
      st') :
    limit1Watts t st'.machine 0 = 1 := by
  have hlimit := h.limit (t.cpu 0 0 0)
  have hindex : socketIndex t 0 = t.cpu 0 0 0 := socketIndex_of_fits t.nsockets_pos (by omega)
  have hsome : (lastFor (socketIndex t) (t.cpu 0 0 0) (List.range t.nsockets)).isSome :=
    hindex ▸ lastFor_isSome (List.mem_range.mpr t.nsockets_pos)
  obtain ⟨s, hs⟩ := Option.isSome_iff_exists.mp hsome
  have hunit : unitReg t st'.machine 0 = 0 := by
    rw [unitReg, h.frame _ _ (by decide), Topology.cpu_socket]
    refine lastHalfWatt_of_ne (ne_of_lt ?_) _
    rw [Nat.zero_mul]
    exact Nat.lt_of_lt_of_le (by decide) (Nat.not_lt.mp hover)
  rw [hs] at hlimit
  obtain ⟨upper, seconds, hreg⟩ := hlimit
  rw [limit1Watts, hunit, limitsReg, hreg, unitsInUse_lastHalfWatt hover, limit1_one,
    show powerUnit 0 = 0 by decide, pow_zero, div_one]

end Capped

/-- **The other direction.**  Where a CPU does not fit, the last socket is given
one unit for one watt, or nothing. -/
theorem not_keepsBudget_of_overflow (hover : ¬ t.SocketsFit) : ¬ KeepsBudget t := by
  intro hkeeps
  let d : Driver := ⟨fun _ _ => false⟩
  let e : MsrEnv := ⟨t, d, false⟩
  let st := lastHalfWatt t
  have hpos := t.nsockets_pos
  have hmsr : msrRaplPowerUnit < 2 ^ 32 := by decide
  have hn : (BitVec.ofNat 32 t.nsockets).toInt = t.nsockets := by
    have hlt := t.nsockets_lt
    have hnat : (BitVec.ofNat 32 t.nsockets).toNat = t.nsockets := by
      rw [BitVec.toNat_ofNat, Nat.mod_eq_of_lt (by omega)]
    rw [BitVec.toInt_eq_toNat_of_lt (by omega), hnat]
  have hquot : (t.nsockets : Int) / t.nsockets = 1 := Int.ediv_self (by omega)
  have hshare : pkgLimit t (BitVec.ofNat 32 t.nsockets) = 1 := by
    apply BitVec.eq_of_toInt_eq
    rw [pkgLimit_toInt t (by omega), hn, hquot]
    rfl
  -- nothing is refused, as one watt can be encoded everywhere
  have hclean : st.Clean d (capSockets e 1 msrPkgPowerLimit msrRaplPowerUnit t.nsockets st) := by
    refine (capSockets_spec (e := e) hmsr le_rfl 1 msrPkgPowerLimit st).2.1.mpr ⟨fun s _ => ?_, ?_⟩
    · rw [unitsInUse_lastHalfWatt hover]
      decide
    · exact accepted_of_never (fun _ _ => rfl) _ _
  have hstays : StaysUnder t (BitVec.ofNat 32 t.nsockets) st.machine
      (capSockets e 1 msrPkgPowerLimit msrRaplPowerUnit t.nsockets st).machine := by
    refine hkeeps d false st _ 0 _ (by omega) (fun ru hru => nomatch hru) (fun s _ => ?_) ?_
      hclean.1
    · have hle : powerUnit (unitReg t st.machine s) ≤ 1 := powerUnit_lastHalfWatt_le _
      rw [hn, hquot, one_mul]
      exact (pow_le_pow_right₀ (by decide) hle).trans_lt (by decide)
    · rw [← hshare]
      rfl
  have hcapped := (capSockets_spec (e := e) hmsr le_rfl 1 msrPkgPowerLimit st).2.2 hclean
  have hfirst := limit1Watts_first hover hcapped
  -- one watt on the first socket, but half of it or nothing on the last
  have halike := hstays.alike 0 hpos (t.nsockets - 1) (by omega)
  rw [hfirst] at halike
  rcases limit1Watts_capped hover hcapped (t.nsockets - 1) with hhalf | hnone
  · rw [hhalf, lastHalfWatt_last, show powerUnit 1 = 1 by decide] at halike
    norm_num at halike
  · rw [hnone] at halike
    exact one_ne_zero halike

end Overflow

/-- **The node stays under its limit, exactly**: whatever its registers hold, as
long as the CPUs of its sockets fit in the 16 bits of a batch operation. -/
theorem keepsBudget_iff (t : Topology) : KeepsBudget t ↔ t.SocketsFit :=
  ⟨fun h => not_not.mp fun hover => not_keepsBudget_of_overflow hover h, keepsBudget_of_fits⟩

theorem wideSockets_pos : 0 < 131072 := by decide

theorem wideSockets_dvd : 2 ∣ 131072 := by decide

theorem wideSockets_lt : 131072 < 2 ^ 31 := by decide

/-- A node of two sockets with 65536 cores each. -/
def wideSockets : Topology where
  nsockets := 2
  ncores := 131072
  nthreads := 131072
  nsockets_pos := Nat.two_pos
  ncores_pos := wideSockets_pos
  nthreads_pos := wideSockets_pos
  nsockets_dvd := wideSockets_dvd
  ncores_dvd := dvd_rfl
  nthreads_lt := wideSockets_lt

/-- There the unit register of CPU 0 is read for the second socket, whose first CPU is
65536. -/
theorem wideSockets_over_budget : ¬ KeepsBudget wideSockets :=
  not_keepsBudget_of_overflow (by unfold Topology.SocketsFit Topology.coresPerSocket; decide)

end Variorum
