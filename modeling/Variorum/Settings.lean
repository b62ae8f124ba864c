/-
Variorum/Settings.lean

The settings of an Intel 06_4F over the life of a process: power limits of the sockets and
of the node, turbo on and off, in any order.

Every call works on its own bits of the registers of a socket: `Control.reg` is what it makes
of a register, and `Control.set` of all of them.  A call that has nothing refused refines
`Control.set` (`Control.call_spec`), a socket on which its limit cannot be encoded included,
and so does a run (`exec_spec`).  What a run of `Control.set` comes to does not need the run
any more: each socket has the last switch and the last limit that it can encode, over what
was there before (`foldl_set`).  `settings_run` puts this together, with what
`print_turbo_status` and `get_package_rapl_limit` then find.
-/
import Variorum.Loop
import Variorum.NodeCap
import Variorum.Runs
import Variorum.TurboSwitch

namespace Variorum.Settings

open Fm064f History Runs

/-! ### The calls -/

/-- The calls that set something on this platform. -/
inductive Control
  | capEachSocketPowerLimit (watts : BitVec 32)
  | capBestEffortNodePowerLimit (nodeLimit : BitVec 32)
  | enableTurbo
  | disableTurbo

/-- The function of the platform. -/
def Control.call (e : MsrEnv) : Control → Call PowerState
  | capEachSocketPowerLimit watts => intelCpuFm064fCapPowerLimits e watts
  | capBestEffortNodePowerLimit nodeLimit => intelCpuFm064fCapBestEffortNodePowerLimit e nodeLimit
  | enableTurbo => intelCpuFm064fEnableTurbo e
  | disableTurbo => intelCpuFm064fDisableTurbo e

/-- The state behind a call. -/
def next (e : MsrEnv) (st : PowerState) (c : Control) : Option PowerState :=
  (c.call e st).map Prod.snd

/-! ### What they are for -/

/-- Register contents by CPU and address. -/
abbrev Registers : Type := Nat → Nat → BitVec 64

namespace Control

/-- What becomes of the turbo disable bit. -/
def disables : Control → Option Bool
  | enableTurbo => some false
  | disableTurbo => some true
  | _ => none

/-- The limit that is asked for on each socket. -/
def limit (t : Topology) : Control → Option (BitVec 32)
  | capEachSocketPowerLimit watts => some watts
  | capBestEffortNodePowerLimit nodeLimit => some (pkgLimit t nodeLimit)
  | _ => none

/-- The limit, if a socket with these units can encode it. -/
def limitOn (t : Topology) (unitReg : BitVec 64) (c : Control) : Option (BitVec 32) :=
  (c.limit t).filter fun watts => Encodable unitReg watts

/-- A register of a socket with these units. -/
def reg (t : Topology) (unitReg : BitVec 64) (msr : Nat) (val : BitVec 64) (c : Control) :
    BitVec 64 :=
  if msr = ia32MiscEnable then
    c.disables.elim val fun disabled => switchBit disabled turboModeDisableBit val
  else if msr = msrPkgPowerLimit then
    (c.limitOn t unitReg).elim val fun watts => capReg unitReg val watts
  else val

/-- The registers: those of the first CPU of each socket are its own. -/
def set (t : Topology) (regs : Registers) (c : Control) : Registers := fun cpu msr =>
  if ∃ socket < t.nsockets, cpu = t.cpu socket 0 0 then
    c.reg t (regs cpu msrRaplPowerUnit) msr (regs cpu msr)
  else regs cpu msr

end Control

/-- The last switch of a list of calls. -/
def lastSwitch (cs : List Control) : Option Bool := (cs.filterMap Control.disables).getLast?

/-- The last limit that a socket with these units can encode. -/
def lastLimit (t : Topology) (unitReg : BitVec 64) (cs : List Control) : Option (BitVec 32) :=
  (cs.filterMap (Control.limitOn t unitReg)).getLast?

/-- A register of a socket after the calls: the last one of each kind has the say, on what
was there before all of them. -/
def settledReg (t : Topology) (cs : List Control) (unitReg : BitVec 64) (msr : Nat)
    (val : BitVec 64) : BitVec 64 :=
  if msr = ia32MiscEnable then
    (lastSwitch cs).elim val fun disabled => switchBit disabled turboModeDisableBit val
  else if msr = msrPkgPowerLimit then
    (lastLimit t unitReg cs).elim val fun watts => capReg unitReg val watts
  else val

/-- The registers after the calls. -/
def settled (t : Topology) (cs : List Control) (regs : Registers) : Registers := fun cpu msr =>
  if ∃ socket < t.nsockets, cpu = t.cpu socket 0 0 then
    settledReg t cs (regs cpu msrRaplPowerUnit) msr (regs cpu msr)
  else regs cpu msr

/-- The table of `translate`, if it is there already, has the unit registers of the
sockets. -/
def UnitsHeld (t : Topology) (st : PowerState) : Prop :=
  ∀ ru, st.ru = some ru → ∀ socket < t.nsockets, ru socket = unitReg t st.machine socket

/-! ### Runs of settings -/

section Settled

variable {t : Topology} {regs : Registers} {cs : List Control}

/-- A switch leaves nothing of the one before it. -/
theorem switchBit_switchBit {bit : Nat} (hbit : bit < 64) (val : BitVec 64)
    (disabled disabled' : Bool) :
    switchBit disabled' bit (switchBit disabled bit val) = switchBit disabled' bit val := by
  apply BitVec.eq_of_getLsbD_eq
  intro i _
  rw [switchBit_getLsbD hbit, switchBit_getLsbD hbit, switchBit_getLsbD hbit]
  split
  · rfl
  · rfl

/-- No call touches the units. -/
theorem set_unit (t : Topology) (regs : Registers) (c : Control) (cpu : Nat) :
    c.set t regs cpu msrRaplPowerUnit = regs cpu msrRaplPowerUnit := by
  unfold Control.set
  split
  · rfl
  · rfl

/-- **One register**, by induction on the calls: the units stay, so the calls act on it one
after the other. -/
theorem foldl_set_reg (cpu msr : Nat) :
    cs.foldl (Control.set t) regs cpu msr
      = if ∃ socket < t.nsockets, cpu = t.cpu socket 0 0 then
          cs.foldl (fun val c => c.reg t (regs cpu msrRaplPowerUnit) msr val) (regs cpu msr)
        else regs cpu msr := by
  induction cs generalizing regs with
  | nil => simp
  | cons c cs ih =>
      rw [List.foldl_cons, ih, set_unit, List.foldl_cons]
      by_cases hcpu : ∃ socket < t.nsockets, cpu = t.cpu socket 0 0
      · simp only [if_pos hcpu, Control.set]
      · simp only [if_neg hcpu, Control.set]

/-- The calls on one register: the last switch, the last limit. -/
theorem foldl_reg (unitReg : BitVec 64) (msr : Nat) (val : BitVec 64) :
    cs.foldl (fun val c => c.reg t unitReg msr val) val = settledReg t cs unitReg msr val := by
  unfold Control.reg settledReg
  by_cases hmisc : msr = ia32MiscEnable
  · simp only [if_pos hmisc]
    exact Loop.foldl_elim_last (fun val disabled => switchBit disabled turboModeDisableBit val)
      (fun _ => True) (fun val a b _ _ => switchBit_switchBit (by decide) val a b)
      (fun _ _ _ _ => trivial) val
  · by_cases hlimit : msr = msrPkgPowerLimit
    · simp only [if_neg hmisc, if_pos hlimit]
      apply Loop.foldl_elim_last (fun val watts => capReg unitReg val watts)
        (fun watts => Encodable unitReg watts)
      · exact fun val a b ha hb => capReg_capReg ha val hb
      · intro c _ watts hwatts
        exact of_decide_eq_true (Option.filter_eq_some_iff.mp hwatts).2
    · simp only [if_neg hmisc, if_neg hlimit]
      induction cs with
      | nil => rfl
      | cons c cs ih => exact ih

/-- **What a run of settings comes to.** -/
theorem foldl_set (t : Topology) (regs : Registers) (cs : List Control) :
    cs.foldl (Control.set t) regs = settled t cs regs := by
  funext cpu msr
  rw [foldl_set_reg, foldl_reg]
  rfl

end Settled

/-! ### A call refines its setting -/

section Calls

variable {e : MsrEnv} {t : Topology} {c : Control} {st st' : PowerState}

theorem msrRaplPowerUnit_lt : msrRaplPowerUnit < 2 ^ 32 := by decide

/-- The units of a known table, or of one that is filled now, are those of the socket. -/
theorem unitsInUse_of_held (hfit : e.topo.SocketsFit) (hheld : UnitsHeld e.topo st) {socket : Nat}
    (hs : socket < e.topo.nsockets) :
    unitsInUse e msrRaplPowerUnit st socket = unitReg e.topo st.machine socket := by
  unfold unitsInUse
  cases hru : st.ru with
  | some ru => exact hheld ru hru socket hs
  | none => rw [unitCpu_of_fits hfit hs, unitReg]

/-- **One socket.**  With nothing refused, the limit is in its register or, if it cannot be
encoded, nowhere. -/
theorem capPackagePowerLimit_settles (hfit : e.topo.SocketsFit) (hheld : UnitsHeld e.topo st)
    {socket : Nat} (hs : socket < e.topo.nsockets) (watts : BitVec 32)
    (hst' : (capPackagePowerLimit e socket watts msrPkgPowerLimit msrRaplPowerUnit st).2 = st')
    (hclean : st.machine.Clean e.driver st'.machine) :
    UnitsHeld e.topo st' ∧ st'.machine.msr
      = if Encodable (unitReg e.topo st.machine socket) watts then
          st.machine.store (e.topo.cpu socket 0 0) msrPkgPowerLimit
            (capReg (unitReg e.topo st.machine socket) (limitsReg e.topo st.machine socket) watts)
        else st.machine.msr := by
  have hindex : socketIndex e.topo socket = e.topo.cpu socket 0 0 := by
    apply socketIndex_of_fits hs
    have hfit := nsockets_mul_ncores_le hfit
    exact (Nat.mul_lt_mul_of_pos_right hs e.topo.ncores_pos).trans_le hfit
  obtain ⟨ru, data, hused, hcall⟩ :=
    capPackagePowerLimit_cases hs msrRaplPowerUnit_lt watts msrPkgPowerLimit st
  -- behind the read and the units comes the write, or nothing
  obtain ⟨rest, hlog⟩ : ∃ rest, st'.machine.log = st.machine.log ++
      ((⟨.read, socketIndex e.topo socket, msrPkgPowerLimit⟩ ::
        fillAccesses e msrRaplPowerUnit st) ++ rest) := by
    by_cases henc : Encodable (ru socket) watts
    · rw [← hst', hcall, if_pos henc]
      refine ⟨[⟨.write, socketIndex e.topo socket, msrPkgPowerLimit⟩], ?_⟩
      simp
    · rw [← hst', hcall, if_neg henc]
      exact ⟨[], by rw [List.append_nil]⟩
  have hacc := hclean
  rw [Machine.Clean, hlog, clean_append_iff, accepted_append] at hacc
  obtain ⟨⟨hread, hfill⟩, hwrite⟩ := hacc
  have hunits : ∀ s < e.topo.nsockets, ru s = unitReg e.topo st.machine s := by
    intro s hs
    rw [hused s hs, tableUnits_of_accepted hs]
    · exact (unitsInUse_of_held hfit hheld hs :)
    · show Accepted _ (st.machine.log ++ [_]).length (fillAccesses e msrRaplPowerUnit st)
      rw [List.length_append]
      exact hfill
  have hval : currentval e msrPkgPowerLimit st socket = limitsReg e.topo st.machine socket := by
    have hok : ReadRefused e msrPkgPowerLimit st socket = false := hread
    rw [currentval, hok, if_neg Bool.false_ne_true, hindex, limitsReg]
  rw [hcall, hval, hunits socket hs, hindex] at hst'
  rw [hindex] at hlog hwrite
  subst hst'
  by_cases henc : Encodable (unitReg e.topo st.machine socket) watts
  · simp only [if_pos henc] at hlog ⊢
    rw [Machine.pwrite_log, List.append_assoc] at hlog
    obtain rfl := List.append_cancel_left (List.append_cancel_left hlog)
    have hok : e.driver.fails (st.machine.log ++
        (⟨.read, e.topo.cpu socket 0 0, msrPkgPowerLimit⟩ ::
          fillAccesses e msrRaplPowerUnit st)).length
        ⟨.write, e.topo.cpu socket 0 0, msrPkgPowerLimit⟩ = false := by
      rw [List.length_append]
      exact hwrite.1
    rw [Machine.pwrite_of_ok _ _ _ _ _ hok]
    refine ⟨fun ru' hru' s hs => ?_, rfl⟩
    obtain rfl := Option.some.inj hru'
    rw [hunits s hs]
    exact (Machine.store_of_ne _ _ _ _ (.inr (by decide))).symm
  · simp only [if_neg henc]
    refine ⟨fun ru' hru' s hs => ?_, trivial⟩
    obtain rfl := Option.some.inj hru'
    exact hunits s hs

/-- The registers with a limit on the first `k` sockets. -/
def capUpTo (t : Topology) (watts : BitVec 32) (k : Nat) (regs : Registers) : Registers :=
  fun cpu msr =>
    if msr = msrPkgPowerLimit ∧ (∃ socket < k, cpu = t.cpu socket 0 0) ∧
        Encodable (regs cpu msrRaplPowerUnit) watts then
      capReg (regs cpu msrRaplPowerUnit) (regs cpu msr) watts
    else regs cpu msr

theorem cpu_socket_inj {socket socket' : Nat} (h : t.cpu socket 0 0 = t.cpu socket' 0 0) :
    socket = socket' := by
  rw [Topology.cpu_socket, Topology.cpu_socket] at h
  exact Nat.eq_of_mul_eq_mul_right t.coresPerSocket_pos h

/-- One more socket capped, on registers that the sockets before it have left. -/
theorem capUpTo_succ (watts : BitVec 32) (k : Nat) (regs : Registers) (m : Machine)
    (hm : m.msr = capUpTo t watts k regs) :
    capUpTo t watts (k + 1) regs
      = if Encodable (unitReg t m k) watts then
          m.store (t.cpu k 0 0) msrPkgPowerLimit
            (capReg (unitReg t m k) (limitsReg t m k) watts)
        else m.msr := by
  -- the sockets before have CPUs of their own, so both registers of this one are still as found
  have hnot : ¬ ∃ socket < k, t.cpu k 0 0 = t.cpu socket 0 0 := by
    rintro ⟨socket, hlt, heq⟩
    exact absurd (cpu_socket_inj heq) (Nat.ne_of_gt hlt)
  have hunit : unitReg t m k = regs (t.cpu k 0 0) msrRaplPowerUnit := by
    rw [unitReg, hm, capUpTo, if_neg (fun h => absurd h.1 (by decide))]
  have hlimit : limitsReg t m k = regs (t.cpu k 0 0) msrPkgPowerLimit := by
    rw [limitsReg, hm, capUpTo, if_neg (fun h => hnot h.2.1)]
  have hexists : ∀ cpu, (∃ socket < k + 1, cpu = t.cpu socket 0 0)
      ↔ (∃ socket < k, cpu = t.cpu socket 0 0) ∨ cpu = t.cpu k 0 0 := by
    intro cpu
    simp only [Nat.exists_lt_succ_right]
  rw [hunit, hlimit]
  funext cpu msr
  -- one place is written in this turn, every other one is as the turns before left it
  by_cases hhere : cpu = t.cpu k 0 0 ∧ msr = msrPkgPowerLimit
  · obtain ⟨rfl, rfl⟩ := hhere
    by_cases henc : Encodable (regs (t.cpu k 0 0) msrRaplPowerUnit) watts
    · rw [if_pos henc, Machine.store_self, capUpTo,
        if_pos ⟨rfl, (hexists _).mpr (.inr rfl), henc⟩]
    · rw [if_neg henc, hm, capUpTo, capUpTo, if_neg (fun h => henc h.2.2),
        if_neg (fun h => henc h.2.2)]
  · have hsame : (if Encodable (regs (t.cpu k 0 0) msrRaplPowerUnit) watts then
          m.store (t.cpu k 0 0) msrPkgPowerLimit (capReg (regs (t.cpu k 0 0) msrRaplPowerUnit)
            (regs (t.cpu k 0 0) msrPkgPowerLimit) watts)
        else m.msr) cpu msr = m.msr cpu msr := by
      split
      · exact Machine.store_of_ne _ _ _ _ (not_and_or.mp hhere)
      · rfl
    rw [hsame, hm, capUpTo, capUpTo]
    refine if_congr (and_congr_right fun hmsr => and_congr_left fun _ => ?_) rfl rfl
    rw [hexists, or_iff_left (fun hcpu => hhere ⟨hcpu, hmsr⟩)]

/-- **The loop over the sockets**, by induction on them. -/
theorem capSockets_settles (hfit : e.topo.SocketsFit) (hheld : UnitsHeld e.topo st) {k : Nat}
    (hk : k ≤ e.topo.nsockets) (watts : BitVec 32)
    (hclean : st.machine.Clean e.driver
      (capSockets e watts msrPkgPowerLimit msrRaplPowerUnit k st).machine) :
    UnitsHeld e.topo (capSockets e watts msrPkgPowerLimit msrRaplPowerUnit k st) ∧
      (capSockets e watts msrPkgPowerLimit msrRaplPowerUnit k st).machine.msr
        = capUpTo e.topo watts k st.machine.msr := by
  induction k with
  | zero =>
      refine ⟨hheld, ?_⟩
      funext cpu msr
      rw [capUpTo, if_neg]
      · rfl
      · rintro ⟨-, ⟨socket, hlt, -⟩, -⟩
        exact absurd hlt (Nat.not_lt_zero _)
  | succ k ih =>
      rw [capSockets_succ] at hclean ⊢
      have hgrows := (capSockets_spec (e := e) msrRaplPowerUnit_lt (Nat.le_of_succ_le hk) watts
        msrPkgPowerLimit st).1
      have hgrows' := (capPackagePowerLimit_spec hk msrRaplPowerUnit_lt watts msrPkgPowerLimit
        (capSockets e watts msrPkgPowerLimit msrRaplPowerUnit k st) rfl).1
      obtain ⟨hclean, hclean'⟩ := (clean_trans_iff hgrows.1 hgrows'.1).mp hclean
      obtain ⟨hheld, hmsr⟩ := ih (Nat.le_of_succ_le hk) hclean
      obtain ⟨hheld', hmsr'⟩ := capPackagePowerLimit_settles hfit hheld hk watts rfl hclean'
      exact ⟨hheld', hmsr'.trans (capUpTo_succ watts k _ _ hmsr).symm⟩

/-- A limit on all sockets is what the call is for. -/
theorem capUpTo_eq_set {watts : BitVec 32} (hlimit : c.limit t = some watts)
    (hdis : c.disables = none) (regs : Registers) :
    capUpTo t watts t.nsockets regs = c.set t regs := by
  funext cpu msr
  unfold capUpTo Control.set Control.reg Control.limitOn
  rw [hlimit, hdis]
  by_cases hmsr : msr = msrPkgPowerLimit
  · subst hmsr
    have hne : msrPkgPowerLimit ≠ ia32MiscEnable := by decide
    simp only [if_neg hne, if_true, true_and, Option.filter_some]
    by_cases hcpu : ∃ socket < t.nsockets, cpu = t.cpu socket 0 0
    · by_cases henc : Encodable (regs cpu msrRaplPowerUnit) watts
      · simp [hcpu, henc]
      · simp [hcpu, henc]
    · simp [hcpu]
  · simp only [hmsr, false_and, if_false, Option.elim_none, ite_self]

/-- A switch, with nothing refused, is what the call is for. -/
theorem setTurbo_settles (hfit : t.SocketsFit) {d : Driver} {disabled : Bool} {m m' : Machine}
    (hdis : c.disables = some disabled) (hlimit : c.limit t = none)
    (hm' : (setTurbo disabled t d ia32MiscEnable turboModeDisableBit m).2 = m')
    (hclean : m.Clean d m') : m'.msr = c.set t m.msr := by
  subst hm'
  have hlast : (t.nsockets - 1) * t.ncores < 2 ^ 32 := by
    refine Nat.lt_of_lt_of_le (Nat.mul_lt_mul_of_pos_right ?_ t.ncores_pos)
      (nsockets_mul_ncores_le hfit)
    exact Nat.sub_lt t.nsockets_pos Nat.one_pos
  have hbits := setTurbo_switches hlast (by decide) disabled hclean
  have hmem : ∀ cpu, cpu ∈ (List.range t.nsockets).map (fun socket => t.cpu socket 0 0)
      ↔ ∃ socket < t.nsockets, cpu = t.cpu socket 0 0 := by
    intro cpu
    simp only [List.mem_map, List.mem_range, eq_comm]
  funext cpu msr
  apply BitVec.eq_of_getLsbD_eq
  intro i _
  refine (hbits cpu msr i).trans ?_
  simp only [hmem]
  unfold Control.set Control.reg Control.limitOn
  rw [hdis, hlimit]
  by_cases hcpu : ∃ socket < t.nsockets, cpu = t.cpu socket 0 0
  · by_cases hmsr : msr = ia32MiscEnable
    · rw [if_pos hcpu, if_pos hmsr, Option.elim_some, switchBit_getLsbD (by decide)]
      simp [hcpu, hmsr]
    · simp [hcpu, hmsr]
  · simp [hcpu]

/-- What was read and written stays on record. -/
theorem setTurbo_grows (d : Driver) (disabled : Bool) (m : Machine) :
    m.log <+: (setTurbo disabled t d ia32MiscEnable turboModeDisableBit m).2.log := by
  rw [setTurbo_eq (by decide)]
  exact (turboLoop_clean_iff (turboWrong_switchBit (by decide) disabled)
    (fun s => List.mem_range.mp) m).1

theorem next_grows (h : next e st c = some st') : st.machine.log <+: st'.machine.log := by
  cases c with
  | capEachSocketPowerLimit watts =>
      obtain rfl := Option.some.inj h
      exact (capSockets_spec msrRaplPowerUnit_lt le_rfl watts msrPkgPowerLimit st).1.1
  | capBestEffortNodePowerLimit nodeLimit =>
      obtain rfl := Option.some.inj h
      exact (capSockets_spec msrRaplPowerUnit_lt le_rfl (pkgLimit e.topo nodeLimit)
        msrPkgPowerLimit st).1.1
  | enableTurbo =>
      obtain rfl := Option.some.inj h
      exact setTurbo_grows e.driver false st.machine
  | disableTurbo =>
      obtain rfl := Option.some.inj h
      exact setTurbo_grows e.driver true st.machine

/-- **A call refines its setting.** -/
theorem next_spec (hfit : e.topo.SocketsFit) (hheld : UnitsHeld e.topo st)
    (h : next e st c = some st') (hclean : st.machine.Clean e.driver st'.machine) :
    UnitsHeld e.topo st' ∧ st'.machine.msr = c.set e.topo st.machine.msr := by
  have hlimits : ∀ watts, c.limit e.topo = some watts → c.disables = none →
      st' = capSockets e watts msrPkgPowerLimit msrRaplPowerUnit e.topo.nsockets st →
      UnitsHeld e.topo st' ∧ st'.machine.msr = c.set e.topo st.machine.msr := by
    rintro watts hlimit hdis rfl
    obtain ⟨hheld', hmsr⟩ := capSockets_settles hfit hheld le_rfl watts hclean
    exact ⟨hheld', hmsr.trans (capUpTo_eq_set hlimit hdis _)⟩
  have hswitches : ∀ disabled, c.disables = some disabled → c.limit e.topo = none →
      st' = { st with machine :=
        (setTurbo disabled e.topo e.driver ia32MiscEnable turboModeDisableBit st.machine).2 } →
      UnitsHeld e.topo st' ∧ st'.machine.msr = c.set e.topo st.machine.msr := by
    rintro disabled hdis hlimit rfl
    have hmsr := setTurbo_settles hfit hdis hlimit rfl hclean
    refine ⟨fun ru hru socket hs => ?_, hmsr⟩
    rw [hheld ru hru socket hs]
    show _ = (setTurbo disabled _ _ _ _ _).2.msr _ _
    rw [hmsr, set_unit]
    rfl
  cases c with
  | capEachSocketPowerLimit watts => exact hlimits watts rfl rfl (Option.some.inj h).symm
  | capBestEffortNodePowerLimit nodeLimit => exact hlimits _ rfl rfl (Option.some.inj h).symm
  | enableTurbo => exact hswitches false rfl rfl (Option.some.inj h).symm
  | disableTurbo => exact hswitches true rfl rfl (Option.some.inj h).symm

/-! ### A run refines its settings -/

theorem exec_grows {cs : List Control} (h : exec (next e) st cs = some st') :
    st.machine.log <+: st'.machine.log :=
  exec_inv (fun s => st.machine.log <+: s.machine.log) (fun hs hn => hs.trans (next_grows hn))
    (List.prefix_refl _) h

/-- **Runs**, by induction on the calls. -/
theorem exec_spec {cs : List Control} (hfit : e.topo.SocketsFit) (hheld : UnitsHeld e.topo st)
    (h : exec (next e) st cs = some st') (hclean : st.machine.Clean e.driver st'.machine) :
    UnitsHeld e.topo st' ∧ st'.machine.msr = settled e.topo cs st.machine.msr := by
  rw [← foldl_set]
  induction cs generalizing st with
  | nil =>
      obtain rfl := Option.some.inj h
      exact ⟨hheld, rfl⟩
  | cons c cs ih =>
      obtain ⟨st₁, hnext, hrest⟩ := Option.bind_eq_some_iff.mp h
      obtain ⟨hfirst, hclean⟩ := (clean_trans_iff (next_grows hnext) (exec_grows hrest)).mp hclean
      obtain ⟨hheld₁, hmsr⟩ := next_spec hfit hheld hnext hfirst
      obtain ⟨hheld', hmsr'⟩ := ih hheld₁ hrest hclean
      refine ⟨hheld', hmsr'.trans ?_⟩
      rw [hmsr, List.foldl_cons]

/-! ### Reading the settings back -/

/-- `calc_rapl_from_bits`, whether the table is there or not. -/
theorem calcRaplFromBits_eq {socket msrRaplUnit : Nat} (limit : RaplLimit) (offset : Nat) :
    calcRaplFromBits e socket limit offset msrRaplUnit st
      = (decodeLimit ((translateUnits e msrRaplUnit st).1 socket) limit.bits offset,
          (translateUnits e msrRaplUnit st).2) := by
  have hru := translateUnits_ru e msrRaplUnit st
  rcases htable : translateUnits e msrRaplUnit st with ⟨ru, st₁⟩
  rw [htable] at hru
  simp only [calcRaplFromBits, htable, translateUnits_of_some hru]
  rfl

/-- **`get_package_rapl_limit`** with nothing refused: the fields of the socket's own
register in the socket's own units. -/
theorem getPackageRaplLimit_held (hfit : e.topo.SocketsFit) (hheld : UnitsHeld e.topo st)
    {socket : Nat} (hs : socket < e.topo.nsockets) {given1 given2 : RaplLimit}
    {limit1 limit2 : Option RaplLimit}
    (hget : getPackageRaplLimit e socket (some given1) (some given2) msrPkgPowerLimit
      msrRaplPowerUnit st = (limit1, limit2, st'))
    (hclean : st.machine.Clean e.driver st'.machine) :
    limit1 = some (decodeLimit (unitReg e.topo st.machine socket)
        (limitsReg e.topo st.machine socket) 0) ∧
      limit2 = some (decodeLimit (unitReg e.topo st.machine socket)
        (limitsReg e.topo st.machine socket) 32) := by
  have hindex : socketIndex e.topo socket = e.topo.cpu socket 0 0 := by
    apply socketIndex_of_fits hs
    have hfit := nsockets_mul_ncores_le hfit
    exact (Nat.mul_lt_mul_of_pos_right hs e.topo.ncores_pos).trans_le hfit
  let read : Access := ⟨.read, socketIndex e.topo socket, msrPkgPowerLimit⟩
  obtain ⟨hmachine, -, hused⟩ := translateUnits_spec msrRaplPowerUnit_lt e
    ((st.logged read).logged read)
  have hru := translateUnits_ru e msrRaplPowerUnit ((st.logged read).logged read)
  simp only [getPackageRaplLimit, onLimit, readLimit_eq hs, calcRaplFromBits_eq] at hget
  rcases htable : translateUnits e msrRaplPowerUnit ((st.logged read).logged read) with ⟨ru, st₁⟩
  rw [htable] at hmachine hru hused
  have hagain : translateUnits e msrRaplPowerUnit st₁ = (ru, st₁) := translateUnits_of_some hru
  -- two reads of the register, and the units where they are not there yet
  rw [htable] at hget
  simp only [hagain, Prod.mk.injEq] at hget
  obtain ⟨rfl, rfl, rfl⟩ := hget
  have hlog : st₁.machine.log
      = st.machine.log ++ ([read, read] ++ fillAccesses e msrRaplPowerUnit st) := by
    rw [hmachine]
    simp only [PowerState.logged, List.append_assoc, List.cons_append, List.nil_append]
    rfl
  have hacc := hclean
  rw [Machine.Clean, hlog, clean_append_iff, accepted_append] at hacc
  obtain ⟨⟨hfirst, hsecond, -⟩, hfill⟩ := hacc
  have hok : ReadRefused e msrPkgPowerLimit st socket = false := hfirst
  have hok' : ReadRefused e msrPkgPowerLimit (st.logged read) socket = false := by
    show e.driver.fails (st.machine.log ++ [_]).length _ = false
    rw [List.length_append]
    exact hsecond
  have hunit : ru socket = unitReg e.topo st.machine socket := by
    refine (hused socket hs).trans ?_
    rw [tableUnits_of_accepted hs]
    · exact (unitsInUse_of_held hfit hheld hs :)
    · show Accepted _ ((st.machine.log ++ [read]) ++ [read]).length _
      rw [List.append_assoc, List.length_append]
      exact hfill
  rw [hunit, limitsReg, ← hindex]
  rw [show ReadRefused e msrPkgPowerLimit (st.logged ⟨.read, socketIndex e.topo socket,
    msrPkgPowerLimit⟩) socket = false from hok', hok]
  exact ⟨rfl, rfl⟩

end Calls

/-- The limit that a socket is left with, as it is read back. -/
def heldLimit (t : Topology) (cs : List Control) (m : Machine) (socket : Nat) : ℚ × ℚ :=
  (lastLimit t (unitReg t m socket) cs).elim
    ((decodeLimit (unitReg t m socket) (limitsReg t m socket) 0).watts,
      (decodeLimit (unitReg t m socket) (limitsReg t m socket) 0).seconds)
    fun watts => (watts.toInt, 1)

section Run

variable {t : Topology} {cs : List Control} {m m' : Machine} {socket : Nat}

theorem settled_socket (hs : socket < t.nsockets) (msr : Nat)
    (h : m'.msr = settled t cs m.msr) :
    m'.msr (t.cpu socket 0 0) msr
      = settledReg t cs (unitReg t m socket) msr (m.msr (t.cpu socket 0 0) msr) := by
  rw [h, settled, if_pos ⟨socket, hs, rfl⟩]
  rfl

/-- The limits read back behind a run: the last one that was encoded, and the second limit
as it was. -/
theorem decodeLimit_settled (hs : socket < t.nsockets) (h : m'.msr = settled t cs m.msr) :
    let before := decodeLimit (unitReg t m socket) (limitsReg t m socket)
    let after := decodeLimit (unitReg t m' socket) (limitsReg t m' socket)
    ((after 0).watts, (after 0).seconds) = heldLimit t cs m socket ∧
      (after 32).watts = (before 32).watts ∧ (after 32).seconds = (before 32).seconds := by
  have hunit : unitReg t m' socket = unitReg t m socket := settled_socket hs msrRaplPowerUnit h
  have hlimits : limitsReg t m' socket
      = (lastLimit t (unitReg t m socket) cs).elim (limitsReg t m socket) fun watts =>
          capReg (unitReg t m socket) (limitsReg t m socket) watts :=
    settled_socket hs msrPkgPowerLimit h
  intro before after
  simp only [after, before, heldLimit, hunit, hlimits]
  cases hlast : lastLimit t (unitReg t m socket) cs with
  | none => exact ⟨rfl, rfl, rfl⟩
  | some watts =>
      have henc : Encodable (unitReg t m socket) watts := by
        obtain ⟨c, -, hc⟩ := List.mem_filterMap.mp (List.mem_of_getLast? hlast)
        exact of_decide_eq_true (Option.filter_eq_some_iff.mp hc).2
      obtain ⟨hwatts, hseconds⟩ := decodeLimit_capReg henc (limitsReg t m socket)
      refine ⟨?_, decodeLimit_capReg_upper henc (limitsReg t m socket)⟩
      simp only [Option.elim_some, hwatts, hseconds]

/-- The turbo disable bit behind a run. -/
theorem disabled_settled (hs : socket < t.nsockets) (h : m'.msr = settled t cs m.msr) :
    (m'.msr (t.cpu socket 0 0) ia32MiscEnable).getLsbD turboModeDisableBit
      = (lastSwitch cs).getD
          ((m.msr (t.cpu socket 0 0) ia32MiscEnable).getLsbD turboModeDisableBit) := by
  rw [settled_socket hs ia32MiscEnable h, settledReg, if_pos rfl]
  cases lastSwitch cs with
  | none => rfl
  | some disabled => rw [Option.elim_some, switchBit_getLsbD (by decide), if_pos rfl]; rfl

end Run

/-- **The settings of a node.**  After any calls, with no access refused, every socket has
the last switch and the last limit that its units can express, whatever stood between them,
and every other bit of every register is as it was.  `print_turbo_status` and
`get_package_rapl_limit` then report just this, and the second limit as it was before. -/
theorem settings_run {e : MsrEnv} {cs : List Control} {st st' : PowerState}
    (hfit : e.topo.SocketsFit) (hheld : UnitsHeld e.topo st)
    (hrun : exec (next e) st cs = some st')
    (hclean : st.machine.Clean e.driver st'.machine) :
    st'.machine.msr = settled e.topo cs st.machine.msr ∧
      (∀ ret lines m', printTurboStatus e.topo e.driver ia32MiscEnable turboModeDisableBit
          st'.machine = (ret, lines, m') → st'.machine.Clean e.driver m' →
        ret = 0 ∧ lines = (List.range e.topo.nsockets).map fun socket =>
          turboStatusLine ((lastSwitch cs).getD
            ((st.machine.msr (e.topo.cpu socket 0 0) ia32MiscEnable).getLsbD
              turboModeDisableBit)) socket) ∧
      ∀ socket < e.topo.nsockets, ∀ given1 given2 limit1 limit2 st'',
        getPackageRaplLimit e socket (some given1) (some given2) msrPkgPowerLimit
            msrRaplPowerUnit st' = (limit1, limit2, st'') →
        st'.machine.Clean e.driver st''.machine →
        ∃ l1 l2, limit1 = some l1 ∧ limit2 = some l2 ∧
          (l1.watts, l1.seconds) = heldLimit e.topo cs st.machine socket ∧
          l2.watts = (decodeLimit (unitReg e.topo st.machine socket)
            (limitsReg e.topo st.machine socket) 32).watts ∧
          l2.seconds = (decodeLimit (unitReg e.topo st.machine socket)
            (limitsReg e.topo st.machine socket) 32).seconds := by
  obtain ⟨hheld', hmsr⟩ := exec_spec hfit hheld hrun hclean
  refine ⟨hmsr, fun ret lines m' hprint hread => ?_, ?_⟩
  · have hlast : (e.topo.nsockets - 1) * e.topo.ncores < 2 ^ 32 := by
      refine Nat.lt_of_lt_of_le (Nat.mul_lt_mul_of_pos_right ?_ e.topo.ncores_pos)
        (nsockets_mul_ncores_le hfit)
      exact Nat.sub_lt e.topo.nsockets_pos Nat.one_pos
    have hswitching : TurboSwitching e.topo ia32MiscEnable turboModeDisableBit :=
      turboSwitching_of_fits hlast (by decide)
    have hreports := hswitching.reports e.driver st'.machine
    rw [hprint] at hreports
    obtain ⟨hret, hlines⟩ := hreports hread
    refine ⟨hret, hlines.trans (List.map_congr_left fun socket hmem => ?_)⟩
    rw [disabled_settled (List.mem_range.mp hmem) hmsr]
  · intro socket hs given1 given2 limit1 limit2 st'' hget hread
    obtain ⟨rfl, rfl⟩ := getPackageRaplLimit_held hfit hheld' hs hget hread
    exact ⟨_, _, rfl, rfl, decodeLimit_settled hs hmsr⟩

/-- A cap, turbo off, a limit of the node, turbo on, and a limit that no field holds. -/
def someSettings : List Control :=
  [.capEachSocketPowerLimit 100, .disableTurbo, .capBestEffortNodePowerLimit 301, .enableTurbo,
    .capEachSocketPowerLimit 0x7FFFFFFF]

theorem settings_run_some :
    lastSwitch someSettings = some false ∧
      lastLimit twoSockets 0 someSettings = some 150 ∧
      ∃ st', exec (next twoSocketEnv) .cleared someSettings = some st' ∧
        st'.machine.msr = settled twoSockets someSettings PowerState.cleared.machine.msr := by
  refine ⟨by decide, by decide, _, rfl, ?_⟩
  have hfit : (twoSockets.nsockets - 1) * twoSockets.coresPerSocket < 2 ^ 16 := by decide
  exact (@settings_run twoSocketEnv someSettings .cleared _ hfit nofun rfl
    (clean_of_never (fun _ _ => rfl)
      (exec_grows (rfl : exec (next twoSocketEnv) .cleared someSettings = some _)))).1

end Variorum.Settings
