/-
Variorum/TurboSwitch.lean

Turbo switching as a law of the registers: what a call of `set_turbo_on` or
`set_turbo_off` makes of the turbo disable bits, wherever it ends.

The loop of both either comes to the end of the sockets or stops at the first
one with a refused access (`turboLoop_outcome`), the registers of the sockets
before it switched and nothing else changed.  `TurboSwitching` is the law itself, about the CPUs the
sockets really have, and `turboSwitching_iff` says on which nodes it holds.
The loop names sockets through `read_msr_by_coord`, whose flattening overflows
when `socket * ncores` does not fit in 32 bits, so the law needs that product
to fit for the last socket, and needs no more.
-/
import Variorum.PowerCapExact
import Variorum.Turbo

namespace Variorum

open History

/-! ### More about the loop -/

section Outcome

variable {t : Topology} {d : Driver} {msr : Nat} {wrong : BitVec 64 → Bool}
variable {fix : BitVec 64 → BitVec 64} {m m' : Machine}

/-- Where a run stopped is where an access was refused. -/
theorem StoppedAt.cpu_eq {cpu cpu' i : Nat} {dir : Direction} (h : StoppedAt d cpu msr m m')
    (hi : m.log.length ≤ i) (hget : m'.log[i]? = some ⟨dir, cpu', msr⟩)
    (href : d.fails i ⟨dir, cpu', msr⟩ = true) : cpu' = cpu := by
  obtain ⟨before, dir', hl, hacc, -⟩ := h
  rw [hl, List.append_assoc, List.getElem?_append_right hi] at hget
  rcases Nat.lt_or_ge (i - m.log.length) before.length with hlt | hge
  · -- none of those before the last was refused
    rw [List.getElem?_append_left hlt] at hget
    have hok := accepted_getElem hacc hget
    rw [Nat.add_sub_cancel' hi, href] at hok
    cases hok
  · rw [List.getElem?_append_right hge, List.getElem?_singleton] at hget
    split at hget
    · exact (congrArg Access.cpu (Option.some.inj hget)).symm
    · cases hget

/-- Where every register is as wanted, the loop only reads. -/
theorem turboLoop_reads {sockets : List Nat} (hs : ∀ s ∈ sockets, s < t.nsockets)
    (hright : ∀ s ∈ sockets, wrong (m.msr (socketIndex t s) msr) = false) :
    (turboLoop t d msr wrong fix sockets m).2.msr = m.msr ∧
      ∃ reads, (turboLoop t d msr wrong fix sockets m).2.log = m.log ++ reads ∧
        ∀ a ∈ reads, a.dir = .read := by
  induction sockets generalizing m with
  | nil => exact ⟨rfl, [], (List.append_nil _).symm, by simp⟩
  | cons socket rest ih =>
      obtain ⟨hsocket, hrest⟩ := List.forall_mem_cons.mp hs
      obtain ⟨hw, hright⟩ := List.forall_mem_cons.mp hright
      cases h : d.fails m.log.length ⟨.read, socketIndex t socket, msr⟩ with
      | true =>
          rw [turboLoop_read_refused hsocket h]
          exact ⟨rfl, [_], rfl, by simp⟩
      | false =>
          rw [turboLoop_right hsocket h hw]
          obtain ⟨hmsr, reads, hlog, hreads⟩ := ih hrest
            (m := { m with log := m.log ++ [⟨.read, socketIndex t socket, msr⟩] }) hright
          refine ⟨hmsr, ⟨.read, socketIndex t socket, msr⟩ :: reads, ?_, ?_⟩
          · rw [hlog, List.append_assoc, List.singleton_append]
          · exact List.forall_mem_cons.mpr ⟨rfl, hreads⟩

/-- The lines of `print_turbo_status` are about the registers it comes to. -/
theorem printTurboLoop_outcome {bit : Nat} (hbit : bit < 64) {sockets : List Nat}
    (hs : ∀ s ∈ sockets, s < t.nsockets) (m : Machine) :
    m.log <+: (printTurboLoop t d msr (turboMask bit) sockets m).2.2.log ∧
      (m.Clean d (printTurboLoop t d msr (turboMask bit) sockets m).2.2 →
        (printTurboLoop t d msr (turboMask bit) sockets m).1 = 0 ∧
        (printTurboLoop t d msr (turboMask bit) sockets m).2.1
          = sockets.map fun s =>
              turboStatusLine ((m.msr (socketIndex t s) msr).getLsbD bit) s) := by
  induction sockets generalizing m with
  | nil => exact ⟨List.prefix_refl _, fun _ => ⟨rfl, rfl⟩⟩
  | cons socket rest ih =>
      obtain ⟨hsocket, hrest⟩ := List.forall_mem_cons.mp hs
      rw [printTurboLoop, readMsrByCoord_socket hsocket]
      cases h : d.fails m.log.length ⟨.read, socketIndex t socket, msr⟩ with
      | true =>
          have hnot : ¬ m.Clean d
              { m with log := m.log ++ [⟨.read, socketIndex t socket, msr⟩] } := by
            unfold Machine.Clean
            rw [clean_append_iff, accepted_cons, h]
            simp
          simp only [Machine.pread, h, if_pos]
          exact ⟨List.prefix_append _ _, fun hclean => absurd hclean hnot⟩
      | false =>
          obtain ⟨hgrow, hlines⟩ := ih hrest
            { m with log := m.log ++ [⟨.read, socketIndex t socket, msr⟩] }
          have hfirst := List.prefix_append m.log [⟨.read, socketIndex t socket, msr⟩]
          simp only [Machine.pread, h, Bool.false_eq_true, if_false, ne_eq, not_true_eq_false,
            Option.getD_some]
          refine ⟨hfirst.trans hgrow, fun hclean => ?_⟩
          obtain ⟨hret, hrec⟩ := hlines ((clean_trans_iff hfirst hgrow).mp hclean).2
          refine ⟨hret, ?_⟩
          rw [hrec, List.map_cons, eq_or_turboMask hbit]

end Outcome

/-! ### The two switches -/

/-- `set_turbo_off` and `set_turbo_on`, by what becomes of the turbo disable
bit. -/
def setTurbo : Bool → Topology → Driver → Nat → Nat → Machine → Int × Machine
  | true => setTurboOff
  | false => setTurboOn

/-- The value written by a switch. -/
def switchBit (disabled : Bool) (bit : Nat) (val : BitVec 64) : BitVec 64 :=
  if disabled then val ||| turboMask bit else val &&& ~~~turboMask bit

theorem switchBit_getLsbD {bit : Nat} (hbit : bit < 64) (disabled : Bool) (val : BitVec 64)
    (i : Nat) :
    (switchBit disabled bit val).getLsbD i = if i = bit then disabled else val.getLsbD i := by
  cases disabled with
  | false =>
      show (val &&& ~~~turboMask bit).getLsbD i = _
      rw [BitVec.getLsbD_and, BitVec.getLsbD_not, turboMask_getLsbD hbit]
      by_cases hi : i = bit
      · simp [hi]
      · have hlt : val.getLsbD i = true → i < 64 := BitVec.lt_of_getLsbD
        cases hv : val.getLsbD i <;> simp_all [Ne.symm hi]
  | true =>
      show (val ||| turboMask bit).getLsbD i = _
      rw [BitVec.getLsbD_or, turboMask_getLsbD hbit]
      by_cases hi : i = bit
      · simp [hi]
      · simp [hi, Ne.symm hi]

/-- What the switches test for. -/
def turboWrong (disabled : Bool) (bit : Nat) (val : BitVec 64) : Bool :=
  val.getLsbD bit != disabled

theorem turboWrong_switchBit {bit : Nat} (hbit : bit < 64) (disabled : Bool)
    (val : BitVec 64) : turboWrong disabled bit (switchBit disabled bit val) = false := by
  show ((switchBit disabled bit val).getLsbD bit != disabled) = false
  rw [switchBit_getLsbD hbit, if_pos rfl, bne_self_eq_false]

/-- Both switches are the one loop, over the registers whose bit differs. -/
theorem setTurbo_eq {bit : Nat} (hbit : bit < 64) (disabled : Bool) (t : Topology) (d : Driver)
    (msr : Nat) :
    setTurbo disabled t d msr bit
      = turboLoop t d msr (turboWrong disabled bit) (switchBit disabled bit)
          (List.range t.nsockets) := by
  cases disabled with
  | false =>
      show turboLoop t d msr (fun val => val == (val ||| turboMask bit)) _ _ = _
      congr 1
      funext val
      rw [eq_or_turboMask hbit, turboWrong, Bool.bne_false]
  | true =>
      show turboLoop t d msr (fun val => val != (val ||| turboMask bit)) _ _ = _
      congr 1
      funext val
      rw [bne, eq_or_turboMask hbit, turboWrong, Bool.bne_true]

/-- The outcome of the loop, for a switch. -/
theorem setTurbo_run {bit : Nat} (hbit : bit < 64) (disabled : Bool) (t : Topology) (d : Driver)
    (msr : Nat) (m : Machine) :
    ∃ done rest, List.range t.nsockets = done ++ rest ∧
      (setTurbo disabled t d msr bit m).2.msr
        = fixAll msr (turboWrong disabled bit) (switchBit disabled bit)
            (done.map (socketIndex t)) m.msr ∧
      ((setTurbo disabled t d msr bit m).1 = 0 ↔ rest = []) ∧
      ∀ socket ∈ rest.head?,
        StoppedAt d (socketIndex t socket) msr m (setTurbo disabled t d msr bit m).2 := by
  rw [setTurbo_eq hbit]
  exact turboLoop_outcome (turboWrong_switchBit hbit disabled) (fun s => List.mem_range.mp) m

/-- A call returns 0 exactly when nothing was refused. -/
theorem setTurbo_clean_iff {t : Topology} {d : Driver} {msr bit : Nat} (hbit : bit < 64)
    (disabled : Bool) (m : Machine) :
    (setTurbo disabled t d msr bit m).1 = 0 ↔ m.Clean d (setTurbo disabled t d msr bit m).2 := by
  rw [setTurbo_eq hbit]
  exact (turboLoop_clean_iff (turboWrong_switchBit hbit disabled)
    (fun s => List.mem_range.mp) m).2.2

/-! ### The law -/

/-- From `before` to `after`, bit `bit` of register `msr` has become `disabled`
on the CPUs of the first `k` sockets, and every other bit of every register is
as it was. -/
def SwitchedUpTo (t : Topology) (msr bit : Nat) (disabled : Bool) (k : Nat)
    (before after : Machine) : Prop :=
  ∀ cpu msr' i, (after.msr cpu msr').getLsbD i =
    if msr' = msr ∧ i = bit ∧ cpu ∈ (List.range k).map (fun socket => t.cpu socket 0 0)
    then disabled else (before.msr cpu msr').getLsbD i

/-- An access to register `msr` of `cpu` was refused on the way from `m` to
`m'`. -/
def RefusedAt (d : Driver) (cpu msr : Nat) (m m' : Machine) : Prop :=
  ∃ i dir, m.log.length ≤ i ∧ m'.log[i]? = some ⟨dir, cpu, msr⟩ ∧
    d.fails i ⟨dir, cpu, msr⟩ = true

/-- The law of turbo switching for one node, one register and one bit. -/
structure TurboSwitching (t : Topology) (msr bit : Nat) : Prop where
  /-- With nothing refused, every socket is switched. -/
  switches : ∀ disabled d m, m.Clean d (setTurbo disabled t d msr bit m).2 →
    (setTurbo disabled t d msr bit m).1 = 0 ∧
      SwitchedUpTo t msr bit disabled t.nsockets m (setTurbo disabled t d msr bit m).2
  /-- A second call only reads, whatever becomes of its accesses. -/
  again : ∀ disabled d d' m, m.Clean d (setTurbo disabled t d msr bit m).2 →
    (setTurbo disabled t d' msr bit (setTurbo disabled t d msr bit m).2).2.msr
        = (setTurbo disabled t d msr bit m).2.msr ∧
      ∃ reads, (setTurbo disabled t d' msr bit (setTurbo disabled t d msr bit m).2).2.log
          = (setTurbo disabled t d msr bit m).2.log ++ reads ∧ ∀ a ∈ reads, a.dir = .read
  /-- Turbo off after turbo on restores what was off. -/
  restores : ∀ d m, m.Clean d (setTurboOn t d msr bit m).2 →
    (setTurboOn t d msr bit m).2.Clean d
      (setTurboOff t d msr bit (setTurboOn t d msr bit m).2).2 →
    ∀ cpu msr', (m.msr cpu msr').getLsbD bit = true →
      (setTurboOff t d msr bit (setTurboOn t d msr bit m).2).2.msr cpu msr' = m.msr cpu msr'
  /-- The status is that of each socket's own register. -/
  reports : ∀ d m, m.Clean d (printTurboStatus t d msr bit m).2.2 →
    (printTurboStatus t d msr bit m).1 = 0 ∧
      (printTurboStatus t d msr bit m).2.1 = (List.range t.nsockets).map fun socket =>
        turboStatusLine ((m.msr (t.cpu socket 0 0) msr).getLsbD bit) socket
  /-- With an access refused at socket `k`, the sockets before it are switched
  and the others are not. -/
  stops : ∀ disabled d m, ∀ k < t.nsockets,
    RefusedAt d (t.cpu k 0 0) msr m (setTurbo disabled t d msr bit m).2 →
      (setTurbo disabled t d msr bit m).1 ≠ 0 ∧
        SwitchedUpTo t msr bit disabled k m (setTurbo disabled t d msr bit m).2

section Law

variable {t : Topology} {d : Driver} {msr bit k : Nat} {disabled : Bool} {m m' : Machine}

/-- A socket before the `k`-th is switched. -/
theorem SwitchedUpTo.of_lt (h : SwitchedUpTo t msr bit disabled k m m') {socket : Nat}
    (hk : socket < k) : (m'.msr (t.cpu socket 0 0) msr).getLsbD bit = disabled := by
  rw [h, if_pos]
  exact ⟨rfl, rfl, List.mem_map.mpr ⟨socket, List.mem_range.mpr hk, rfl⟩⟩

theorem fixAll_switched (hbit : bit < 64)
    (hmsr : m'.msr = fixAll msr (turboWrong disabled bit) (switchBit disabled bit)
      ((List.range k).map fun socket => t.cpu socket 0 0) m.msr) :
    SwitchedUpTo t msr bit disabled k m m' := by
  intro cpu msr' i
  rw [hmsr]
  by_cases hcpu : msr' = msr ∧ cpu ∈ (List.range k).map fun socket => t.cpu socket 0 0
  · obtain ⟨rfl, hmem⟩ := hcpu
    cases hw : turboWrong disabled bit (m.msr cpu msr') with
    | true => simp only [fixAll, hmem, hw, and_self, if_true, switchBit_getLsbD hbit, true_and,
        and_true]
    | false =>
        have hval : (m.msr cpu msr').getLsbD bit = disabled := by simpa [turboWrong] using hw
        simp only [fixAll, hmem, hw, Bool.false_eq_true, and_false, if_false, true_and, and_true]
        split
        · next hi => rw [hi, hval]
        · rfl
  · have hnot : ¬ (msr' = msr ∧ i = bit ∧
        cpu ∈ (List.range k).map fun socket => t.cpu socket 0 0) :=
      fun h => hcpu ⟨h.1, h.2.2⟩
    rw [if_neg hnot, fixAll, if_neg]
    exact fun h => hcpu ⟨h.1, h.2.1⟩

/-- **The outcome of a switch** where every socket is reached at its own
CPU. -/
theorem setTurbo_outcome (hfit : (t.nsockets - 1) * t.ncores < 2 ^ 32) (hbit : bit < 64)
    (disabled : Bool) (m : Machine) :
    ∃ k ≤ t.nsockets, SwitchedUpTo t msr bit disabled k m (setTurbo disabled t d msr bit m).2 ∧
      ((setTurbo disabled t d msr bit m).1 = 0 ↔ k = t.nsockets) ∧
      (k < t.nsockets →
        StoppedAt d (t.cpu k 0 0) msr m (setTurbo disabled t d msr bit m).2) := by
  obtain ⟨done, rest, hsplit, hmsr, hret, hstop⟩ := setTurbo_run hbit disabled t d msr m
  have hlength : done.length + rest.length = t.nsockets := by
    rw [← List.length_append, ← hsplit, List.length_range]
  -- the sockets done are the first ones, as the loop goes through them in order
  have hdone : done = List.range done.length := by
    have htake := congrArg (List.take done.length) hsplit
    rw [List.take_left, List.take_range, Nat.min_eq_left (by omega)] at htake
    exact htake.symm
  have hcpus : done.map (socketIndex t)
      = (List.range done.length).map fun socket => t.cpu socket 0 0 := by
    rw [hdone, List.length_range]
    apply List.map_congr_left
    intro s hmem
    have hlt := List.mem_range.mp hmem
    exact socketIndex_of_last_fits hfit (by omega)
  rw [hcpus] at hmsr
  refine ⟨done.length, by omega, fixAll_switched hbit hmsr, ?_, ?_⟩
  · rw [hret, ← List.length_eq_zero_iff]
    omega
  · intro hlt
    have hhead : rest.head? = some done.length := by
      have hget := congrArg (fun l => l[done.length]?) hsplit
      simp only [List.getElem?_range hlt, List.getElem?_append_right (Nat.le_refl _),
        Nat.sub_self] at hget
      rw [List.head?_eq_getElem?, ← hget]
    have hstop := hstop done.length hhead
    rwa [socketIndex_of_last_fits hfit hlt] at hstop

/-- With nothing refused, every socket is switched. -/
theorem setTurbo_switches (hfit : (t.nsockets - 1) * t.ncores < 2 ^ 32) (hbit : bit < 64)
    (disabled : Bool) (hclean : m.Clean d (setTurbo disabled t d msr bit m).2) :
    SwitchedUpTo t msr bit disabled t.nsockets m (setTurbo disabled t d msr bit m).2 := by
  obtain ⟨k, -, hswitched, hret, -⟩ := setTurbo_outcome (d := d) hfit hbit disabled m
  rwa [← hret.mp ((setTurbo_clean_iff hbit disabled m).mpr hclean)]

/-- A clean run had nothing refused. -/
theorem not_refusedAt {cpu : Nat} (hclean : m.Clean d m') : ¬ RefusedAt d cpu msr m m' := by
  rintro ⟨i, dir, hi, hget, href⟩
  obtain ⟨added, hlog, hacc⟩ := hclean
  rw [hlog, List.getElem?_append_right hi] at hget
  have hok := accepted_getElem hacc hget
  rw [Nat.add_sub_cancel' hi, href] at hok
  cases hok

/-- The law holds where the flattening of the last socket fits. -/
theorem turboSwitching_of_fits (hfit : (t.nsockets - 1) * t.ncores < 2 ^ 32) (hbit : bit < 64) :
    TurboSwitching t msr bit where
  switches disabled d m hclean :=
    ⟨(setTurbo_clean_iff hbit disabled m).mpr hclean, setTurbo_switches hfit hbit disabled hclean⟩
  again disabled d d' m hclean := by
    have hswitched := setTurbo_switches hfit hbit disabled hclean
    generalize (setTurbo disabled t d msr bit m).2 = m₁ at hswitched ⊢
    rw [setTurbo_eq hbit]
    apply turboLoop_reads (fun s => List.mem_range.mp)
    intro s hs
    have hlt := List.mem_range.mp hs
    rw [socketIndex_of_last_fits hfit hlt, turboWrong, hswitched.of_lt hlt, bne_self_eq_false]
  restores d m hclean₁ hclean₂ cpu msr' hset := by
    have hon := setTurbo_switches hfit hbit false hclean₁
    have hoff := setTurbo_switches hfit hbit true hclean₂
    apply BitVec.eq_of_getLsbD_eq
    intro i _
    refine (hoff cpu msr' i).trans ?_
    rw [show (setTurboOn t d msr bit m).2 = (setTurbo false t d msr bit m).2 from rfl, hon]
    split
    · next h => rw [h.2.1, hset]
    · rfl
  reports d m hclean := by
    have hlines := (printTurboLoop_outcome hbit (fun s => List.mem_range.mp) m).2 hclean
    refine ⟨hlines.1, hlines.2.trans ?_⟩
    apply List.map_congr_left
    intro s hs
    rw [socketIndex_of_last_fits hfit (List.mem_range.mp hs)]
  stops disabled d m k hk hrefused := by
    obtain ⟨k', hk', hswitched, hret, hstop⟩ := setTurbo_outcome (d := d) hfit hbit disabled m
    have hne : (setTurbo disabled t d msr bit m).1 ≠ 0 := fun h0 =>
      not_refusedAt ((setTurbo_clean_iff hbit disabled m).mp h0) hrefused
    have hlt : k' < t.nsockets := Nat.lt_of_le_of_ne hk' fun heq => hne (hret.mpr heq)
    obtain ⟨i, dir, hi, hget, href⟩ := hrefused
    -- the loop stopped where the access was refused, so the socket is the one it had come to
    have hcpu := Topology.cpu_socket_inj.mp ((hstop hlt).cpu_eq hi hget href)
    exact ⟨hne, hcpu ▸ hswitched⟩

/-- Where that flattening overflows, the register of the last socket keeps its
value. -/
theorem setTurbo_last (hover : 2 ^ 32 ≤ (t.nsockets - 1) * t.ncores) (hbit : bit < 64)
    (disabled : Bool) (d : Driver) (msr : Nat) (m : Machine) :
    (setTurbo disabled t d msr bit m).2.msr (t.cpu (t.nsockets - 1) 0 0) msr
      = m.msr (t.cpu (t.nsockets - 1) 0 0) msr := by
  obtain ⟨done, rest, hsplit, hmsr, -, -⟩ := setTurbo_run hbit disabled t d msr m
  rw [hmsr, fixAll, if_neg]
  rintro ⟨-, hmem, -⟩
  obtain ⟨s, hdone, hindex⟩ := List.mem_map.mp hmem
  have hlt : s ∈ List.range t.nsockets := hsplit ▸ List.mem_append_left rest hdone
  exact socketIndex_ne_last hover (List.mem_range.mp hlt) hindex

/-- Nothing is refused by a driver that refuses nothing. -/
theorem setTurbo_of_never (hbit : bit < 64) (disabled : Bool) (t : Topology) (msr : Nat)
    (m : Machine) :
    m.Clean ⟨fun _ _ => false⟩ (setTurbo disabled t ⟨fun _ _ => false⟩ msr bit m).2 := by
  rw [setTurbo_eq hbit, (turboLoop_clean_iff (turboWrong_switchBit hbit disabled)
    (fun s => List.mem_range.mp) m).2.1]
  exact accepted_of_never (fun _ _ => rfl) _ _

/-- The law fails where the product overflows for the last socket. -/
theorem not_turboSwitching_of_overflow (hover : 2 ^ 32 ≤ (t.nsockets - 1) * t.ncores)
    (hbit : bit < 64) : ¬ TurboSwitching t msr bit := by
  intro hlaw
  have hlast : t.nsockets - 1 < t.nsockets := Nat.sub_lt t.nsockets_pos one_pos
  have hclean := setTurbo_of_never hbit true t msr ⟨fun _ _ => 0, []⟩
  have hset := ((hlaw.switches true _ _ hclean).2).of_lt hlast
  rw [setTurbo_last hover hbit] at hset
  simp at hset

/-- **Turbo switching, exactly.**  On every register and at every bit, the law
holds precisely on the nodes where `socket * ncores` fits in 32 bits for the
last socket. -/
theorem turboSwitching_iff (t : Topology) (msr : Nat) (bit : Fin 63) :
    TurboSwitching t msr bit ↔ (t.nsockets - 1) * t.ncores < 2 ^ 32 := by
  have hbit : bit.val < 64 := by omega
  constructor
  · intro hlaw
    by_contra hover
    exact not_turboSwitching_of_overflow (Nat.not_lt.mp hover) hbit hlaw
  · exact fun hfit => turboSwitching_of_fits hfit hbit

/-- On the node of 65537 sockets `set_turbo_off` returns 0 and the last socket,
on CPU 65536, keeps its turbo disable bit clear. -/
theorem setTurboOff_manySockets :
    (setTurboOff manySockets ⟨fun _ _ => false⟩ 0x1a0 38 ⟨fun _ _ => 0, []⟩).1 = 0 ∧
      ((setTurboOff manySockets ⟨fun _ _ => false⟩ 0x1a0 38 ⟨fun _ _ => 0, []⟩).2.msr
        65536 0x1a0).getLsbD 38 = false ∧
      ¬ TurboSwitching manySockets 0x1a0 38 := by
  have hover : 2 ^ 32 ≤ (manySockets.nsockets - 1) * manySockets.ncores := by decide
  have hbit : 38 < 64 := by decide
  have hlast : manySockets.cpu (manySockets.nsockets - 1) 0 0 = 65536 := by decide
  have hoff : setTurboOff = setTurbo true := rfl
  rw [hoff]
  refine ⟨?_, ?_, not_turboSwitching_of_overflow hover hbit⟩
  · exact (setTurbo_clean_iff hbit true _).mpr (setTurbo_of_never hbit true _ _ _)
  · have hkept := setTurbo_last hover hbit true ⟨fun _ _ => false⟩ 0x1a0 ⟨fun _ _ => 0, []⟩
    rw [hlast] at hkept
    rw [hkept]
    exact BitVec.getLsbD_zero

end Law

end Variorum
