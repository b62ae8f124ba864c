/-
Variorum/Turbo.lean

Turbo mode on Intel processors: `set_turbo_on`, `set_turbo_off` and
`print_turbo_status`.

The first two are one loop over the sockets (`turboLoop`) with different tests and
different values to write.  On each socket the register is read, and written
only if its turbo disable bit is not as wanted; the first refused access ends
the loop with its error.

`turboLoop_clean_iff` lists the accesses that must go through for the loop to
come to its end.  `turboLoop_outcome` is the step-by-step account of it: it takes
the sockets in order, and either comes to their end or stops at the first one
with a refused access.  So `turboLoop_msr` says what it leaves in the registers
when it does come to the end: the bit is as wanted on every CPU the loop came
to, and nothing else changed.
-/
import Variorum.MsrCore

namespace Variorum

open History

/-- The loop of `set_turbo_on` and `set_turbo_off`: `wrong` is the test of the
`if`, `fix` makes the value to be written. -/
def turboLoop (t : Topology) (d : Driver) (msr : Nat) (wrong : BitVec 64 → Bool)
    (fix : BitVec 64 → BitVec 64) : List Nat → Machine → Int × Machine
  | [], m => (0, m)
  | socket :: rest, m =>
      match readMsrByCoord t d (BitVec.ofNat 32 socket) 0#32 0#32 msr (some 0) m with
      | (ret, val, m) =>
          if ret ≠ 0 then (ret, m)
          else if wrong (val.getD 0) then
            match
              writeMsrByCoord t d (BitVec.ofNat 32 socket) 0#32 0#32 msr (fix (val.getD 0)) m with
            | (ret, m) => if ret ≠ 0 then (ret, m) else turboLoop t d msr wrong fix rest m
          else turboLoop t d msr wrong fix rest m

/-- `mask |= 1LL << turbo_mode_disable_bit`. -/
def turboMask (turboModeDisableBit : Nat) : BitVec 64 := 1#64 <<< turboModeDisableBit

/-- `set_turbo_on`. -/
def setTurboOn (t : Topology) (d : Driver) (msrMiscEnable turboModeDisableBit : Nat) :
    Machine → Int × Machine :=
  let mask := turboMask turboModeDisableBit
  turboLoop t d msrMiscEnable (fun val => val == (val ||| mask)) (fun val => val &&& ~~~mask)
    (List.range t.nsockets)

/-- `set_turbo_off`. -/
def setTurboOff (t : Topology) (d : Driver) (msrMiscEnable turboModeDisableBit : Nat) :
    Machine → Int × Machine :=
  let mask := turboMask turboModeDisableBit
  turboLoop t d msrMiscEnable (fun val => val != (val ||| mask)) (fun val => val ||| mask)
    (List.range t.nsockets)

/-- What `print_turbo_status` writes about a socket. -/
def turboStatusLine (disabled : Bool) (socket : Nat) : String :=
  if disabled then s!"Turbo disabled on socket {socket}.\n"
  else s!"Turbo enabled on socket {socket}.\n"

/-- The loop of `print_turbo_status`: its return value, the lines it writes,
the machine. -/
def printTurboLoop (t : Topology) (d : Driver) (msr : Nat) (mask : BitVec 64) :
    List Nat → Machine → Int × List String × Machine
  | [], m => (0, [], m)
  | socket :: rest, m =>
      match readMsrByCoord t d (BitVec.ofNat 32 socket) 0#32 0#32 msr (some 0) m with
      | (ret, val, m) =>
          if ret ≠ 0 then (ret, [], m)
          else
            match printTurboLoop t d msr mask rest m with
            | (ret, lines, m) =>
                (ret, turboStatusLine (val.getD 0 == (val.getD 0 ||| mask)) socket :: lines, m)

/-- `print_turbo_status`. -/
def printTurboStatus (t : Topology) (d : Driver) (msrMiscEnable turboModeDisableBit : Nat) :
    Machine → Int × List String × Machine :=
  printTurboLoop t d msrMiscEnable (turboMask turboModeDisableBit) (List.range t.nsockets)

/-- The accesses of the loop when none is refused, for the CPUs it comes to:
`wrong` says on which of them the register is still to be written. -/
def turboAccesses (msr : Nat) : (Nat → Bool) → List Nat → List Access
  | _, [] => []
  | wrong, cpu :: cpus =>
      ⟨.read, cpu, msr⟩ ::
        if wrong cpu then
          ⟨.write, cpu, msr⟩ :: turboAccesses msr (Function.update wrong cpu false) cpus
        else turboAccesses msr wrong cpus

/-- Register contents once the wrong ones of `cpus` are fixed. -/
def fixAll (msr : Nat) (wrong : BitVec 64 → Bool) (fix : BitVec 64 → BitVec 64)
    (cpus : List Nat) (contents : Nat → Nat → BitVec 64) : Nat → Nat → BitVec 64 :=
  fun cpu msr' =>
    if msr' = msr ∧ cpu ∈ cpus ∧ wrong (contents cpu msr) = true then fix (contents cpu msr)
    else contents cpu msr'

/-- The run from `m` to `m'` ended with a refused access to register `msr` of
`cpu`, the first that was refused. -/
def StoppedAt (d : Driver) (cpu msr : Nat) (m m' : Machine) : Prop :=
  ∃ before dir, m'.log = m.log ++ before ++ [⟨dir, cpu, msr⟩] ∧
    Accepted d.fails m.log.length before ∧
    d.fails (m.log.length + before.length) ⟨dir, cpu, msr⟩ = true

/-! ### The loop -/

section Loop

variable {t : Topology} {d : Driver} {msr : Nat} {wrong : BitVec 64 → Bool}
variable {fix : BitVec 64 → BitVec 64} {contents : Nat → Nat → BitVec 64}
variable {socket : Nat} {rest : List Nat} {m m₁ m' : Machine}

/-- A refused read ends the loop. -/
theorem turboLoop_read_refused (hs : socket < t.nsockets)
    (h : d.fails m.log.length ⟨.read, socketIndex t socket, msr⟩ = true) :
    turboLoop t d msr wrong fix (socket :: rest) m
      = (VariorumError.msrRead.code,
          { m with log := m.log ++ [⟨.read, socketIndex t socket, msr⟩] }) := by
  rw [turboLoop, readMsrByCoord_socket hs]
  simp [Machine.pread, h]

/-- A socket whose bit is as wanted is only read. -/
theorem turboLoop_right (hs : socket < t.nsockets)
    (h : d.fails m.log.length ⟨.read, socketIndex t socket, msr⟩ = false)
    (hw : wrong (m.msr (socketIndex t socket) msr) = false) :
    turboLoop t d msr wrong fix (socket :: rest) m
      = turboLoop t d msr wrong fix rest
          { m with log := m.log ++ [⟨.read, socketIndex t socket, msr⟩] } := by
  rw [turboLoop, readMsrByCoord_socket hs]
  simp [Machine.pread, h, hw]

theorem turboLoop_write_refused (hs : socket < t.nsockets)
    (h : d.fails m.log.length ⟨.read, socketIndex t socket, msr⟩ = false)
    (hw : wrong (m.msr (socketIndex t socket) msr) = true)
    (h' : d.fails (m.log.length + 1) ⟨.write, socketIndex t socket, msr⟩ = true) :
    turboLoop t d msr wrong fix (socket :: rest) m
      = (VariorumError.msrWrite.code,
          { m with log := m.log ++ [⟨.read, socketIndex t socket, msr⟩,
              ⟨.write, socketIndex t socket, msr⟩] }) := by
  rw [turboLoop, readMsrByCoord_socket hs]
  simp [Machine.pread, h, hw, writeMsrByCoord_socket hs, Machine.pwrite, h']

theorem turboLoop_write (hs : socket < t.nsockets)
    (h : d.fails m.log.length ⟨.read, socketIndex t socket, msr⟩ = false)
    (hw : wrong (m.msr (socketIndex t socket) msr) = true)
    (h' : d.fails (m.log.length + 1) ⟨.write, socketIndex t socket, msr⟩ = false) :
    turboLoop t d msr wrong fix (socket :: rest) m
      = turboLoop t d msr wrong fix rest
          ⟨m.store (socketIndex t socket) msr (fix (m.msr (socketIndex t socket) msr)),
            m.log ++ [⟨.read, socketIndex t socket, msr⟩,
              ⟨.write, socketIndex t socket, msr⟩]⟩ := by
  rw [turboLoop, readMsrByCoord_socket hs]
  simp [Machine.pread, h, hw, writeMsrByCoord_socket hs, Machine.pwrite, h', Machine.store]

/-- Storing the fixed value leaves one register less to be written. -/
theorem wrong_store (hfix : ∀ v, wrong (fix v) = false) (m : Machine) (cpu : Nat) :
    (fun cpu' => wrong (m.store cpu msr (fix (m.msr cpu msr)) cpu' msr))
      = Function.update (fun cpu' => wrong (m.msr cpu' msr)) cpu false := by
  funext cpu'
  by_cases hcpu : cpu' = cpu
  · rw [hcpu, Machine.store_self, hfix, Function.update_self]
  · rw [Machine.store_of_ne _ _ _ _ (.inl hcpu), Function.update_of_ne hcpu]

/-- **What the loop needs.**  Nothing is refused exactly when the accesses that
the registers call for are all let through, and the loop returns 0 exactly
then. -/
theorem turboLoop_clean_iff (hfix : ∀ v, wrong (fix v) = false) {sockets : List Nat}
    (hs : ∀ s ∈ sockets, s < t.nsockets) (m : Machine) :
    m.log <+: (turboLoop t d msr wrong fix sockets m).2.log ∧
      (m.Clean d (turboLoop t d msr wrong fix sockets m).2 ↔
        Accepted d.fails m.log.length
          (turboAccesses msr (fun cpu => wrong (m.msr cpu msr)) (sockets.map (socketIndex t)))) ∧
      ((turboLoop t d msr wrong fix sockets m).1 = 0 ↔
        m.Clean d (turboLoop t d msr wrong fix sockets m).2) := by
  induction sockets generalizing m with
  | nil =>
      have hclean : m.Clean d m := clean_refl
      exact ⟨List.prefix_refl _, iff_of_true hclean trivial, iff_of_true rfl hclean⟩
  | cons socket rest ih =>
      obtain ⟨hsocket, hrest⟩ := List.forall_mem_cons.mp hs
      -- the entries of this socket, then the induction hypothesis from there
      have hstep : ∀ {m₁ : Machine} {first : List Access},
          turboLoop t d msr wrong fix (socket :: rest) m = turboLoop t d msr wrong fix rest m₁ →
          m₁.log = m.log ++ first → Accepted d.fails m.log.length first →
          m.log <+: (turboLoop t d msr wrong fix (socket :: rest) m).2.log ∧
            (m.Clean d (turboLoop t d msr wrong fix (socket :: rest) m).2 ↔
              Accepted d.fails m.log.length (first ++
                turboAccesses msr (fun cpu => wrong (m₁.msr cpu msr))
                  (rest.map (socketIndex t)))) ∧
            ((turboLoop t d msr wrong fix (socket :: rest) m).1 = 0 ↔
              m.Clean d (turboLoop t d msr wrong fix (socket :: rest) m).2) := by
        intro m₁ first hrun hlog hfirst
        obtain ⟨hgrow, hclean, hret⟩ := ih hrest m₁
        unfold Machine.Clean at hclean hret ⊢
        rw [hlog] at hgrow hclean hret
        rw [hrun]
        refine ⟨(List.prefix_append _ _).trans hgrow, clean_step_iff hgrow hclean, ?_⟩
        rw [hret, clean_trans_iff (List.prefix_append _ _) hgrow, clean_append_iff]
        exact (and_iff_right hfirst).symm
      rw [List.map_cons, turboAccesses]
      cases h : d.fails m.log.length ⟨.read, socketIndex t socket, msr⟩ with
      | true =>
          unfold Machine.Clean
          rw [turboLoop_read_refused hsocket h, clean_append_iff]
          exact ⟨List.prefix_append _ _, by simp [h], by simp [h]⟩
      | false =>
          cases hw : wrong (m.msr (socketIndex t socket) msr) with
          | false => simpa using hstep (turboLoop_right hsocket h hw) rfl ⟨h, trivial⟩
          | true =>
              cases h' : d.fails (m.log.length + 1) ⟨.write, socketIndex t socket, msr⟩ with
              | true =>
                  unfold Machine.Clean
                  rw [turboLoop_write_refused hsocket h hw h', clean_append_iff]
                  exact ⟨List.prefix_append _ _, by simp [h'], by simp [h']⟩
              | false =>
                  have hrun := hstep (turboLoop_write hsocket h hw h') rfl ⟨h, h', trivial⟩
                  rw [wrong_store hfix] at hrun
                  simpa using hrun

@[simp] theorem fixAll_nil : fixAll msr wrong fix [] contents = contents := by
  funext cpu msr'
  simp [fixAll]

/-- A register that is as wanted needs no fixing. -/
theorem fixAll_cons_of_right {cpu : Nat} (cpus : List Nat)
    (h : wrong (contents cpu msr) = false) :
    fixAll msr wrong fix (cpu :: cpus) contents = fixAll msr wrong fix cpus contents := by
  funext cpu' msr'
  by_cases hcpu : cpu' = cpu
  · subst hcpu
    simp [fixAll, h]
  · simp [fixAll, hcpu]

/-- One register fixed, then the others. -/
theorem fixAll_store (hfix : ∀ v, wrong (fix v) = false) {cpu : Nat} (cpus : List Nat)
    (h : wrong (m.msr cpu msr) = true) :
    fixAll msr wrong fix cpus (m.store cpu msr (fix (m.msr cpu msr)))
      = fixAll msr wrong fix (cpu :: cpus) m.msr := by
  funext cpu' msr'
  by_cases hcpu : cpu' = cpu
  · subst hcpu
    by_cases hmsr : msr' = msr
    · simp [fixAll, hmsr, hfix, h]
    · simp [fixAll, hmsr, Machine.store_of_ne]
  · simp [fixAll, hcpu, Machine.store_of_ne]

/-- What was let through first is part of the run. -/
theorem StoppedAt.prepend {cpu : Nat} (first : List Access) (hlog : m₁.log = m.log ++ first)
    (hfirst : Accepted d.fails m.log.length first) (h : StoppedAt d cpu msr m₁ m') :
    StoppedAt d cpu msr m m' := by
  obtain ⟨before, dir, hl, hacc, href⟩ := h
  rw [hlog, List.length_append] at hacc href
  refine ⟨first ++ before, dir, ?_, ?_, ?_⟩
  · rw [hl, hlog, List.append_assoc m.log]
  · rw [accepted_append]
    exact ⟨hfirst, hacc⟩
  · rwa [List.length_append, ← Nat.add_assoc]

/-- **The outcome of the loop**, by induction on the sockets: it has come
through those of `done`, and stops with the first of the others, if any. -/
theorem turboLoop_outcome (hfix : ∀ v, wrong (fix v) = false) {sockets : List Nat}
    (hs : ∀ s ∈ sockets, s < t.nsockets) (m : Machine) :
    ∃ done rest, sockets = done ++ rest ∧
      (turboLoop t d msr wrong fix sockets m).2.msr
        = fixAll msr wrong fix (done.map (socketIndex t)) m.msr ∧
      ((turboLoop t d msr wrong fix sockets m).1 = 0 ↔ rest = []) ∧
      ∀ socket ∈ rest.head?,
        StoppedAt d (socketIndex t socket) msr m (turboLoop t d msr wrong fix sockets m).2 := by
  -- by induction on the sockets that are left; the log grows by one or two accesses a turn
  induction sockets generalizing m with
  | nil =>
      refine ⟨[], [], rfl, ?_, iff_of_true rfl rfl, ?_⟩
      · show m.msr = _
        rw [List.map_nil, fixAll_nil]
      · rintro socket ⟨⟩
  | cons socket rest ih =>
      obtain ⟨hsocket, hrest⟩ := List.forall_mem_cons.mp hs
      cases h : d.fails m.log.length ⟨.read, socketIndex t socket, msr⟩ with
      | true =>
          -- a refused read ends the loop here, and nothing of this socket is done
          rw [turboLoop_read_refused hsocket h]
          refine ⟨[], socket :: rest, rfl, ?_, ?_, ?_⟩
          · rw [List.map_nil, fixAll_nil]
          · simp
          · rintro _ ⟨⟩
            exact ⟨[], .read, by simp, trivial, h⟩
      | false =>
          cases hw : wrong (m.msr (socketIndex t socket) msr) with
          | false =>
              -- the register is right already, so it is not written
              rw [turboLoop_right hsocket h hw]
              obtain ⟨done, rest', hsplit, hmsr, hret, hstop⟩ := ih hrest
                { m with log := m.log ++ [⟨.read, socketIndex t socket, msr⟩] }
              refine ⟨socket :: done, rest', ?_, ?_, hret, ?_⟩
              · rw [hsplit, List.cons_append]
              · rw [hmsr, List.map_cons, fixAll_cons_of_right _ hw]
              · exact fun s hs => (hstop s hs).prepend [_] rfl ⟨h, trivial⟩
          | true =>
              cases h' : d.fails (m.log.length + 1) ⟨.write, socketIndex t socket, msr⟩ with
              | true =>
                  -- the read went well but the write is refused: the loop ends with the register as
                  -- it was
                  rw [turboLoop_write_refused hsocket h hw h']
                  refine ⟨[], socket :: rest, rfl, ?_, ?_, ?_⟩
                  · rw [List.map_nil, fixAll_nil]
                  · simp
                  · rintro _ ⟨⟩
                    exact ⟨[⟨.read, socketIndex t socket, msr⟩], .write, by simp,
                      ⟨h, trivial⟩, h'⟩
              | false =>
                  rw [turboLoop_write hsocket h hw h']
                  obtain ⟨done, rest', hsplit, hmsr, hret, hstop⟩ := ih hrest
                    ⟨m.store (socketIndex t socket) msr
                        (fix (m.msr (socketIndex t socket) msr)),
                      m.log ++ [⟨.read, socketIndex t socket, msr⟩,
                        ⟨.write, socketIndex t socket, msr⟩]⟩
                  refine ⟨socket :: done, rest', ?_, ?_, hret, ?_⟩
                  · rw [hsplit, List.cons_append]
                  · rw [hmsr, List.map_cons]
                    exact fixAll_store hfix _ hw
                  · exact fun s hs => (hstop s hs).prepend [_, _] rfl ⟨h, h', trivial⟩

/-- **What the loop does.**  Where nothing was refused, the register is as
wanted on every CPU the loop came to, and no other register has changed. -/
theorem turboLoop_msr (hfix : ∀ v, wrong (fix v) = false) {sockets : List Nat}
    (hs : ∀ s ∈ sockets, s < t.nsockets) (m : Machine)
    (hacc : Accepted d.fails m.log.length
      (turboAccesses msr (fun cpu => wrong (m.msr cpu msr)) (sockets.map (socketIndex t))))
    (cpu msr' : Nat) :
    (turboLoop t d msr wrong fix sockets m).2.msr cpu msr'
      = if msr' = msr ∧ cpu ∈ sockets.map (socketIndex t) ∧ wrong (m.msr cpu msr) = true
        then fix (m.msr cpu msr) else m.msr cpu msr' := by
  obtain ⟨-, hclean, hret⟩ := turboLoop_clean_iff hfix hs m
  obtain ⟨done, rest, hsplit, hmsr, hend, -⟩ := turboLoop_outcome hfix hs m
  -- it has come through all sockets
  have hrest : rest = [] := hend.mp (hret.mpr (hclean.mpr hacc))
  rw [hrest, List.append_nil] at hsplit
  rw [hmsr, hsplit]
  rfl

end Loop

/-! ### A whole call -/

/-- The register of a socket is as wanted. -/
def SocketsRight (t : Topology) (msr : Nat) (wrong : BitVec 64 → Bool) (m : Machine) : Prop :=
  ∀ socket < t.nsockets, wrong (m.msr (t.cpu socket 0 0) msr) = false

/-- What it takes for a call to leave every socket as wanted and have nothing
refused: its accesses are let through, and a socket whose CPU it does not come
to is as wanted before. -/
def TurboApplies (t : Topology) (d : Driver) (msr : Nat) (wrong : BitVec 64 → Bool)
    (m : Machine) : Prop :=
  Accepted d.fails m.log.length (turboAccesses msr (fun cpu => wrong (m.msr cpu msr))
      ((List.range t.nsockets).map (socketIndex t))) ∧
    ∀ socket < t.nsockets,
      (∃ s < t.nsockets, socketIndex t s = t.cpu socket 0 0) ∨
        wrong (m.msr (t.cpu socket 0 0) msr) = false

section Call

variable {t : Topology} {d : Driver} {msr bit : Nat} {wrong : BitVec 64 → Bool}
variable {fix : BitVec 64 → BitVec 64} {m : Machine}

theorem turboLoop_applies_iff (hfix : ∀ v, wrong (fix v) = false) :
    (m.Clean d (turboLoop t d msr wrong fix (List.range t.nsockets) m).2 ∧
        SocketsRight t msr wrong (turboLoop t d msr wrong fix (List.range t.nsockets) m).2) ↔
      TurboApplies t d msr wrong m := by
  have hs : ∀ s ∈ List.range t.nsockets, s < t.nsockets := fun s => List.mem_range.mp
  rw [(turboLoop_clean_iff hfix hs m).2.1, TurboApplies]
  refine and_congr_right fun hacc => forall_congr' fun socket => imp_congr_right fun _ => ?_
  rw [turboLoop_msr hfix hs m hacc]
  by_cases hhit : ∃ s < t.nsockets, socketIndex t s = t.cpu socket 0 0
  · cases hw : wrong (m.msr (t.cpu socket 0 0) msr) <;> simp [hhit, hw, hfix]
  · simp [hhit]

theorem turboMask_getLsbD (hbit : bit < 64) (i : Nat) :
    (turboMask bit).getLsbD i = decide (bit = i) := by
  rw [turboMask, ← BitVec.twoPow_eq, BitVec.getLsbD_twoPow, decide_eq_true hbit, Bool.true_and]

/-- The `if` tests the turbo disable bit. -/
theorem eq_or_turboMask (hbit : bit < 64) (val : BitVec 64) :
    (val == (val ||| turboMask bit)) = val.getLsbD bit := by
  cases hval : val.getLsbD bit with
  | true =>
      rw [beq_iff_eq]
      apply BitVec.eq_of_getLsbD_eq
      intro i _
      rw [BitVec.getLsbD_or, turboMask_getLsbD hbit]
      by_cases hi : bit = i
      · rw [← hi, hval, Bool.true_or]
      · rw [decide_eq_false hi, Bool.or_false]
  | false =>
      rw [beq_eq_false_iff_ne]
      intro heq
      have hbits := congrArg (fun v : BitVec 64 => v.getLsbD bit) heq
      simp only [BitVec.getLsbD_or, turboMask_getLsbD hbit, hval] at hbits
      simp at hbits

/-- **`set_turbo_on`, exactly.**  Every socket has its bit right and nothing was
refused, just under the condition. -/
theorem setTurboOn_applies_iff (hbit : bit < 64) :
    (m.Clean d (setTurboOn t d msr bit m).2 ∧
        SocketsRight t msr (fun val => val.getLsbD bit) (setTurboOn t d msr bit m).2) ↔
      TurboApplies t d msr (fun val => val.getLsbD bit) m := by
  have htest : (fun val => val == (val ||| turboMask bit)) = fun val => val.getLsbD bit :=
    funext (eq_or_turboMask hbit)
  unfold setTurboOn
  simp only [htest]
  apply turboLoop_applies_iff
  intro val
  rw [BitVec.getLsbD_and, BitVec.getLsbD_not, turboMask_getLsbD hbit]
  simp

/-- **`set_turbo_off`, exactly.**  Every socket has its bit right and nothing was
refused, just under the condition. -/
theorem setTurboOff_applies_iff (hbit : bit < 64) :
    (m.Clean d (setTurboOff t d msr bit m).2 ∧
        SocketsRight t msr (fun val => !val.getLsbD bit) (setTurboOff t d msr bit m).2) ↔
      TurboApplies t d msr (fun val => !val.getLsbD bit) m := by
  have htest : (fun val => val != (val ||| turboMask bit)) = fun val => !val.getLsbD bit := by
    funext val
    rw [bne, eq_or_turboMask hbit]
  unfold setTurboOff
  simp only [htest]
  apply turboLoop_applies_iff
  intro val
  rw [BitVec.getLsbD_or, turboMask_getLsbD hbit]
  simp

end Call

end Variorum
