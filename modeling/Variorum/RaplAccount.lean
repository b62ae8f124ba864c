/-
Variorum/RaplAccount.lean

The energy account of `get_power` on a node.

`RaplEnergy` follows the arithmetic of a socket from one reading to the next.  Here
the readings come from the hardware: every package has consumed some energy, its
energy register shows it on each of its CPUs, and `read_batch` reads one CPU for
each socket.  A batch operation has 16 bits for the CPU, so the CPU that is read for
a socket need not be one of its own; `energySource` is the package it belongs to.

A call of `get_power` on the node is a call on what was read (`call_readings`), and
the rules of `RaplEnergy` carry over.  The account of every call and the sums of the
joules are right in a run exactly when no counter that is read wraps, no socket with
the largest unit consumes anything, and the package that is read for a socket
consumes what the socket does (`raplAccount_iff`).  Where the CPU numbers fit in 16
bits, the last holds of itself (`energySource_of_fits`).
-/
import Variorum.RaplOrder
import Variorum.Runs

namespace Variorum

open Runs

/-! ### Packages -/

namespace Topology

variable (t : Topology)

/-- The package that a CPU is part of. -/
def package (cpu : Nat) : Fin t.nsockets :=
  ⟨cpu % t.ncores / t.coresPerSocket, by
    have hcore : cpu % t.ncores < t.nsockets * t.coresPerSocket :=
      t.nsockets_mul_coresPerSocket.symm ▸ Nat.mod_lt cpu t.ncores_pos
    exact (Nat.div_lt_iff_lt_mul t.coresPerSocket_pos).mpr hcore⟩

/-- The package whose counter the batch reads for a socket. -/
def energySource (i : Fin t.nsockets) : Fin t.nsockets := t.package (unitCpu t i)

variable {t}

/-- The first CPU of a socket is one of its own. -/
theorem package_cpu (i : Fin t.nsockets) : t.package (t.cpu i 0 0) = i := by
  have hlt := (Topology.valid_socket i.isLt).offset_lt
  rw [Nat.add_zero] at hlt
  refine Fin.ext ?_
  show t.cpu i 0 0 % t.ncores / t.coresPerSocket = i
  rw [Topology.cpu_socket, Nat.mod_eq_of_lt hlt, Nat.mul_div_cancel _ t.coresPerSocket_pos]

theorem energySource_of_fits (hfit : t.SocketsFit) (i : Fin t.nsockets) : t.energySource i = i := by
  rw [energySource, unitCpu_of_fits hfit i.isLt, package_cpu]

end Topology

/-! ### The node -/

variable {node : RaplNode}

/-- From one call to the next: the time of the call, the units each package has consumed
in between, and the other registers as the call finds them. -/
structure PackageInterval (n : Nat) where
  now : Timeval
  used : Fin n → BitVec 32
  registers : Nat → Nat → BitVec 64

/-- The units each package has consumed so far, and the process. -/
structure EnergyProcess (node : RaplNode) where
  energy : Fin node.e.topo.nsockets → Nat
  process : RaplProcess node.e.topo.nsockets

/-- The registers when the packages have consumed `energy`: the energy register shows the
32 bits of the counter on every CPU of a package. -/
def RaplNode.contents (node : RaplNode) (energy : Fin node.e.topo.nsockets → Nat)
    (registers : Nat → Nat → BitVec 64) (cpu msr : Nat) : BitVec 64 :=
  if msr = node.msrs.msrPkgEnergyStatus then energyStatus (energy (node.e.topo.package cpu))
  else registers cpu msr

namespace EnergyProcess

/-- A call of `get_power` at the end of an interval. -/
def call (s : EnergyProcess node) (iv : PackageInterval node.e.topo.nsockets) :
    EnergyProcess node :=
  let energy := fun i => s.energy i + (iv.used i).toNat
  ⟨energy, node.runGetPower iv.now (s.process.found (node.contents energy iv.registers))⟩

def step (s : EnergyProcess node) (iv : PackageInterval node.e.topo.nsockets) :
    Option (EnergyProcess node) :=
  some (s.call iv)

/-- The `pkg_delta_joules` of a socket added up over a run of calls. -/
def sumJoules (i : Fin node.e.topo.nsockets) :
    EnergyProcess node → List (PackageInterval node.e.topo.nsockets) → ℚ
  | _, [] => 0
  | s, iv :: rest =>
      ((s.call iv).process.rapl.data.pkg i).deltaJoules + sumJoules i (s.call iv) rest

/-- What is asked of one call: the previous sample is kept, the joules are the difference
of the readings modulo `2^32` in the unit of `reg`, the watts are the joules over the time
elapsed. -/
def Accounted (reg : Fin node.e.topo.nsockets → BitVec 64) (s : EnergyProcess node)
    (iv : PackageInterval node.e.topo.nsockets) : Prop :=
  ∀ i, let x := (s.call iv).process.rapl.data.pkg i
    let elapsed := iv.now.since s.process.rapl.data.now
    x.oldBits = (s.process.rapl.data.pkg i).bits ∧
      x.deltaJoules
        = (Counter.advance (2 ^ 32) x.oldBits.toNat x.bits.toNat : ℕ) / 2 ^ energyUnit (reg i) ∧
      x.watts = if elapsed > 0 then x.deltaJoules / elapsed else 0

/-- The calls that meet it and whose joules are those of the socket: the counter that is
read does not wrap, with the largest energy unit nothing is consumed, and the package that
is read has consumed what the socket has. -/
def AccountPre (reg : Fin node.e.topo.nsockets → BitVec 64) (s : EnergyProcess node)
    (iv : PackageInterval node.e.topo.nsockets) : Prop :=
  ∀ i, let source := node.e.topo.energySource i
    (s.energy source % 2 ^ 32 + (iv.used source).toNat < 2 ^ 32 ∧
      (energyUnit (reg i) ≠ 31 ∨ iv.used source = 0)) ∧
    iv.used source = iv.used i

end EnergyProcess

/-- The units a package consumes over a run of calls. -/
def packageUnits {n : Nat} (i : Fin n) (ivs : List (PackageInterval n)) : Nat :=
  (ivs.map fun iv => (iv.used i).toNat).sum

/-- The reads of the package energy registers are let through. -/
def RaplNode.EnergyReads (node : RaplNode) : Prop :=
  ∀ k, ∀ i < node.e.topo.nsockets,
    node.e.driver.fails k ⟨.read, unitCpu node.e.topo i, node.msrs.msrPkgEnergyStatus⟩ = false

/-! ### What is read -/

/-- The first operations of the batch bring the package energy registers. -/
theorem readOps_pkg (hreads : node.EnergyReads) (p : RaplProcess node.e.topo.nsockets)
    (i : Fin node.e.topo.nsockets) :
    (((readOps node.e (node.dataOps p.rapl) p.power.machine).1.map (·.msrdata))[(i : Nat)]?).getD 0
      = p.power.machine.msr (unitCpu node.e.topo i) node.msrs.msrPkgEnergyStatus := by
  obtain ⟨data, hop⟩ : ∃ data, (node.dataOps p.rapl)[(i : Nat)]?
      = some (unitOp node.e.topo node.msrs.msrPkgEnergyStatus data i) := by
    refine ⟨RaplNode.dataCells
      (if p.rapl.readInit then p.rapl.data else (RaplState.start _).data).pkg, ?_⟩
    rw [RaplNode.dataOps, List.getElem?_append_left (by simp), List.getElem?_map,
      List.getElem?_range i.isLt]
    rfl
  rw [(readOps_image (dataOps_uniform p.rapl) p.power.machine).data, image, List.getElem?_mapIdx,
    hop, Option.map_some, Option.getD_some, unitOp_readAccess node.msrs.pkgEnergy_lt,
    hreads _ i i.isLt, unitOp_cpu, unitOp_msr node.msrs.pkgEnergy_lt]
  rfl

/-- `get_power` samples the package energy registers of the CPUs in the batch. -/
theorem runGetPower_samples (hreads : node.EnergyReads) (now : Timeval)
    (p : RaplProcess node.e.topo.nsockets) :
    ∃ dram, (node.runGetPower now p).rapl
      = getPower ⟨node.archId, fun i => getRaplPowerUnit (node.table p (.getPower now) i)⟩ p.rapl
          ⟨now, fun i => p.power.machine.msr (unitCpu node.e.topo i) node.msrs.msrPkgEnergyStatus,
            dram⟩ := by
  refine ⟨fun i => (((readOps node.e (node.dataOps p.rapl) p.power.machine).1.map
    (·.msrdata))[node.e.topo.nsockets + i]?).getD 0, ?_⟩
  simp only [RaplNode.runGetPower, readOps_dataOps p now, readOps_pkg hreads p]
  rfl

/-! ### The readings -/

namespace EnergyProcess

/-- What is known of the energy of the sockets: the counters that are read for them. -/
def readings (s : EnergyProcess node) : EnergyNode node.e.topo.nsockets :=
  ⟨fun i => s.energy (node.e.topo.energySource i), s.process.rapl⟩

end EnergyProcess

/-- An interval as it is read; `dram` is what the batch brings of the DRAM. -/
def PackageInterval.readings (iv : PackageInterval node.e.topo.nsockets)
    (dram : Fin node.e.topo.nsockets → BitVec 64) : Interval node.e.topo.nsockets :=
  ⟨iv.now, fun i => iv.used (node.e.topo.energySource i), dram⟩

/-- The units in use have the values of `reg`. -/
def EnergyProcess.UnitsOf (reg : Fin node.e.topo.nsockets → BitVec 64) (s : EnergyProcess node) :
    Prop :=
  ∃ ru, s.process.power.ru = some ru ∧ ∀ i : Fin _, SameUnits (ru i) (reg i)

section Readings

variable {reg : Fin node.e.topo.nsockets → BitVec 64} {s : EnergyProcess node}
variable {iv : PackageInterval node.e.topo.nsockets}

/-- The table of units after a call. -/
theorem call_ru (s : EnergyProcess node) (iv : PackageInterval node.e.topo.nsockets) :
    (s.call iv).process.power.ru = some (node.table (s.process.found (node.contents
      (fun i => s.energy i + (iv.used i).toNat) iv.registers)) (.getPower iv.now)) :=
  (step_spec (s.process.found _) (c := .getPower iv.now) rfl).1

/-- The table of units stays through every later call. -/
theorem unitsOf_call (h : s.UnitsOf reg) : (s.call iv).UnitsOf reg := by
  obtain ⟨ru, hru, hsame⟩ := h
  have hfound : ∀ contents, (s.process.found contents).power.ru = some ru := fun _ => hru
  refine ⟨ru, ?_, hsame⟩
  rw [call_ru, table_of_some (hfound _)]

/-- **A call on the node is a call on what is read.** -/
theorem call_readings (hreads : node.EnergyReads) (h : (s.call iv).UnitsOf reg) :
    ∃ dram, (s.call iv).readings
      = s.readings.call (unitConfig node.archId reg) (iv.readings dram) := by
  obtain ⟨ru, hru, hsame⟩ := h
  rw [call_ru] at hru
  obtain ⟨dram, hrapl⟩ := runGetPower_samples hreads iv.now
    (s.process.found (node.contents (fun i => s.energy i + (iv.used i).toNat) iv.registers))
  refine ⟨dram, ?_⟩
  have hshown : ∀ i : Fin node.e.topo.nsockets,
      node.contents (fun i => s.energy i + (iv.used i).toNat) iv.registers
          (unitCpu node.e.topo i) node.msrs.msrPkgEnergyStatus
        = energyStatus (s.energy (node.e.topo.energySource i)
            + (iv.used (node.e.topo.energySource i)).toNat) := fun i => if_pos rfl
  rw [Option.some.inj hru, getPower_congr fun i => (hsame i).agree] at hrapl
  have hsample : (fun i : Fin node.e.topo.nsockets => (s.process.found (node.contents
      (fun i => s.energy i + (iv.used i).toNat) iv.registers)).power.machine.msr
        (unitCpu node.e.topo i) node.msrs.msrPkgEnergyStatus) = _ := funext hshown
  rw [hsample] at hrapl
  exact congrArg (EnergyNode.mk _) hrapl

/-- Between calls: the units in use are those of `reg`, and what was sampled last is what
the counters show. -/
structure EnergyProcess.UpToDate (reg : Fin node.e.topo.nsockets → BitVec 64)
    (s : EnergyProcess node) : Prop where
  units : s.UnitsOf reg
  sampled : Sampled (unitConfig node.archId reg) s.readings

theorem upToDate_of_units (hreads : node.EnergyReads) (h : (s.call iv).UnitsOf reg) :
    (s.call iv).UpToDate reg := by
  obtain ⟨dram, hcall⟩ := call_readings hreads h
  exact ⟨h, hcall ▸ sampled_call _ s.readings (iv.readings dram)⟩

/-- A call from there, seen as a call on what is read. -/
theorem EnergyProcess.UpToDate.call_readings (hreads : node.EnergyReads) (h : s.UpToDate reg)
    (iv : PackageInterval node.e.topo.nsockets) :
    ∃ dram, (s.call iv).readings
      = s.readings.call (unitConfig node.archId reg) (iv.readings dram) :=
  Variorum.call_readings hreads (unitsOf_call h.units)

theorem upToDate_call (hreads : node.EnergyReads) (h : s.UpToDate reg) : (s.call iv).UpToDate reg :=
  upToDate_of_units hreads (unitsOf_call h.units)

/-- A call on the node accounts for what is read exactly when the counters that are read do
not wrap and the units have positive values. -/
theorem accounted_iff (hreads : node.EnergyReads) (h : s.UpToDate reg) :
    s.Accounted reg iv ↔ CallPre reg s.readings (iv.readings fun _ => 0) := by
  obtain ⟨dram, hcall⟩ := h.call_readings hreads iv
  have hrapl : (s.call iv).process.rapl
      = (s.readings.call (unitConfig node.archId reg) (iv.readings dram)).rapl :=
    congrArg EnergyNode.rapl hcall
  have hsame : s.Accounted reg iv
      ↔ CallAccounted (unitConfig node.archId reg) reg s.readings (iv.readings dram) := by
    unfold EnergyProcess.Accounted CallAccounted
    rw [hrapl]
    rfl
  exact hsame.trans (callAccounted_iff h.sampled)

/-- What a call then accounts for is what the package that is read has consumed. -/
theorem deltaJoules_of_accounted (hreads : node.EnergyReads) (h : s.UpToDate reg)
    (haccounted : s.Accounted reg iv) (i : Fin node.e.topo.nsockets) :
    ((s.call iv).process.rapl.data.pkg i).deltaJoules
      = (iv.used (node.e.topo.energySource i)).toNat / 2 ^ energyUnit (reg i) := by
  obtain ⟨dram, hcall⟩ := h.call_readings hreads iv
  have hrapl : (s.call iv).process.rapl
      = (s.readings.call (unitConfig node.archId reg) (iv.readings dram)).rapl :=
    congrArg EnergyNode.rapl hcall
  rw [(haccounted i).2.1, hrapl, call_advance h.sampled i]
  rfl

/-- **A call accounts for what its sockets have consumed** under `AccountPre`, and under no
other condition. -/
theorem accountPre_iff (hreads : node.EnergyReads) (h : s.UpToDate reg) :
    (s.Accounted reg iv ∧ ∀ i, ((s.call iv).process.rapl.data.pkg i).deltaJoules
        = (iv.used i).toNat / 2 ^ energyUnit (reg i)) ↔ s.AccountPre reg iv := by
  have hsource : s.Accounted reg iv → ∀ i, (((s.call iv).process.rapl.data.pkg i).deltaJoules
        = (iv.used i).toNat / 2 ^ energyUnit (reg i) ↔
      iv.used (node.e.topo.energySource i) = iv.used i) := by
    intro haccounted i
    have hpow : (2 : ℚ) ^ energyUnit (reg i) ≠ 0 := pow_ne_zero _ two_ne_zero
    rw [deltaJoules_of_accounted hreads h haccounted, div_left_inj' hpow, Nat.cast_inj,
      BitVec.toNat_inj]
  constructor
  · rintro ⟨haccounted, hjoules⟩ i
    exact ⟨(accounted_iff hreads h).mp haccounted i, (hsource haccounted i).mp (hjoules i)⟩
  · intro hpre
    have haccounted : s.Accounted reg iv := (accounted_iff hreads h).mpr fun i => (hpre i).1
    exact ⟨haccounted, fun i => (hsource haccounted i).mpr (hpre i).2⟩

end Readings

/-! ### The account of a run -/

section Account

variable {reg : Fin node.e.topo.nsockets → BitVec 64} {s : EnergyProcess node}
variable {ivs : List (PackageInterval node.e.topo.nsockets)}

/-- The joules add up at every point of a run exactly when they are right in every call. -/
theorem sumJoules_iff (reg : Fin node.e.topo.nsockets → BitVec 64) (s : EnergyProcess node)
    (ivs : List (PackageInterval node.e.topo.nsockets)) :
    (∀ ivs', ivs' <+: ivs → ∀ i, s.sumJoules i ivs' = packageUnits i ivs' / 2 ^ energyUnit (reg i))
      ↔ Along EnergyProcess.step (fun s iv => ∀ i,
          ((s.call iv).process.rapl.data.pkg i).deltaJoules
            = (iv.used i).toNat / 2 ^ energyUnit (reg i)) s ivs := by
  -- by induction on the calls: the sum is exact up to each of them, or one of them is off
  induction ivs generalizing s with
  | nil =>
      refine iff_of_true ?_ trivial
      intro ivs' hprefix i
      rw [List.prefix_nil.mp hprefix]
      simp [EnergyProcess.sumJoules, packageUnits]
  | cons iv rest ih =>
      -- the units used in the first interval and those of the later ones
      have hunits : ∀ (ivs' : List (PackageInterval node.e.topo.nsockets)) i,
          (packageUnits i (iv :: ivs') : ℚ) = (iv.used i).toNat + packageUnits i ivs' := by
        intro ivs' i
        rw [packageUnits, List.map_cons, List.sum_cons, Nat.cast_add]
        rfl
      constructor
      · intro h
        have hfirst : ∀ i, ((s.call iv).process.rapl.data.pkg i).deltaJoules
            = (iv.used i).toNat / 2 ^ energyUnit (reg i) := by
          intro i
          have hone := h [iv] (by simp) i
          rw [EnergyProcess.sumJoules, EnergyProcess.sumJoules, add_zero, hunits] at hone
          simpa [packageUnits] using hone
        refine ⟨hfirst, fun s' hstep => ?_⟩
        obtain rfl := Option.some.inj hstep
        refine (ih (s.call iv)).mp fun ivs' hprefix i => ?_
        have hsum := h (iv :: ivs') (List.cons_prefix_cons.mpr ⟨rfl, hprefix⟩) i
        rw [EnergyProcess.sumJoules, hunits, hfirst i, add_div] at hsum
        exact add_left_cancel hsum
      · rintro ⟨hfirst, hrest⟩ ivs' hprefix i
        cases ivs' with
        | nil => simp [EnergyProcess.sumJoules, packageUnits]
        | cons iv' ivs' =>
            obtain ⟨rfl, hrest'⟩ := List.cons_prefix_cons.mp hprefix
            rw [EnergyProcess.sumJoules, hunits, hfirst i, add_div,
              (ih (s.call iv')).mpr (hrest _ rfl) ivs' hrest' i]

/-- **The energy account of a run.**  After the first call, every call accounts for the
energy since the last one, and at every point of the run the joules of a socket add up to
the energy it has consumed since the first call, exactly when every call meets
`AccountPre`. -/
theorem raplAccount_iff (node : RaplNode) (hreads : node.EnergyReads)
    (reg : Fin node.e.topo.nsockets → BitVec 64) (energy : Fin node.e.topo.nsockets → Nat)
    (power : PowerState) (first : PackageInterval node.e.topo.nsockets)
    (hunits : ((⟨energy, power, .start _⟩ : EnergyProcess node).call first).UnitsOf reg)
    (ivs : List (PackageInterval node.e.topo.nsockets)) :
    let s := (⟨energy, power, .start _⟩ : EnergyProcess node).call first
    (Along EnergyProcess.step (EnergyProcess.Accounted reg) s ivs ∧
        ∀ ivs', ivs' <+: ivs → ∀ i,
          s.sumJoules i ivs' = packageUnits i ivs' / 2 ^ energyUnit (reg i)) ↔
      Along EnergyProcess.step (EnergyProcess.AccountPre reg) s ivs := by
  intro s
  have hupToDate : s.UpToDate reg := upToDate_of_units hreads hunits
  have hsplit : ∀ {s : EnergyProcess node} {iv : PackageInterval node.e.topo.nsockets},
      s.UpToDate reg → ((s.Accounted reg iv ∧ ∀ i, ((s.call iv).process.rapl.data.pkg i).deltaJoules
        = (iv.used i).toNat / 2 ^ energyUnit (reg i)) ↔ s.AccountPre reg iv) :=
    fun hupToDate => accountPre_iff hreads hupToDate
  rw [sumJoules_iff, ← along_and_iff]
  refine along_iff_of_inv (EnergyProcess.UpToDate reg) ?_ hsplit hupToDate
  intro s iv s' hupToDate _ hstep
  obtain rfl := Option.some.inj hstep
  exact upToDate_call hreads hupToDate

/-- A process whose table holds units of `1 / 2^16` joules. -/
def sixteenthUnits : PowerState :=
  { machine := ⟨fun _ _ => 0, []⟩, unitData := fun _ => 0x1000, ru := some fun _ => 0x1000,
    tooLarge := [] }

/-- The first call on two sockets whose packages have consumed `energy` units. -/
def firstCall (energy : Nat) : EnergyProcess fm064fNode :=
  EnergyProcess.call ⟨fun _ => energy, sixteenthUnits, .start _⟩
    ⟨⟨0, 0⟩, fun _ => 0, fun _ _ => 0⟩

theorem firstCall_units (energy : Nat) : (firstCall energy).UnitsOf fun _ => 0x1000 :=
  unitsOf_call ⟨fun _ => 0x1000, rfl, fun _ => .refl _⟩

/-- The second socket consumes seven units, and both accounts are right. -/
theorem raplAccount_firstCall :
    Along EnergyProcess.step (EnergyProcess.Accounted fun _ => 0x1000) (firstCall 5)
      [⟨⟨1, 0⟩, fun i => if (i : Nat) = 0 then 0 else 7, fun _ _ => 0⟩] := by
  refine ((raplAccount_iff fm064fNode (fun _ _ _ => rfl) (fun _ => 0x1000) (fun _ => 5)
    sixteenthUnits ⟨⟨0, 0⟩, fun _ => 0, fun _ _ => 0⟩ (firstCall_units 5) _).mpr ?_).1
  have hfit : fm064fNode.e.topo.SocketsFit := by
    unfold Topology.SocketsFit Topology.coresPerSocket
    decide
  refine ⟨fun i => ?_, fun _ _ => trivial⟩
  rw [Topology.energySource_of_fits hfit]
  have hcount : ∀ i : Fin 2, (5 + 0) % 2 ^ 32 +
      (if (i : Nat) = 0 then 0 else 7 : BitVec 32).toNat < 2 ^ 32 := by decide
  exact ⟨⟨hcount i, .inl (show energyUnit 0x1000 ≠ 31 by decide)⟩, rfl⟩

/-- Packages that have consumed `2^32 - 1` units consume one more: their registers go to
zero, and the second call accounts for nothing. -/
theorem getPower_loses_unit :
    ¬ Along EnergyProcess.step (EnergyProcess.Accounted fun _ => 0x1000) (firstCall (2 ^ 32 - 1))
        [⟨⟨1, 0⟩, fun _ => 1, fun _ _ => 0⟩] := by
  rintro ⟨h, -⟩
  have hreads : fm064fNode.EnergyReads := fun _ _ _ => rfl
  have hupToDate : (firstCall (2 ^ 32 - 1)).UpToDate fun _ => 0x1000 :=
    upToDate_of_units hreads (firstCall_units _)
  have hfit : (2 ^ 32 - 1 + 0) % 2 ^ 32 + 1 < 2 ^ 32 :=
    ((accounted_iff hreads hupToDate).mp h (0 : Fin 2)).1
  exact absurd hfit (by decide)

end Account

end Variorum
