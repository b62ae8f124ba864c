/-
Variorum/NodeEnergy.lean

The accumulated energy of a Power9 node.

A sampler thread sleeps until the next interval of 250 ms, takes a measurement
of the node's power in watts and adds the product to `th_args.energy_acc`; the
call that stops it reports the accumulator as joules.  Four things are done to
the sum on the way: nobody divides the watt-milliseconds by 1000, the number of
intervals that `timer_sleep` says have passed is dropped, the -1 of a failed
measurement is multiplied and added like any other, and all of it is done
modulo 2^64.

`powerMeasurement` is the loop of one sampler between the start and the stop,
fed with a list of wake-ups: what the clock shows when the thread goes to sleep
and how the measurement behind it goes.  `accumulatedEnergy_iff` says for which
of them the reported value is the energy.
-/
import Mathlib.Algebra.Order.BigOperators.Group.List
import Mathlib.Algebra.Order.Group.Nat
import Mathlib.Data.BitVec

namespace Variorum

/-! ### `take_measurement` -/

/-- `OCC_SENSOR_DATA_BLOCK_SIZE`. -/
def occSensorDataBlockSize : Nat := 0x00025800

/-- What a call of `take_measurement` meets: whether it gets its buffer, what the
reads of the sensor file return, and the node power in the block. -/
structure Measurement where
  allocated : Bool
  reads : List Int
  nodePower : BitVec 64

/-- The loop over `read`: the bytes it has when it ends.  A read returns no more than
it is asked for, and one behind the end of the list is at the end of the file. -/
def readBlock (bytes : Nat) : List Int → Nat
  | [] => bytes
  | rc :: reads =>
      if bytes < occSensorDataBlockSize then
        if rc ≤ 0 then bytes
        else readBlock (bytes + min rc.toNat (occSensorDataBlockSize - bytes)) reads
      else bytes

/-- The measurement comes back with a node power. -/
def Measurement.Succeeds (m : Measurement) : Prop :=
  m.allocated = true ∧ readBlock 0 m.reads = occSensorDataBlockSize

instance (m : Measurement) : Decidable m.Succeeds := inferInstanceAs (Decidable (_ ∧ _))

/-- `take_measurement`.  The -1 of a failure is converted to `unsigned long`. -/
def takeMeasurement (m : Measurement) : BitVec 64 :=
  if m.allocated then
    if readBlock 0 m.reads ≠ occSensorDataBlockSize then -1
    else m.nodePower
  else -1

theorem takeMeasurement_of_succeeds {m : Measurement} (h : m.Succeeds) :
    takeMeasurement m = m.nodePower := by
  rw [takeMeasurement, if_pos h.1, if_neg (not_not_intro h.2)]

theorem takeMeasurement_of_not_succeeds {m : Measurement} (h : ¬ m.Succeeds) :
    takeMeasurement m = -1 := by
  unfold takeMeasurement
  by_cases halloc : m.allocated = true
  · rw [if_pos halloc, if_pos fun hread => h ⟨halloc, hread⟩]
  · rw [if_neg halloc]

/-! ### `timer_sleep` -/

/-- `struct mstimer`. -/
structure MsTimer where
  startms : BitVec 64
  step : BitVec 32
  interval : BitVec 32
  nextms : BitVec 64

/-- `init_msTimer`, for what the clock shows. -/
def initMsTimer (now : BitVec 64) (msInterval : BitVec 32) : MsTimer :=
  ⟨now, 1, msInterval, now + (1 * msInterval).setWidth 64⟩

/-- `t->step++` and the next time from it.  The product is an `unsigned int`. -/
def MsTimer.advance (t : MsTimer) : MsTimer :=
  { t with
    step := t.step + 1
    nextms := t.startms + ((t.step + 1) * t.interval).setWidth 64 }

/-- The loop of `timer_sleep`, with `cadd` counted so far.  The count is an `int`:
it has no value behind `INT_MAX`, where a loop that never ends arrives as well. -/
def catchUp (now : BitVec 64) : Nat → MsTimer → Nat → Option (Nat × MsTimer)
  | 0, t, cadd => if t.nextms ≤ now then none else some (cadd, t)
  | room + 1, t, cadd =>
      if t.nextms ≤ now then catchUp now room t.advance (cadd + 1) else some (cadd, t)

/-- `timer_sleep`, for what the clock shows at the call. -/
def timerSleep (t : MsTimer) (now : BitVec 64) : Option (Nat × MsTimer) :=
  if t.nextms ≤ now then catchUp now (2 ^ 31 - 1) t 0
  else some (0, t.advance)

/-- The intervals a call has slept: the number it returns, or the one it waited for. -/
def slept (cadd : Nat) : Nat := if cadd = 0 then 1 else cadd

theorem catchUp_eq {now : BitVec 64} {room : Nat} {t t' : MsTimer} {cadd ret : Nat}
    (h : catchUp now room t cadd = some (ret, t')) :
    cadd ≤ ret ∧ t' = MsTimer.advance^[ret - cadd] t ∧ now < t'.nextms := by
  induction room generalizing t cadd with
  | zero =>
      rw [catchUp] at h
      by_cases hdue : t.nextms ≤ now
      · rw [if_pos hdue] at h
        cases h
      · rw [if_neg hdue] at h
        obtain ⟨rfl, rfl⟩ := Prod.mk.inj (Option.some.inj h)
        exact ⟨le_rfl, by rw [Nat.sub_self]; rfl, BitVec.not_le.mp hdue⟩
  | succ room ih =>
      rw [catchUp] at h
      by_cases hdue : t.nextms ≤ now
      · rw [if_pos hdue] at h
        obtain ⟨hle, heq, hlt⟩ := ih h
        refine ⟨by omega, ?_, hlt⟩
        rw [heq, show ret - cadd = (ret - (cadd + 1)) + 1 by omega, Function.iterate_succ_apply]
      · rw [if_neg hdue] at h
        obtain ⟨rfl, rfl⟩ := Prod.mk.inj (Option.some.inj h)
        exact ⟨le_rfl, by rw [Nat.sub_self]; rfl, BitVec.not_le.mp hdue⟩

/-- **A call moves the timer by the intervals it has slept.** -/
theorem timerSleep_eq {t t' : MsTimer} {now : BitVec 64} {ret : Nat}
    (h : timerSleep t now = some (ret, t')) : t' = MsTimer.advance^[slept ret] t := by
  unfold timerSleep at h
  by_cases hdue : t.nextms ≤ now
  · rw [if_pos hdue] at h
    obtain ⟨-, heq, hlt⟩ := catchUp_eq h
    have hret : ret ≠ 0 := by
      rintro rfl
      rw [heq] at hlt
      exact absurd hdue (BitVec.not_le.mpr hlt)
    rw [slept, if_neg hret, heq, Nat.sub_zero]
  · rw [if_neg hdue] at h
    obtain ⟨rfl, rfl⟩ := Prod.mk.inj (Option.some.inj h)
    rfl

/-! ### `power_measurement` -/

/-- `struct thread_args`. -/
@[ext]
structure ThreadArgs where
  sampleInterval : BitVec 64
  energyAcc : BitVec 64

/-- `th_args` as the call that starts a sampler leaves it. -/
def ThreadArgs.start : ThreadArgs := ⟨250, 0⟩

theorem ThreadArgs.start_energyAcc : ThreadArgs.start.energyAcc.toNat = 0 := rfl

/-- `th_args.energy_acc += curr_measurement * th_args.sample_interval`. -/
def ThreadArgs.accumulate (args : ThreadArgs) (m : Measurement) : ThreadArgs :=
  { args with energyAcc := args.energyAcc + takeMeasurement m * args.sampleInterval }

/-- What the clock shows when the sampler goes to sleep, and the measurement it takes
when it is awake. -/
structure Wake where
  now : BitVec 64
  measurement : Measurement

/-- The loop of `power_measurement`: the values `th_args` takes, from `args` on. -/
def samplerLoop (args : ThreadArgs) (t : MsTimer) : List Wake → List ThreadArgs
  | [] => [args]
  | w :: ws =>
      match timerSleep t w.now with
      | none => [args]
      | some (_, t') => args :: samplerLoop (args.accumulate w.measurement) t' ws

/-- `power_measurement`, with what the clock shows when its timer is made. -/
def powerMeasurement (opened : Bool) (now : BitVec 64) (args : ThreadArgs) (ws : List Wake) :
    List ThreadArgs :=
  if opened then samplerLoop args (initMsTimer now (args.sampleInterval.setWidth 32)) ws
  else [args]

/-- What `ibm_cpu_p9_get_energy` prints as `%lu`. -/
def getEnergyReport (args : ThreadArgs) : Int := args.energyAcc.toNat

/-- What `ibm_cpu_p9_get_node_energy_json` stores as a `json_integer`. -/
def getNodeEnergyJsonReport (args : ThreadArgs) : Int := args.energyAcc.toInt

/-! ### The energy -/

/-- A measurement and the number of intervals slept before it. -/
structure Sample where
  measurement : Measurement
  covered : Nat

/-- The samples a sampler takes. -/
def MsTimer.samples (t : MsTimer) : List Wake → List Sample
  | [] => []
  | w :: ws =>
      match timerSleep t w.now with
      | none => []
      | some (ret, t') => ⟨w.measurement, slept ret⟩ :: t'.samples ws

/-- The samples that the loop of `powerMeasurement` takes, none if the sensors cannot be
opened. -/
def samplesTaken (opened : Bool) (now : BitVec 64) (ws : List Wake) : List Sample :=
  if opened then (initMsTimer now 250).samples ws else []

namespace Sample

/-- Watts times the milliseconds covered, for a sample that succeeds. -/
def wattMs (x : Sample) : Nat :=
  if x.measurement.Succeeds then x.measurement.nodePower.toNat * (250 * x.covered) else 0

/-- What a successful sample adds to the accumulator. -/
def added (x : Sample) : Nat := x.measurement.nodePower.toNat * 250 % 2 ^ 64

/-- The power of a sample, in watts. -/
def watts (x : Sample) : Nat := x.measurement.nodePower.toNat

/-- The power times the intervals covered: the energy in quarters of a joule, since an
interval is a quarter of a second. -/
def wattIntervals (x : Sample) : Nat := x.watts * x.covered

/-- How often the product of the power with 250 ms runs over 64 bits. -/
def overruns (x : Sample) : Nat := x.watts * 250 / 2 ^ 64

end Sample

/-- The accumulator is the energy of the samples: what is reported never decreases, a
failed sample adds nothing, and the last value is the sum in joules, rounded down
somewhere. -/
structure EnergyExact (report : ThreadArgs → Int) (values : List ThreadArgs)
    (xs : List Sample) : Prop where
  mono : ∀ {k args args'}, values[k]? = some args → values[k + 1]? = some args' →
    report args ≤ report args'
  failed : ∀ {k x}, xs[k]? = some x → ¬ x.measurement.Succeeds → values[k + 1]? = values[k]?
  value : ∀ {args}, values.getLast? = some args →
    ((xs.map fun x => x.wattMs / 1000).sum : Nat) ≤ report args ∧
      report args ≤ ((xs.map Sample.wattMs).sum / 1000 : Nat)

/-- Where it is, said of the powers and of the intervals that the wake-ups cover.  A
sample of `p` watts over `c` intervals is worth `p * c / 4` joules and adds `250 * p`, so
the missing division is made up for only by intervals that nobody counts: weighted with
the powers, a sample covers a thousand of them on average.  Each overrun of a product
takes `2^64` from the sum, which is as much as `2^66` more intervals at one watt. -/
structure EnergyCondition (bound : Nat) (xs : List Sample) : Prop where
  succeeds : ∀ x ∈ xs, x.measurement.Succeeds
  fits : 250 * (xs.map Sample.watts).sum < bound + 2 ^ 64 * (xs.map Sample.overruns).sum
  lower : 1000 * (xs.map Sample.watts).sum
    ≤ (xs.map Sample.wattIntervals).sum + 2 ^ 66 * (xs.map Sample.overruns).sum
  upper : (xs.map Sample.wattIntervals).sum + 2 ^ 66 * (xs.map Sample.overruns).sum
    ≤ 1000 * (xs.map Sample.watts).sum + (xs.map fun x => x.wattIntervals % 4).sum

/-- The samples of a run are prompt when no wake-up is a thousand intervals late, which is
more than four minutes, and no product runs over. -/
def Prompt (xs : List Sample) : Prop :=
  ∀ x ∈ xs, x.covered < 1000 ∧ x.watts * 250 < 2 ^ 64

/-! ### The accumulator over a run -/

section Accumulator

variable {args : ThreadArgs} {m : Measurement} {xs : List Sample}

/-- The values of `th_args` for a list of samples. -/
def accumulated (args : ThreadArgs) (xs : List Sample) : List ThreadArgs :=
  List.scanl (fun a x => a.accumulate x.measurement) args xs

/-- `th_args` behind a list of samples. -/
def accumulateAll (args : ThreadArgs) (xs : List Sample) : ThreadArgs :=
  xs.foldl (fun a x => a.accumulate x.measurement) args

theorem accumulated_cons (args : ThreadArgs) (x : Sample) (xs : List Sample) :
    accumulated args (x :: xs) = args :: accumulated (args.accumulate x.measurement) xs :=
  List.scanl_cons

theorem accumulated_zero (args : ThreadArgs) (xs : List Sample) :
    (accumulated args xs)[0]? = some args :=
  List.getElem?_scanl_zero

theorem accumulated_getLast (args : ThreadArgs) (xs : List Sample) :
    (accumulated args xs).getLast? = some (accumulateAll args xs) :=
  List.getLast?_scanl

/-- The values of `th_args` are those the samples lead to. -/
theorem samplerLoop_eq (args : ThreadArgs) (t : MsTimer) (ws : List Wake) :
    samplerLoop args t ws = accumulated args (t.samples ws) := by
  induction ws generalizing args t with
  | nil => rfl
  | cons w ws ih =>
      unfold samplerLoop MsTimer.samples
      rcases timerSleep t w.now with - | ⟨ret, t'⟩
      · rfl
      · simp only [accumulated_cons, ih]

/-- What a successful sample adds, while the interval is 250 ms. -/
theorem added_eq {x : Sample} (h : x.measurement.Succeeds) :
    (takeMeasurement x.measurement * 250).toNat = x.added := by
  rw [takeMeasurement_of_succeeds h, BitVec.toNat_mul, Sample.added]
  rfl

/-- A failed sample changes the accumulator: -1 times 250 is not 0. -/
theorem accumulate_ne_of_not_succeeds (hinterval : args.sampleInterval = 250)
    (h : ¬ m.Succeeds) : args.accumulate m ≠ args := by
  intro heq
  have hacc : args.energyAcc + -1 * 250 = args.energyAcc := by
    have hstep : (args.accumulate m).energyAcc = args.energyAcc + -1 * 250 := by
      rw [ThreadArgs.accumulate, takeMeasurement_of_not_succeeds h, hinterval]
    rw [← hstep, heq]
  have hzero : (-1 * 250 : BitVec 64) = 0 := add_eq_left.mp hacc
  exact absurd hzero (by decide)

/-- What the report of an accumulator has to do with the bound of its type. -/
structure ReportsBelow (report : ThreadArgs → Int) (bound : Nat) : Prop where
  pos : 0 < bound
  bound_le : bound ≤ 2 ^ 64
  eq : ∀ {args}, args.energyAcc.toNat < bound → report args = args.energyAcc.toNat
  lt : ∀ {args}, bound ≤ args.energyAcc.toNat → report args < 0

theorem getEnergyReport_below : ReportsBelow getEnergyReport (2 ^ 64) where
  pos := by decide
  bound_le := le_rfl
  eq := fun _ => rfl
  lt := fun {args} h => absurd args.energyAcc.isLt (Nat.not_lt.mpr h)

theorem getNodeEnergyJsonReport_below : ReportsBelow getNodeEnergyJsonReport (2 ^ 63) where
  pos := by decide
  bound_le := by decide
  eq := fun {args} h => by
    rw [getNodeEnergyJsonReport, BitVec.toInt_eq_toNat_of_lt (by omega)]
  lt := fun {args} h => by
    have hlt := args.energyAcc.isLt
    rw [getNodeEnergyJsonReport, BitVec.toInt_eq_toNat_cond, if_neg (by omega)]
    omega

variable {report : ThreadArgs → Int} {bound : Nat}

/-- One addition: the report does not decrease exactly when the sum stays below the
bound. -/
theorem report_le_iff (hreport : ReportsBelow report bound)
    (hargs : args.energyAcc.toNat < bound) {args' : ThreadArgs} {x : BitVec 64}
    (hadd : args'.energyAcc = args.energyAcc + x) :
    report args ≤ report args' ↔ args.energyAcc.toNat + x.toNat < bound := by
  have hx := x.isLt
  have hle := hreport.bound_le
  have hsum : args'.energyAcc.toNat = (args.energyAcc.toNat + x.toNat) % 2 ^ 64 := by
    rw [hadd, BitVec.toNat_add]
  rw [hreport.eq hargs]
  by_cases hbelow : args'.energyAcc.toNat < bound
  · rw [hreport.eq hbelow]
    by_cases hwrap : args.energyAcc.toNat + x.toNat < 2 ^ 64
    · rw [Nat.mod_eq_of_lt hwrap] at hsum
      omega
    · rw [Nat.mod_eq_sub_mod (Nat.not_lt.mp hwrap), Nat.mod_eq_of_lt (by omega)] at hsum
      omega
  · have hneg := hreport.lt (Nat.not_lt.mp hbelow)
    have hmod : args'.energyAcc.toNat ≤ args.energyAcc.toNat + x.toNat :=
      hsum ▸ Nat.mod_le _ _
    omega

/-- What a successful sample leaves, if it does not wrap. -/
theorem accumulate_toNat {x : Sample} (hok : x.measurement.Succeeds)
    (hinterval : args.sampleInterval = 250) (hlt : args.energyAcc.toNat + x.added < 2 ^ 64) :
    (args.accumulate x.measurement).energyAcc.toNat = args.energyAcc.toNat + x.added := by
  rw [ThreadArgs.accumulate, hinterval, BitVec.toNat_add, added_eq hok, Nat.mod_eq_of_lt hlt]

/-- What successful samples leave, if they do not wrap. -/
theorem accumulateAll_toNat (hok : ∀ x ∈ xs, x.measurement.Succeeds)
    (hinterval : args.sampleInterval = 250)
    (hlt : args.energyAcc.toNat + (xs.map Sample.added).sum < 2 ^ 64) :
    (accumulateAll args xs).energyAcc.toNat
      = args.energyAcc.toNat + (xs.map Sample.added).sum := by
  induction xs generalizing args with
  | nil => rfl
  | cons x xs ih =>
      rw [List.map_cons, List.sum_cons] at hlt ⊢
      have hhead := accumulate_toNat (hok x List.mem_cons_self) hinterval (by omega)
      show (accumulateAll (args.accumulate x.measurement) xs).energyAcc.toNat = _
      rw [@ih (args.accumulate x.measurement) (fun y hy => hok y (List.mem_cons_of_mem x hy))
        hinterval (by omega), hhead, Nat.add_assoc]

/-- **Over a run of successful samples the report never decreases exactly when all
they add stays below the bound.** -/
theorem accumulated_mono_iff (hreport : ReportsBelow report bound)
    (hok : ∀ x ∈ xs, x.measurement.Succeeds) (hinterval : args.sampleInterval = 250)
    (hargs : args.energyAcc.toNat < bound) :
    (∀ k a a', (accumulated args xs)[k]? = some a → (accumulated args xs)[k + 1]? = some a' →
        report a ≤ report a') ↔
      args.energyAcc.toNat + (xs.map Sample.added).sum < bound := by
  -- by induction on the samples: the sum grows, so if it ever wraps it does so for the first
  -- time once
  induction xs generalizing args with
  | nil =>
      refine iff_of_true ?_ hargs
      intro k a a' _ ha'
      cases ha'
  | cons x xs ih =>
      have hle := hreport.bound_le
      have hx : x.measurement.Succeeds := hok x List.mem_cons_self
      -- two reports in a row are in order just where the energy between them does not wrap
      have hhead : report args ≤ report (args.accumulate x.measurement) ↔
          args.energyAcc.toNat + x.added < bound := by
        rw [← added_eq hx]
        exact report_le_iff hreport hargs (by rw [ThreadArgs.accumulate, hinterval])
      have htail := @ih (args.accumulate x.measurement)
        (fun y hy => hok y (List.mem_cons_of_mem x hy)) hinterval
      rw [List.map_cons, List.sum_cons, accumulated_cons]
      constructor
      · intro hmono
        have hlt := hhead.mp (hmono 0 _ _ rfl (accumulated_zero _ xs))
        have hval := accumulate_toNat hx hinterval (by omega)
        have hrest := (htail (by omega)).mp fun k a a' ha ha' => hmono (k + 1) a a' ha ha'
        omega
      · intro hlt
        have hval := accumulate_toNat hx hinterval (by omega)
        have hrest := (htail (by omega)).mpr (by omega)
        intro k a a' ha ha'
        cases k with
        | zero =>
            obtain rfl := Option.some.inj ha
            obtain rfl := Option.some.inj ((accumulated_zero _ xs).symm.trans ha')
            exact hhead.mpr (by omega)
        | succ k => exact hrest k a a' ha ha'

/-- A failed sample always adds something. -/
theorem succeeds_of_failed_adds_nothing (hinterval : args.sampleInterval = 250)
    (hfailed : ∀ k x, xs[k]? = some x → ¬ x.measurement.Succeeds →
      (accumulated args xs)[k + 1]? = (accumulated args xs)[k]?) :
    ∀ x ∈ xs, x.measurement.Succeeds := by
  induction xs generalizing args with
  | nil => exact fun x hx => absurd hx List.not_mem_nil
  | cons y ys ih =>
      intro x hx
      rw [accumulated_cons] at hfailed
      rcases List.mem_cons.mp hx with rfl | hx
      · by_contra hfail
        have heq := hfailed 0 x rfl hfail
        rw [List.getElem?_cons_succ, accumulated_zero] at heq
        exact accumulate_ne_of_not_succeeds hinterval hfail (Option.some.inj heq)
      · exact @ih (args.accumulate y.measurement) hinterval
          (fun k x hk => hfailed (k + 1) x hk) x hx

/-- What the samples add is 250 for each watt, less the overruns. -/
theorem sum_added (xs : List Sample) :
    (xs.map Sample.added).sum + 2 ^ 64 * (xs.map Sample.overruns).sum
      = 250 * (xs.map Sample.watts).sum := by
  induction xs with
  | nil => rfl
  | cons x xs ih =>
      have hx : x.added + 2 ^ 64 * x.overruns = x.watts * 250 := Nat.mod_add_div _ _
      simp only [List.map_cons, List.sum_cons]
      omega

/-- The energy in joules, rounded down at each sample and at the end. -/
theorem sum_wattMs (hok : ∀ x ∈ xs, x.measurement.Succeeds) :
    4 * (xs.map fun x => x.wattMs / 1000).sum + (xs.map fun x => x.wattIntervals % 4).sum
        = (xs.map Sample.wattIntervals).sum ∧
      (xs.map Sample.wattMs).sum = 250 * (xs.map Sample.wattIntervals).sum := by
  induction xs with
  | nil => exact ⟨rfl, rfl⟩
  | cons x xs ih =>
      have hx : x.wattMs = 250 * x.wattIntervals := by
        rw [Sample.wattMs, if_pos (hok x List.mem_cons_self), Sample.wattIntervals, Sample.watts,
          Nat.mul_left_comm]
      obtain ⟨hfloor, htotal⟩ := ih fun y hy => hok y (List.mem_cons_of_mem x hy)
      simp only [List.map_cons, List.sum_cons]
      omega

/-- **The condition is that of the sum**: what the samples add stays below the bound and
is their energy. -/
theorem energyCondition_iff (hok : ∀ x ∈ xs, x.measurement.Succeeds) {bound : Nat} :
    EnergyCondition bound xs ↔
      (xs.map Sample.added).sum < bound ∧
      (xs.map fun x => x.wattMs / 1000).sum ≤ (xs.map Sample.added).sum ∧
      (xs.map Sample.added).sum ≤ (xs.map Sample.wattMs).sum / 1000 := by
  have hadded := sum_added xs
  obtain ⟨hfloor, htotal⟩ := sum_wattMs hok
  constructor
  · rintro ⟨-, hfits, hlower, hupper⟩
    exact ⟨by omega, by omega, by omega⟩
  · rintro ⟨hlt, hle, hge⟩
    exact ⟨hok, by omega, by omega, by omega⟩

/-- **The accumulator is the energy exactly under the condition**, for a report with a
bound. -/
theorem energyExact_iff (hreport : ReportsBelow report bound) (xs : List Sample) :
    EnergyExact report (accumulated .start xs) xs ↔ EnergyCondition bound xs := by
  -- below the bound the register of the sum is the sum
  have hvalue : (∀ x ∈ xs, x.measurement.Succeeds) → (xs.map Sample.added).sum < bound →
      report (accumulateAll .start xs) = ((xs.map Sample.added).sum : Nat) := by
    intro hok hlt
    have hle := hreport.bound_le
    have hval := @accumulateAll_toNat .start xs hok rfl
    rw [ThreadArgs.start_energyAcc, Nat.zero_add] at hval
    rw [hreport.eq (by omega), hval (by omega)]
  have hmono := fun hok => @accumulated_mono_iff .start xs report bound hreport hok rfl hreport.pos
  simp only [ThreadArgs.start_energyAcc, Nat.zero_add] at hmono
  constructor
  · intro h
    have hok := succeeds_of_failed_adds_nothing rfl fun k x => h.failed
    -- the reports are in order only if the sum has not wrapped, which gives back its value
    have hlt := (hmono hok).mp fun k a a' => h.mono
    have hsum := h.value (accumulated_getLast _ xs)
    rw [hvalue hok hlt] at hsum
    exact (energyCondition_iff hok).mpr
      ⟨hlt, Int.ofNat_le.mp hsum.1, Int.ofNat_le.mp hsum.2⟩
  · intro h
    have hok := h.succeeds
    obtain ⟨hlt, hlower, hupper⟩ := (energyCondition_iff hok).mp h
    refine ⟨fun {k a a'} => (hmono hok).mpr hlt k a a', ?_, ?_⟩
    · intro k x hx hfail
      exact absurd (hok x (List.mem_of_getElem? hx)) hfail
    · intro a ha
      obtain rfl := Option.some.inj ((accumulated_getLast _ xs).symm.trans ha)
      rw [hvalue hok hlt]
      exact ⟨Int.ofNat_le.mpr hlower, Int.ofNat_le.mpr hupper⟩

/-- **A prompt run reports the energy only of a node that draws no power.** -/
theorem energyCondition_iff_of_prompt (h : Prompt xs) (hbound : 0 < bound) :
    EnergyCondition bound xs ↔ ∀ x ∈ xs, x.measurement.Succeeds ∧ x.watts = 0 := by
  -- a watt adds 250 and is worth less than that, so one sample with power is too many
  have hsums : (xs.map Sample.overruns).sum = 0 ∧
      (xs.map Sample.wattIntervals).sum ≤ 999 * (xs.map Sample.watts).sum := by
    induction xs with
    | nil => exact ⟨rfl, le_rfl⟩
    | cons x xs ih =>
        obtain ⟨hcovered, hfits⟩ := h x List.mem_cons_self
        have hx : x.overruns = 0 := Nat.div_eq_of_lt hfits
        have hmul : x.wattIntervals ≤ 999 * x.watts := by
          rw [Sample.wattIntervals, Nat.mul_comm]
          exact Nat.mul_le_mul_right _ (Nat.le_of_lt_succ hcovered)
        obtain ⟨hover, hle⟩ := ih fun y hy => h y (List.mem_cons_of_mem x hy)
        simp only [List.map_cons, List.sum_cons]
        omega
  have hzero : (∀ x ∈ xs, x.watts = 0) ↔ (xs.map Sample.watts).sum = 0 := by
    rw [List.sum_eq_zero_iff, List.forall_mem_map]
  constructor
  · intro hcond
    have hlower := hcond.lower
    have hall := hzero.mpr (by omega)
    exact fun x hx => ⟨hcond.succeeds x hx, hall x hx⟩
  · intro hall
    have hsum := hzero.mp fun x hx => (hall x hx).2
    exact ⟨fun x hx => (hall x hx).1, by omega, by omega, by omega⟩

end Accumulator

/-! ### A run of one sampler -/

theorem powerMeasurement_eq (opened : Bool) (now : BitVec 64) (ws : List Wake) :
    powerMeasurement opened now .start ws = accumulated .start (samplesTaken opened now ws) := by
  unfold powerMeasurement samplesTaken
  cases opened with
  | false => rfl
  | true => exact samplerLoop_eq _ _ ws

/-- **Both calls report the energy of a run exactly under the condition**, for every
list of wake-ups and measurements; and the energy of a prompt run exactly if every
sample succeeds and finds a node that draws no power. -/
theorem accumulatedEnergy_iff (opened : Bool) (now : BitVec 64) (ws : List Wake) :
    (EnergyExact getEnergyReport (powerMeasurement opened now .start ws)
        (samplesTaken opened now ws) ↔
      EnergyCondition (2 ^ 64) (samplesTaken opened now ws)) ∧
    (EnergyExact getNodeEnergyJsonReport (powerMeasurement opened now .start ws)
        (samplesTaken opened now ws) ↔
      EnergyCondition (2 ^ 63) (samplesTaken opened now ws)) ∧
    (Prompt (samplesTaken opened now ws) → ∀ report ∈ [getEnergyReport, getNodeEnergyJsonReport],
      (EnergyExact report (powerMeasurement opened now .start ws) (samplesTaken opened now ws) ↔
        ∀ x ∈ samplesTaken opened now ws, x.measurement.Succeeds ∧ x.watts = 0)) := by
  rw [powerMeasurement_eq]
  have hprinted := energyExact_iff getEnergyReport_below (samplesTaken opened now ws)
  have hjson := energyExact_iff getNodeEnergyJsonReport_below (samplesTaken opened now ws)
  refine ⟨hprinted, hjson, fun hprompt report hreport => ?_⟩
  rcases List.mem_pair.mp hreport with rfl | rfl
  · exact hprinted.trans (energyCondition_iff_of_prompt hprompt (by decide))
  · exact hjson.trans (energyCondition_iff_of_prompt hprompt (by decide))

/-- A measurement of 100 W. -/
def hundredWatts : Measurement := ⟨true, [0x00025800], 100⟩

/-- A measurement whose second read fails. -/
def shortRead : Measurement := ⟨true, [4096, -1], 100⟩

/-- 100 W for 250 ms are reported as 25000 J, and a failed sample adds -250. -/
theorem hundredWatts_reported :
    (powerMeasurement true 0 .start [⟨100, hundredWatts⟩]).map getEnergyReport = [0, 25000] ∧
    ¬ EnergyExact getEnergyReport (powerMeasurement true 0 .start [⟨100, hundredWatts⟩])
      (samplesTaken true 0 [⟨100, hundredWatts⟩]) ∧
    (powerMeasurement true 0 .start [⟨100, shortRead⟩]).map getNodeEnergyJsonReport
      = [0, -250] ∧
    ¬ EnergyExact getNodeEnergyJsonReport (powerMeasurement true 0 .start [⟨100, shortRead⟩])
      (samplesTaken true 0 [⟨100, shortRead⟩]) := by
  refine ⟨by decide, ?_, by decide, ?_⟩
  · intro h
    have hupper := (h.value rfl).2
    exact absurd hupper (by decide)
  · intro h
    have heq := h.failed (k := 0) rfl (by decide)
    have hacc := congrArg (Option.map getNodeEnergyJsonReport) heq
    exact absurd hacc (by decide)

end Variorum
