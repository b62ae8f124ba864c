/-
Variorum/Timer.lean

The interval timer behind the samplers: `init_msTimer` and `timer_sleep`.

A timer fires at `startms + step * interval`.  A call that comes in time moves on to
the next boundary; a late one counts the boundaries that have passed and moves behind
them.  In integers the step of a timer is therefore determined by the clock readings
alone (`ticks`).  The code computes the product modulo 2^32 and the sum modulo 2^64,
so it follows that count for as long as the boundary fits in both
(`MsTimer.Sound.obeys_iff`, `along_obeys_iff`).

The interval takes a way of its own: `atol` makes a `long` of the option, which is kept
as `unsigned long`, passed as `int` and stored as `unsigned int`.
`interval_eq_asked_iff` says which options survive that.
-/
import Mathlib.Data.Set.Card
import Mathlib.Order.Interval.Finset.Nat
import Variorum.NodeEnergy
import Variorum.Runs

namespace Variorum

/-! ### The interval -/

/-- `FASTEST_SAMPLE_INTERVAL_MS`. -/
def fastestSampleIntervalMs : BitVec 64 := 50

/-- `th_args.sample_interval` for what `atol` makes of the argument of `-i`.  It is
unsigned, and so is the comparison. -/
def sampleInterval (optarg : BitVec 64) : BitVec 64 :=
  if optarg < fastestSampleIntervalMs then fastestSampleIntervalMs else optarg

/-- The callers of `init_msTimer`: `var_monitor` without and with its option `-i`, the
dynamic power wrapper, and the sampler of the Power9. -/
inductive IntervalSource
  | noOption
  | option (optarg : BitVec 64)
  | wrapper
  | sampler

namespace IntervalSource

/-- The `int` a caller passes. -/
def msInterval : IntervalSource → BitVec 32
  | noOption => fastestSampleIntervalMs.setWidth 32
  | option optarg => (sampleInterval optarg).setWidth 32
  | wrapper => 500
  | sampler => ThreadArgs.start.sampleInterval.setWidth 32

/-- The interval asked for, at least 50 ms. -/
def asked : IntervalSource → Int
  | noOption => 50
  | option optarg => max optarg.toInt 50
  | wrapper => 500
  | sampler => 250

/-- The way of the interval does not change it. -/
def Fits : IntervalSource → Prop
  | option optarg => optarg.toInt < 2 ^ 32 ∧ (0 ≤ optarg.toInt ∨ optarg.toInt % 2 ^ 32 = 50)
  | _ => True

end IntervalSource

/-! ### What a timer is for -/

/-- The boundaries, from the next one on, that the clock has reached. -/
noncomputable def boundariesPassed (t : MsTimer) (now : BitVec 64) : Nat :=
  Set.ncard {j : Nat | t.nextms.toNat + j * t.interval.toNat ≤ now.toNat}

/-- A call returns; afterwards the timer stands at a boundary in the future, and a late
call has counted the boundaries that have passed. -/
def MsTimer.Obeys (t : MsTimer) (now : BitVec 64) : Prop :=
  ∃ ret t', timerSleep t now = some (ret, t') ∧
    t'.nextms.toNat = t'.startms.toNat + t'.step.toNat * t'.interval.toNat ∧
    now < t'.nextms ∧ (t.nextms ≤ now → ret = boundariesPassed t now)

/-- A call as a step of the timer. -/
def MsTimer.sleep (t : MsTimer) (now : BitVec 64) : Option MsTimer :=
  (timerSleep t now).map Prod.snd

/-- A timer that starts when the clock shows `start` runs on the interval asked for, and
every call obeys, whatever the clock shows at each. -/
structure TimerLaw (source : IntervalSource) (start : BitVec 64) (nows : List (BitVec 64)) :
    Prop where
  interval : ((initMsTimer start source.msInterval).interval.toNat : Int) = source.asked
  calls : Runs.Along MsTimer.sleep MsTimer.Obeys (initMsTimer start source.msInterval) nows

/-- The step of a timer behind calls at these times, in integers: one more at each, and
never at a boundary that has passed. -/
def ticks (interval start : Nat) (step : Nat) (nows : List (BitVec 64)) : Nat :=
  nows.foldl (fun step now => max (step + 1) ((now.toNat - start) / interval + 1)) step

/-- The boundary of a step is less than 2^32 ms after the start, and before 2^64. -/
def BoundaryFits (interval start step : Nat) : Prop :=
  step * interval < 2 ^ 32 ∧ start + step * interval < 2 ^ 64

/-! ### The way of the interval -/

/-- **What survives the conversions**: the interval the timer is made with is the one
asked for, if that fits. -/
theorem interval_eq_asked_iff (source : IntervalSource) :
    (source.msInterval.toNat : Int) = source.asked ↔ source.Fits := by
  cases source with
  | noOption => exact iff_of_true rfl trivial
  | wrapper => exact iff_of_true rfl trivial
  | sampler => exact iff_of_true rfl trivial
  | option optarg =>
      have hlt := optarg.isLt
      have hint := BitVec.toInt_eq_toNat_cond optarg
      have hcmp : optarg < fastestSampleIntervalMs ↔ optarg.toNat < 50 := Iff.rfl
      have hpassed : (IntervalSource.option optarg).msInterval.toNat
          = if optarg.toNat < 50 then 50 else optarg.toNat % 2 ^ 32 := by
        show ((sampleInterval optarg).setWidth 32).toNat = _
        rw [BitVec.toNat_setWidth, sampleInterval]
        simp only [hcmp]
        split <;> rfl
      rw [hpassed]
      show _ = max optarg.toInt 50 ↔
        optarg.toInt < 2 ^ 32 ∧ (0 ≤ optarg.toInt ∨ optarg.toInt % 2 ^ 32 = 50)
      split at hint <;> split <;> omega

/-! ### Moving on -/

section Moving

variable {t t' : MsTimer} {now : BitVec 64} {n : Nat}

/-- The timer so many boundaries further on: the step in 32 bits, the boundary from the
start. -/
theorem advance_iterate (t : MsTimer) (n : Nat) :
    MsTimer.advance^[n + 1] t
      = { t with
          step := t.step + BitVec.ofNat 32 (n + 1)
          nextms :=
            t.startms + ((t.step + BitVec.ofNat 32 (n + 1)) * t.interval).setWidth 64 } := by
  induction n generalizing t with
  | zero => rfl
  | succ n ih =>
      have hstep : t.step + 1 + BitVec.ofNat 32 (n + 1) = t.step + BitVec.ofNat 32 (n + 1 + 1) := by
        rw [BitVec.add_assoc, Nat.add_comm (n + 1) 1]
        exact congrArg (t.step + ·) (BitVec.ofNat_add 1 (n + 1)).symm
      rw [Function.iterate_succ_apply, ih]
      simp only [MsTimer.advance, hstep]

theorem advance_iterate_kept (t : MsTimer) (n : Nat) :
    (MsTimer.advance^[n] t).startms = t.startms ∧
      (MsTimer.advance^[n] t).interval = t.interval := by
  cases n with
  | zero => exact ⟨rfl, rfl⟩
  | succ n =>
      rw [advance_iterate]
      exact ⟨rfl, rfl⟩

theorem advance_iterate_step (h : t.step.toNat + n < 2 ^ 32) :
    (MsTimer.advance^[n] t).step.toNat = t.step.toNat + n := by
  cases n with
  | zero => rfl
  | succ n =>
      rw [advance_iterate]
      show (t.step + BitVec.ofNat 32 (n + 1)).toNat = _
      rw [BitVec.toNat_add, BitVec.toNat_ofNat]
      omega

/-- **The boundary is the one in integers** exactly where that fits. -/
theorem advance_iterate_exact_iff (h : t.step.toNat + n < 2 ^ 32) (hn : n ≠ 0) :
    (MsTimer.advance^[n] t).nextms.toNat
        = t.startms.toNat + (t.step.toNat + n) * t.interval.toNat ↔
      BoundaryFits t.interval.toNat t.startms.toNat (t.step.toNat + n) := by
  obtain ⟨n, rfl⟩ := Nat.exists_eq_succ_of_ne_zero hn
  have hstep : (t.step + BitVec.ofNat 32 (n + 1)).toNat = t.step.toNat + (n + 1) := by
    have hiter := advance_iterate_step h
    rwa [advance_iterate] at hiter
  have hnext : (MsTimer.advance^[n + 1] t).nextms.toNat
      = (t.startms.toNat + (t.step.toNat + (n + 1)) * t.interval.toNat % 2 ^ 32) % 2 ^ 64 := by
    rw [advance_iterate]
    show (t.startms + ((t.step + BitVec.ofNat 32 (n + 1)) * t.interval).setWidth 64).toNat = _
    rw [BitVec.toNat_add, BitVec.toNat_setWidth, BitVec.toNat_mul, hstep]
    omega
  rw [hnext, BoundaryFits]
  show (t.startms.toNat + (t.step.toNat + (n + 1)) * t.interval.toNat % 2 ^ 32) % 2 ^ 64
      = t.startms.toNat + (t.step.toNat + (n + 1)) * t.interval.toNat ↔ _
  generalize (t.step.toNat + (n + 1)) * t.interval.toNat = product
  have hstart := t.startms.isLt
  omega

/-- The loop counts no further than an `int` can. -/
theorem catchUp_le {room cadd ret : Nat} (h : catchUp now room t cadd = some (ret, t')) :
    ret ≤ cadd + room := by
  induction room generalizing t cadd with
  | zero =>
      rw [catchUp] at h
      split at h
      · cases h
      · exact (Prod.mk.inj (Option.some.inj h)).1.ge
  | succ room ih =>
      rw [catchUp] at h
      split at h
      · have hle := ih h
        omega
      · obtain ⟨rfl, -⟩ := Prod.mk.inj (Option.some.inj h)
        exact Nat.le_add_right _ _

/-- What a call has slept, and where the timer stands then. -/
theorem timerSleep_slept {ret : Nat} (h : timerSleep t now = some (ret, t')) :
    slept ret ≠ 0 ∧ slept ret < 2 ^ 31 ∧ t' = MsTimer.advance^[slept ret] t := by
  refine ⟨?_, ?_, timerSleep_eq h⟩
  · unfold slept
    split <;> omega
  · have hret : ret < 2 ^ 31 := by
      unfold timerSleep at h
      split at h
      · have hle := catchUp_le h
        omega
      · obtain ⟨rfl, -⟩ := Prod.mk.inj (Option.some.inj h)
        decide
    unfold slept
    split <;> omega

/-- A call in time counts nothing. -/
theorem timerSleep_of_early (h : ¬ t.nextms ≤ now) : timerSleep t now = some (0, t.advance) := by
  rw [timerSleep, if_neg h]

/-- The boundaries that have passed, in closed form. -/
theorem ncard_boundaries {next interval now : Nat} (hpos : 0 < interval) (hle : next ≤ now) :
    Set.ncard {j : Nat | next + j * interval ≤ now} = (now - next) / interval + 1 := by
  have hset : {j : Nat | next + j * interval ≤ now}
      = ↑(Finset.range ((now - next) / interval + 1)) := by
    ext j
    rw [Finset.coe_range, Set.mem_Iio, Nat.lt_succ_iff, Nat.le_div_iff_mul_le hpos]
    show next + j * interval ≤ now ↔ _
    omega
  rw [hset, Set.ncard_coe_finset, Finset.card_range]

/-! ### One call -/

/-- The timer stands at the boundary of its step. -/
def MsTimer.Exact (t : MsTimer) : Prop :=
  t.nextms.toNat = t.startms.toNat + t.step.toNat * t.interval.toNat

/-- The step behind a call, in integers. -/
def MsTimer.nextStep (t : MsTimer) (now : BitVec 64) : Nat :=
  ticks t.interval.toNat t.startms.toNat t.step.toNat [now]

/-- The loop ends at the first boundary in the future, by induction on the number of
boundaries up to it. -/
theorem catchUp_of_fits {room k cadd : Nat} (ht : t.Exact) (hroom : k ≤ room)
    (hfit : BoundaryFits t.interval.toNat t.startms.toNat (t.step.toNat + k))
    (hpos : 0 < t.interval.toNat)
    (hpassed : ∀ j < k, t.startms.toNat + (t.step.toNat + j) * t.interval.toNat ≤ now.toNat)
    (hnext : now.toNat < t.startms.toNat + (t.step.toNat + k) * t.interval.toNat) :
    catchUp now room t cadd = some (cadd + k, MsTimer.advance^[k] t) := by
  induction k generalizing t room cadd with
  | zero =>
      have hdone : ¬ t.nextms ≤ now := by
        rw [BitVec.le_def, ht]
        exact Nat.not_le.mpr hnext
      cases room <;> rw [catchUp, if_neg hdone] <;> rfl
  | succ k ih =>
      obtain ⟨room, rfl⟩ : ∃ room', room = room' + 1 := ⟨room - 1, by omega⟩
      have hdue : t.nextms ≤ now := by
        rw [BitVec.le_def, ht]
        exact hpassed 0 (Nat.succ_pos k)
      have hmul : ∀ j ≤ k + 1, (t.step.toNat + j) * t.interval.toNat
          ≤ (t.step.toNat + (k + 1)) * t.interval.toNat :=
        fun j hj => Nat.mul_le_mul_right _ (Nat.add_le_add_left hj _)
      have hfit₁ : BoundaryFits t.interval.toNat t.startms.toNat (t.step.toNat + 1) := by
        have hle := hmul 1 (by omega)
        exact ⟨by have := hfit.1; omega, by have := hfit.2; omega⟩
      have hstep : t.step.toNat + 1 < 2 ^ 32 := by
        have hle : t.step.toNat + 1 ≤ (t.step.toNat + 1) * t.interval.toNat :=
          Nat.le_mul_of_pos_right _ hpos
        exact hle.trans_lt hfit₁.1
      have hstep₁ : t.advance.step.toNat = t.step.toNat + 1 :=
        advance_iterate_step (t := t) (n := 1) hstep
      have hexact : t.advance.Exact := by
        have hiter := (advance_iterate_exact_iff (t := t) (n := 1) hstep (by decide)).mpr hfit₁
        rw [MsTimer.Exact, hstep₁]
        exact hiter
      -- one step on, the boundaries before the last are one fewer
      have harith : ∀ j, t.step.toNat + 1 + j = t.step.toNat + (j + 1) := fun j => by omega
      rw [catchUp, if_pos hdue, ih hexact (by omega), Function.iterate_succ_apply,
        Nat.add_assoc, Nat.add_comm 1 k]
      · rw [hstep₁, harith]
        exact hfit
      · exact hpos
      · intro j hj
        rw [hstep₁, harith]
        exact hpassed (j + 1) (by omega)
      · rw [hstep₁, harith]
        exact hnext

/-- In integers, the boundary behind a call is the first in the future. -/
theorem nextStep_eq (hpos : 0 < t.interval.toNat) (ht : t.Exact) :
    t.nextStep now = t.step.toNat +
      if t.nextms ≤ now then (now.toNat - t.nextms.toNat) / t.interval.toNat + 1 else 1 := by
  show max (t.step.toNat + 1) ((now.toNat - t.startms.toNat) / t.interval.toNat + 1) = _
  have hle : t.nextms ≤ now ↔ t.startms.toNat + t.step.toNat * t.interval.toNat ≤ now.toNat := by
    rw [BitVec.le_def, ht]
  simp only [hle]
  split
  · next hdue =>
      have hsplit : now.toNat - t.startms.toNat
          = (now.toNat - t.nextms.toNat) + t.step.toNat * t.interval.toNat := by
        rw [ht]
        omega
      rw [hsplit, Nat.add_mul_div_right _ _ hpos]
      generalize (now.toNat - t.nextms.toNat) / t.interval.toNat = passed
      omega
  · next hearly =>
      have hdiv : (now.toNat - t.startms.toNat) / t.interval.toNat < t.step.toNat + 1 := by
        rw [Nat.div_lt_iff_lt_mul hpos, Nat.succ_mul]
        omega
      omega

/-- Where a call that obeys leaves the timer: the boundary fits, and it is in the
future. -/
theorem MsTimer.Obeys.fits (h : t.Obeys now) (hstep : t.step.toNat ≤ 2 ^ 31) :
    ∃ ret t', timerSleep t now = some (ret, t') ∧
      BoundaryFits t.interval.toNat t.startms.toNat (t.step.toNat + slept ret) ∧
      (t.nextms ≤ now → ret = boundariesPassed t now) := by
  obtain ⟨ret, t', hcall, hexact, -, hret⟩ := h
  refine ⟨ret, t', hcall, ?_, hret⟩
  obtain ⟨hne, hlt, rfl⟩ := timerSleep_slept hcall
  have hroom : t.step.toNat + slept ret < 2 ^ 32 := by omega
  apply (advance_iterate_exact_iff hroom hne).mp
  rw [hexact, advance_iterate_step hroom]
  rw [(advance_iterate_kept t (slept ret)).1, (advance_iterate_kept t (slept ret)).2]

/-- A timer at the boundary of its step, with an interval of 50 ms or more. -/
structure MsTimer.Sound (t : MsTimer) : Prop where
  interval : 50 ≤ t.interval.toNat
  exact : t.Exact
  fits : BoundaryFits t.interval.toNat t.startms.toNat t.step.toNat

theorem MsTimer.Sound.step_lt (h : t.Sound) : t.step.toNat < 2 ^ 27 := by
  have hfit := h.fits.1
  have hmul : t.step.toNat * 50 ≤ t.step.toNat * t.interval.toNat :=
    Nat.mul_le_mul_left _ h.interval
  omega

/-- **What a call that obeys does.** -/
theorem MsTimer.Sound.of_obeys (ht : t.Sound) (h : t.Obeys now) :
    BoundaryFits t.interval.toNat t.startms.toNat (t.nextStep now) := by
  have hpos : 0 < t.interval.toNat := by have := ht.interval; omega
  obtain ⟨ret, t', hcall, hfit, hret⟩ := h.fits (by have := ht.step_lt; omega)
  have hslept : t.nextStep now = t.step.toNat + slept ret := by
    rw [nextStep_eq hpos ht.exact]
    by_cases hdue : t.nextms ≤ now
    · rw [if_pos hdue, hret hdue, boundariesPassed, ncard_boundaries hpos (BitVec.le_def.mp hdue)]
      rfl
    · rw [timerSleep_of_early hdue] at hcall
      obtain ⟨rfl, -⟩ := Prod.mk.inj (Option.some.inj hcall)
      rw [if_neg hdue]
      rfl
  rwa [hslept]

/-- Moving on to a later boundary that fits. -/
theorem MsTimer.Sound.advance (ht : t.Sound) {k : Nat} (hk : k ≠ 0)
    (hfit : BoundaryFits t.interval.toNat t.startms.toNat (t.step.toNat + k)) :
    (MsTimer.advance^[k] t).Sound ∧ (MsTimer.advance^[k] t).step.toNat = t.step.toNat + k ∧
      (MsTimer.advance^[k] t).nextms.toNat
        = t.startms.toNat + (t.step.toNat + k) * t.interval.toNat := by
  have hroom : t.step.toNat + k < 2 ^ 27 := by
    have hmul : (t.step.toNat + k) * 50 ≤ (t.step.toNat + k) * t.interval.toNat :=
      Nat.mul_le_mul_left _ ht.interval
    have := hfit.1
    omega
  have hexact := (advance_iterate_exact_iff (t := t) (n := k) (by omega) hk).mpr hfit
  have hstep : (MsTimer.advance^[k] t).step.toNat = t.step.toNat + k :=
    advance_iterate_step (by omega)
  obtain ⟨hstart, hinterval⟩ := advance_iterate_kept t k
  refine ⟨⟨?_, ?_, ?_⟩, hstep, hexact⟩
  · rw [hinterval]
    exact ht.interval
  · rw [MsTimer.Exact, hstart, hinterval, hstep]
    exact hexact
  · rw [hstart, hinterval, hstep]
    exact hfit

/-- **What a call does when its boundary fits.** -/
theorem MsTimer.Sound.call (ht : t.Sound)
    (hfit : BoundaryFits t.interval.toNat t.startms.toNat (t.nextStep now)) :
    ∃ ret t', timerSleep t now = some (ret, t') ∧ t'.Sound ∧ now < t'.nextms ∧
      (t.nextms ≤ now → ret = boundariesPassed t now) ∧ t'.startms = t.startms ∧
      t'.interval = t.interval ∧ t'.step.toNat = t.nextStep now := by
  have hpos : 0 < t.interval.toNat := by have := ht.interval; omega
  have hnext : t.nextStep now = t.step.toNat +
      if t.nextms ≤ now then (now.toNat - t.nextms.toNat) / t.interval.toNat + 1 else 1 :=
    nextStep_eq hpos ht.exact
  by_cases hdue : t.nextms ≤ now
  · -- the boundaries to move on by
    obtain ⟨k, hk⟩ : ∃ k, k = (now.toNat - t.nextms.toNat) / t.interval.toNat + 1 := ⟨_, rfl⟩
    rw [if_pos hdue, ← hk] at hnext
    rw [hnext] at hfit ⊢
    have hkpos : k ≠ 0 := hk ▸ Nat.succ_ne_zero _
    obtain ⟨hsound, hstep, hexact⟩ := ht.advance hkpos hfit
    obtain ⟨hstart, hinterval⟩ := advance_iterate_kept t k
    have hdue' := BitVec.le_def.mp hdue
    have hnextms := ht.exact
    rw [MsTimer.Exact] at hnextms
    -- every boundary moved over is past, and the one arrived at is not: the loop stops there
    have hpassed : ∀ j < k,
        t.startms.toNat + (t.step.toNat + j) * t.interval.toNat ≤ now.toNat := by
      intro j hj
      have hjk : j * t.interval.toNat ≤ now.toNat - t.nextms.toNat :=
        (Nat.le_div_iff_mul_le hpos).mp (by omega)
      rw [Nat.add_mul]
      omega
    have hfuture : now.toNat < t.startms.toNat + (t.step.toNat + k) * t.interval.toNat := by
      have hlt := Nat.lt_div_mul_add (a := now.toNat - t.nextms.toNat) hpos
      rw [Nat.add_mul, hk, Nat.add_mul]
      omega
    have hroom := hsound.step_lt
    rw [hstep] at hroom
    have hcall : timerSleep t now = some (0 + k, MsTimer.advance^[k] t) := by
      rw [timerSleep, if_pos hdue]
      exact catchUp_of_fits ht.exact (by omega) hfit hpos hpassed hfuture
    rw [Nat.zero_add] at hcall
    refine ⟨k, _, hcall, hsound, ?_, fun _ => ?_, hstart, hinterval, hstep⟩
    · rw [BitVec.lt_def, hexact]
      exact hfuture
    · rw [boundariesPassed, ncard_boundaries hpos hdue', hk]
  · rw [if_neg hdue] at hnext
    rw [hnext] at hfit ⊢
    obtain ⟨hsound, hstep, hexact⟩ := ht.advance Nat.one_ne_zero hfit
    obtain ⟨hstart, hinterval⟩ := advance_iterate_kept t 1
    -- too early: the timer sleeps until its boundary and moves on by one
    refine ⟨0, _, timerSleep_of_early hdue, hsound, ?_, fun h => absurd h hdue, hstart,
      hinterval, hstep⟩
    have hnow : now.toNat < t.nextms.toNat := Nat.not_le.mp hdue
    rw [BitVec.lt_def]
    refine hnow.trans_le ?_
    show t.nextms.toNat ≤ (MsTimer.advance^[1] t).nextms.toNat
    rw [hexact, ht.exact]
    exact Nat.add_le_add_left (Nat.mul_le_mul_right _ (Nat.le_succ _)) _

/-- **One call, exactly.**  A timer at the boundary of its step obeys as long as the
boundary behind the call fits. -/
theorem MsTimer.Sound.obeys_iff (ht : t.Sound) :
    t.Obeys now ↔ BoundaryFits t.interval.toNat t.startms.toNat (t.nextStep now) := by
  constructor
  · exact ht.of_obeys
  · intro hfit
    obtain ⟨ret, t', hcall, hsound, hfuture, hret, -⟩ := ht.call hfit
    exact ⟨ret, t', hcall, hsound.exact, hfuture, hret⟩

end Moving

/-! ### Runs -/

section Runs

variable {t : MsTimer} {nows : List (BitVec 64)}

theorem le_ticks (interval start step : Nat) (nows : List (BitVec 64)) :
    step ≤ ticks interval start step nows := by
  induction nows generalizing step with
  | nil => exact Nat.le_refl _
  | cons now nows ih =>
      calc step ≤ step + 1 := Nat.le_succ _
        _ ≤ max (step + 1) ((now.toNat - start) / interval + 1) := Nat.le_max_left _ _
        _ ≤ _ := ih _

theorem BoundaryFits.of_le {interval start step step' : Nat} (h : BoundaryFits interval start step')
    (hle : step ≤ step') : BoundaryFits interval start step := by
  have hmul : step * interval ≤ step' * interval := Nat.mul_le_mul_right _ hle
  exact ⟨hmul.trans_lt h.1, (Nat.add_le_add_left hmul _).trans_lt h.2⟩

/-- **A run of calls**, by induction on the clock readings: all of them obey exactly
when the boundary behind the last one fits. -/
theorem along_obeys_iff (ht : t.Sound) :
    Runs.Along MsTimer.sleep MsTimer.Obeys t nows ↔
      BoundaryFits t.interval.toNat t.startms.toNat
        (ticks t.interval.toNat t.startms.toNat t.step.toNat nows) := by
  induction nows generalizing t with
  | nil => exact iff_of_true trivial ht.fits
  | cons now nows ih =>
      have hrest : ticks t.interval.toNat t.startms.toNat t.step.toNat (now :: nows)
          = ticks t.interval.toNat t.startms.toNat (t.nextStep now) nows := rfl
      rw [hrest]
      constructor
      · rintro ⟨hobeys, halong⟩
        obtain ⟨ret, t', hcall, hsound, -, -, hstart, hinterval, hstep⟩ :=
          ht.call (ht.of_obeys hobeys)
        have hfits := (ih hsound).mp (halong t' (by rw [MsTimer.sleep, hcall]; rfl))
        rwa [hstart, hinterval, hstep] at hfits
      · intro hfit
        obtain ⟨ret, t', hcall, hsound, hfuture, hret, hstart, hinterval, hstep⟩ :=
          ht.call (hfit.of_le (le_ticks _ _ _ _))
        refine ⟨⟨ret, t', hcall, hsound.exact, hfuture, hret⟩, ?_⟩
        intro t'' ht''
        rw [MsTimer.sleep, hcall] at ht''
        obtain rfl := Option.some.inj ht''
        apply (ih hsound).mpr
        rw [hstart, hinterval, hstep]
        exact hfit

/-- The fresh timer stands at the boundary of its step if that fits. -/
theorem initMsTimer_sound {start : BitVec 64} {msInterval : BitVec 32} (h : 50 ≤ msInterval.toNat)
    (hfit : BoundaryFits msInterval.toNat start.toNat 1) :
    (initMsTimer start msInterval).Sound := by
  refine ⟨h, ?_, hfit⟩
  have hlt := msInterval.isLt
  have hsum := hfit.2
  show (start + (1 * msInterval).setWidth 64).toNat = start.toNat + 1 * msInterval.toNat
  rw [show 1 * msInterval = msInterval from one_mul _, BitVec.toNat_add, BitVec.toNat_setWidth]
  omega

/-- If it does not, already the first call disobeys. -/
theorem not_obeys_of_not_fits {start now : BitVec 64} {msInterval : BitVec 32}
    (hfit : ¬ BoundaryFits msInterval.toNat start.toNat 1) :
    ¬ (initMsTimer start msInterval).Obeys now := by
  intro h
  have hstep : (initMsTimer start msInterval).step.toNat = 1 := rfl
  obtain ⟨ret, -, -, hfits, -⟩ := h.fits (by rw [hstep]; decide)
  rw [hstep] at hfits
  exact hfit (hfits.of_le (Nat.le_add_right _ _))

/-- What is asked for is at least 50 ms. -/
theorem IntervalSource.asked_ge (source : IntervalSource) : 50 ≤ source.asked := by
  cases source <;> simp [IntervalSource.asked]

/-- **The timer, exactly.**  It keeps its law when the interval survives its way and, if
there are calls, the boundary behind the last one is less than 2^32 ms after the start
and before 2^64. -/
theorem timerLaw_iff (source : IntervalSource) (start : BitVec 64) (nows : List (BitVec 64)) :
    TimerLaw source start nows ↔
      source.Fits ∧ (nows ≠ [] → BoundaryFits source.asked.toNat start.toNat
        (ticks source.asked.toNat start.toNat 1 nows)) := by
  rw [← interval_eq_asked_iff]
  have hasked : (source.msInterval.toNat : Int) = source.asked →
      source.asked.toNat = source.msInterval.toNat ∧ 50 ≤ source.msInterval.toNat := by
    have := source.asked_ge
    omega
  constructor
  · rintro ⟨hinterval, hcalls⟩
    obtain ⟨heq, hge⟩ := hasked hinterval
    refine ⟨hinterval, fun hne => ?_⟩
    obtain ⟨now, rest, rfl⟩ := List.exists_cons_of_ne_nil hne
    -- if already the boundary of the start does not fit, the first call disobeys
    by_cases hfit : BoundaryFits source.msInterval.toNat start.toNat 1
    · rw [heq]
      exact (along_obeys_iff (initMsTimer_sound hge hfit)).mp hcalls
    · exact absurd hcalls.1 (not_obeys_of_not_fits hfit)
  · rintro ⟨hinterval, hfits⟩
    obtain ⟨heq, hge⟩ := hasked hinterval
    refine ⟨hinterval, ?_⟩
    cases nows with
    | nil => trivial
    | cons now rest =>
        have hfit := hfits (List.cons_ne_nil _ _)
        rw [heq] at hfit
        have hfirst := hfit.of_le (le_ticks _ _ _ _)
        exact (along_obeys_iff (initMsTimer_sound hge hfirst)).mpr hfit

/-- With the default of 50 ms, a call 50 days after the start disobeys. -/
theorem not_timerLaw_long : ¬ TimerLaw .noOption 0 [4320000000] := by
  intro h
  have hsound : (initMsTimer 0 IntervalSource.noOption.msInterval).Sound :=
    initMsTimer_sound (by decide) (by unfold BoundaryFits; decide)
  have hfits := (along_obeys_iff hsound).mp h.calls
  exact absurd hfits.1 (by decide)

end Runs

end Variorum
