/-
Variorum/OccRead.lean

How the sensor blocks of a Power9 node are read from their file.

`ibm_cpu_p9_get_power` goes to the place of a block, takes a buffer and reads
until the buffer is full.  A read may give less than is asked for, nothing, or an
error; in the last two cases the loop ends early, and so does the function, with
the file left open.  The place of a block is a product of 32 bits.

What the answers of the system are is given.  A byte of a buffer stands for the
place in the file that it comes from.
-/
import Mathlib.Tactic.Linarith
import Variorum.Loop
import Variorum.OccSensors

namespace Variorum

namespace Occ

/-! ### The system -/

/-- What the system answers: the number of sockets, whether the file can be opened and the
`i`-th buffer be had, and what the `k`-th read for so many bytes returns, never more than
that. -/
structure Answers where
  nsockets : BitVec 32
  opens : Bool
  malloc : Nat → Bool
  read : Nat → Nat → Int
  read_le : ∀ k count, read k count ≤ count

/-- The bytes of a buffer: each by its place in the file. -/
abbrev Buffer := Nat → Option Nat

/-- What a call holds and has done: whether the descriptor is open and where it stands, how
many buffers are allocated, the calls so far, the buffer, and what was printed. -/
structure ReadState where
  isOpen : Bool
  pos : Nat
  heap : Nat
  mallocs : Nat
  reads : Nat
  buf : Buffer
  printed : List (Nat × Buffer)

/-! ### The function -/

section Function

variable (sys : Answers)

/-- The body of the loop that fills a buffer, with `bytes`. -/
def readTurn (x : ReadState × Nat) : (ReadState × Nat) ⊕ (ReadState × Nat) :=
  let (s, bytes) := x
  if bytes < OCC_SENSOR_DATA_BLOCK_SIZE then
    let rc := sys.read s.reads (OCC_SENSOR_DATA_BLOCK_SIZE - bytes)
    if rc ≤ 0 then .inr ({ s with reads := s.reads + 1 }, bytes)
    else
      let buf : Buffer := fun a =>
        if bytes ≤ a ∧ a < bytes + rc.toNat then some (s.pos + (a - bytes)) else s.buf a
      .inl ({ s with reads := s.reads + 1, pos := s.pos + rc.toNat, buf := buf },
        bytes + rc.toNat)
  else .inr x

/-- `lseek(fd, iter * OCC_SENSOR_DATA_BLOCK_SIZE, SEEK_SET)`. -/
def lseek (iter : Nat) (s : ReadState) : ReadState :=
  { s with pos := iter * OCC_SENSOR_DATA_BLOCK_SIZE % 2 ^ 32 }

/-- A new buffer from `malloc`, with nothing in it that may be read. -/
def newBuffer (s : ReadState) : ReadState :=
  { s with mallocs := s.mallocs + 1, heap := s.heap + 1, buf := fun _ => none }

/-- What follows that loop: a socket is done, or the call ends. -/
def afterBlock (iter : Nat) (x : ReadState × Nat) : ReadState ⊕ ReadState :=
  let (s, bytes) := x
  if bytes ≠ OCC_SENSOR_DATA_BLOCK_SIZE then .inr { s with heap := s.heap - 1 }
  else .inl { s with heap := s.heap - 1, printed := s.printed ++ [(iter, s.buf)] }

/-- The body of the loop over the sockets: it goes on, or ends with -1. -/
def socketTurn (fuel iter : Nat) (s : ReadState) : Option (ReadState ⊕ ReadState) :=
  let s := lseek iter s
  if sys.malloc s.mallocs then
    (Loop.run (readTurn sys) fuel (newBuffer s, 0)).map (afterBlock iter)
  else some (.inr { s with mallocs := s.mallocs + 1 })

/-- The loop, with the sockets that are left, and what follows it. -/
def socketLoop (fuel : Nat) : Nat → Nat → ReadState → Option (Int × ReadState)
  | 0, _, s => some (0, { s with isOpen := false })
  | left + 1, iter, s => (socketTurn sys fuel iter s).bind fun
      | .inl s => socketLoop fuel left (iter + 1) s
      | .inr s => some (-1, s)

/-- The state before a call. -/
def ReadState.start : ReadState := ⟨false, 0, 0, 0, 0, fun _ => none, []⟩

/-- `ibm_cpu_p9_get_power`, with the turns that a loop may take. -/
def ibmCpuP9GetPower (fuel : Nat) : Option (Int × ReadState) :=
  if sys.opens then
    socketLoop sys fuel sys.nsockets.toNat 0 { ReadState.start with isOpen := true }
  else some (-1, .start)

end Function

/-! ### What is asked -/

/-- A whole block in a buffer. -/
def blockAt (pos : Nat) : Buffer :=
  fun a => if a < OCC_SENSOR_DATA_BLOCK_SIZE then some (pos + a) else none

/-- The call ends; it returns 0 behind the blocks of all sockets, or -1; the file is closed and
every buffer is freed. -/
def ReadsBlocks (sys : Answers) : Prop :=
  ∃ rc s, (∀ fuel > OCC_SENSOR_DATA_BLOCK_SIZE, ibmCpuP9GetPower sys fuel = some (rc, s)) ∧
    (rc = 0 ∧ s.printed = (List.range sys.nsockets.toNat).map (fun i =>
        (i, blockAt (i * OCC_SENSOR_DATA_BLOCK_SIZE))) ∨ rc = -1) ∧
    s.isOpen = false ∧ s.heap = 0

/-- The bytes that the first reads deliver, if each is for what its block lacks. -/
def delivered (sys : Answers) : Nat → Nat
  | 0 => 0
  | k + 1 => delivered sys k
      + (sys.read k
          (OCC_SENSOR_DATA_BLOCK_SIZE - delivered sys k % OCC_SENSOR_DATA_BLOCK_SIZE)).toNat

/-- The `k`-th read delivers something. -/
def Delivers (sys : Answers) (k : Nat) : Prop :=
  0 < sys.read k (OCC_SENSOR_DATA_BLOCK_SIZE - delivered sys k % OCC_SENSOR_DATA_BLOCK_SIZE)

/-- There is a buffer for each socket, and no read fails before the blocks are complete. -/
structure Undisturbed (sys : Answers) : Prop where
  mallocs : ∀ i < sys.nsockets.toNat, sys.malloc i
  reads : ∀ k, delivered sys k < sys.nsockets.toNat * OCC_SENSOR_DATA_BLOCK_SIZE → Delivers sys k

/-! ### A block -/

section Block

variable {sys : Answers} {iter fuel : Nat} {s₀ : ReadState}

/-- The loop that fills a buffer, from a state on: what it has read, and what it leaves. -/
structure Filling (sys : Answers) (s₀ : ReadState) (iter : Nat) (x : ReadState × Nat) : Prop where
  le : x.2 ≤ OCC_SENSOR_DATA_BLOCK_SIZE
  got : delivered sys x.1.reads = iter * OCC_SENSOR_DATA_BLOCK_SIZE + x.2
  reads : ∀ k < x.1.reads, Delivers sys k
  pos : x.1.pos = s₀.pos + x.2
  buf : ∀ a, x.1.buf a = if a < x.2 then some (s₀.pos + a) else none
  isOpen : x.1.isOpen = s₀.isOpen
  heap : x.1.heap = s₀.heap
  mallocs : x.1.mallocs = s₀.mallocs
  printed : x.1.printed = s₀.printed

/-- What is asked for is what the block lacks. -/
theorem Filling.count {x : ReadState × Nat} (h : Filling sys s₀ iter x)
    (hlt : x.2 < OCC_SENSOR_DATA_BLOCK_SIZE) :
    OCC_SENSOR_DATA_BLOCK_SIZE - delivered sys x.1.reads % OCC_SENSOR_DATA_BLOCK_SIZE
      = OCC_SENSOR_DATA_BLOCK_SIZE - x.2 := by
  rw [h.got, Nat.mul_add_mod_of_lt hlt]

/-- **A turn** that goes on has filled more of the buffer. -/
theorem Filling.turn {x x' : ReadState × Nat} (h : Filling sys s₀ iter x)
    (hturn : readTurn sys x = .inl x') : Filling sys s₀ iter x' ∧ x.2 < x'.2 := by
  obtain ⟨s, bytes⟩ := x
  simp only [readTurn] at hturn
  split at hturn
  · next hlt =>
      split at hturn
      · cases hturn
      · next hrc =>
          obtain rfl := Sum.inl.inj hturn
          have hcount := h.count hlt
          have hread := sys.read_le s.reads (OCC_SENSOR_DATA_BLOCK_SIZE - bytes)
          have hpos := h.pos
          have hle := h.le
          simp only at hcount hpos hle
          refine ⟨⟨?_, ?_, ?_, ?_, ?_, h.isOpen, h.heap, h.mallocs, h.printed⟩, ?_⟩
          · simp only
            omega
          · have hgot := h.got
            simp only at hgot ⊢
            rw [delivered, hcount, hgot, Nat.add_assoc]
          · intro k hk
            rcases Nat.lt_succ_iff_lt_or_eq.mp hk with hk | rfl
            · exact h.reads k hk
            · rw [Delivers, hcount]
              omega
          · simp only
            omega
          · intro a
            have hbuf := h.buf a
            simp only at hbuf ⊢
            rw [hbuf, hpos]
            -- the bytes of this read stand behind those of the reads before
            by_cases hold : a < bytes
            · rw [if_neg (by omega), if_pos hold, if_pos (by omega)]
            · by_cases hnew :
                a < bytes + (sys.read s.reads (OCC_SENSOR_DATA_BLOCK_SIZE - bytes)).toNat
              · rw [if_pos ⟨by omega, hnew⟩, if_pos hnew]
                congr 1
                omega
              · rw [if_neg (by omega), if_neg hold, if_neg hnew]
          · simp only
            omega
  · cases hturn

/-- Where the loop ends the buffer is full, or the last read has failed. -/
theorem Filling.last {x y : ReadState × Nat} (h : Filling sys s₀ iter x)
    (hturn : readTurn sys x = .inr y) :
    (x.2 = OCC_SENSOR_DATA_BLOCK_SIZE ∧ y = x) ∨
      (y.2 ≠ OCC_SENSOR_DATA_BLOCK_SIZE ∧ y.1.isOpen = s₀.isOpen ∧ y.1.heap = s₀.heap ∧
        ∃ k, delivered sys k < (iter + 1) * OCC_SENSOR_DATA_BLOCK_SIZE ∧ ¬ Delivers sys k) := by
  obtain ⟨s, bytes⟩ := x
  have hle := h.le
  simp only [readTurn] at hturn hle
  split at hturn
  · next hlt =>
      split at hturn
      · next hrc =>
          obtain rfl := Sum.inr.inj hturn
          refine .inr ⟨Nat.ne_of_lt hlt, h.isOpen, h.heap, s.reads, ?_, ?_⟩
          · rw [h.got, Nat.succ_mul]
            exact Nat.add_lt_add_left hlt _
          · rw [Delivers, h.count hlt]
            exact not_lt.mpr hrc
      · cases hturn
  · next hge =>
      obtain rfl := Sum.inr.inj hturn
      exact .inl ⟨by simp only; omega, rfl⟩

/-- **The loop ends** like that, within so many turns. -/
theorem run_readTurn {x : ReadState × Nat} (h : Filling sys s₀ iter x)
    (hfuel : OCC_SENSOR_DATA_BLOCK_SIZE < fuel) :
    ∃ y, Loop.run (readTurn sys) fuel x = some y ∧
      ((y.2 = OCC_SENSOR_DATA_BLOCK_SIZE ∧ Filling sys s₀ iter y) ∨
        (y.2 ≠ OCC_SENSOR_DATA_BLOCK_SIZE ∧ y.1.isOpen = s₀.isOpen ∧ y.1.heap = s₀.heap ∧
          ∃ k, delivered sys k < (iter + 1) * OCC_SENSOR_DATA_BLOCK_SIZE ∧ ¬ Delivers sys k)) := by
  have hstep : ∀ x x', Filling sys s₀ iter x → readTurn sys x = .inl x' →
      Filling sys s₀ iter x' ∧
        OCC_SENSOR_DATA_BLOCK_SIZE - x'.2 < OCC_SENSOR_DATA_BLOCK_SIZE - x.2 := by
    intro x x' hx hturn
    obtain ⟨hx', hlt⟩ := hx.turn hturn
    have hle := hx'.le
    exact ⟨hx', by omega⟩
  have hmeasure : OCC_SENSOR_DATA_BLOCK_SIZE - x.2 < fuel := by omega
  obtain ⟨y, x', hrun, hfilling, hturn⟩ := Loop.run_of_inv (Filling sys s₀ iter)
    (fun x => OCC_SENSOR_DATA_BLOCK_SIZE - x.2) hstep h hmeasure
  refine ⟨y, hrun, ?_⟩
  rcases hfilling.last hturn with ⟨hfull, rfl⟩ | hfail
  · exact .inl ⟨hfull, hfilling⟩
  · exact .inr hfail

end Block

/-! ### The sockets -/

section Sockets

variable {sys : Answers} {iter fuel left : Nat} {s : ReadState}

/-- The call before a socket. -/
structure BeforeBlock (sys : Answers) (iter : Nat) (s : ReadState) : Prop where
  got : delivered sys s.reads = iter * OCC_SENSOR_DATA_BLOCK_SIZE
  reads : ∀ k < s.reads, Delivers sys k
  buffers : ∀ i < iter, sys.malloc i
  isOpen : s.isOpen = true
  heap : s.heap = 0
  mallocs : s.mallocs = iter
  printed : s.printed = (List.range iter).map fun i =>
    (i, blockAt (i * OCC_SENSOR_DATA_BLOCK_SIZE % 2 ^ 32))

/-- What keeps a socket from its block. -/
def Disturbed (sys : Answers) (n : Nat) : Prop :=
  (∃ i < n, sys.malloc i = false) ∨
    ∃ k, delivered sys k < n * OCC_SENSOR_DATA_BLOCK_SIZE ∧ ¬ Delivers sys k

theorem Disturbed.mono {m n : Nat} (h : Disturbed sys m) (hle : m ≤ n) : Disturbed sys n := by
  rcases h with ⟨i, hi, hmalloc⟩ | ⟨k, hk, hfail⟩
  · exact .inl ⟨i, hi.trans_le hle, hmalloc⟩
  · exact .inr ⟨k, hk.trans_le (Nat.mul_le_mul_right _ hle), hfail⟩

theorem not_undisturbed (h : Disturbed sys sys.nsockets.toNat) : ¬ Undisturbed sys := by
  intro hundisturbed
  rcases h with ⟨i, hi, hmalloc⟩ | ⟨k, hk, hfail⟩
  · rw [hundisturbed.mallocs i hi] at hmalloc
    cases hmalloc
  · exact hfail (hundisturbed.reads k hk)

/-- **A socket**: its block is read and printed, or the call ends with the file open. -/
theorem socketTurn_spec (h : BeforeBlock sys iter s) (hfuel : OCC_SENSOR_DATA_BLOCK_SIZE < fuel) :
    (∃ s', socketTurn sys fuel iter s = some (.inl s') ∧ BeforeBlock sys (iter + 1) s') ∨
      ∃ s', socketTurn sys fuel iter s = some (.inr s') ∧ s'.isOpen = true ∧
        Disturbed sys (iter + 1) := by
  -- the product stays a variable, so that no check of a field computes it
  obtain ⟨pos, hseek, hpos⟩ : ∃ pos, lseek iter s = { s with pos := pos } ∧
      pos = iter * OCC_SENSOR_DATA_BLOCK_SIZE % 2 ^ 32 := ⟨_, rfl, rfl⟩
  have hnum : ({ s with pos := pos } : ReadState).mallocs = iter := h.mallocs
  rw [socketTurn, hseek]
  by_cases hmalloc : sys.malloc iter
  · have hstart : Filling sys (newBuffer { s with pos := pos }) iter
        (newBuffer { s with pos := pos }, 0) :=
      ⟨Nat.zero_le _, h.got.trans (Nat.add_zero _).symm, h.reads, (Nat.add_zero _).symm,
        fun a => (if_neg (Nat.not_lt_zero a)).symm, rfl, rfl, rfl, rfl⟩
    obtain ⟨⟨s', bytes⟩, hrun, hend⟩ := run_readTurn hstart hfuel
    rw [if_pos (hnum.symm ▸ hmalloc), hrun, Option.map_some, afterBlock]
    rcases hend with ⟨hfull, hfilling⟩ | ⟨hshort, hopen, -, hfail⟩
    · rw [if_neg (not_not.mpr hfull)]
      refine .inl ⟨_, rfl, ?_, hfilling.reads, ?_, hfilling.isOpen.trans h.isOpen, ?_, ?_, ?_⟩
      · rw [hfilling.got, hfull, Nat.succ_mul]
      · intro i hi
        rcases Nat.lt_succ_iff_lt_or_eq.mp hi with hi | rfl
        · exact h.buffers i hi
        · exact hmalloc
      · rw [hfilling.heap]
        exact h.heap
      · rw [hfilling.mallocs]
        exact congrArg (· + 1) hnum
      · have hbuf : s'.buf = blockAt (iter * OCC_SENSOR_DATA_BLOCK_SIZE % 2 ^ 32) := by
          funext a
          rw [hfilling.buf a, hfull, ← hpos]
          rfl
        rw [List.range_succ, List.map_append, hfilling.printed, hbuf]
        exact congrArg (· ++ _) h.printed
    · rw [if_pos hshort]
      exact .inr ⟨_, rfl, hopen.trans h.isOpen, .inr hfail⟩
  · rw [if_neg (hnum.symm ▸ hmalloc)]
    exact .inr ⟨_, rfl, h.isOpen, .inl ⟨iter, Nat.lt_succ_self iter, Bool.eq_false_iff.mpr hmalloc⟩⟩

/-- **All sockets** that are left, by induction. -/
theorem socketLoop_spec (h : BeforeBlock sys iter s)
    (hfuel : OCC_SENSOR_DATA_BLOCK_SIZE < fuel) :
    (∃ s', socketLoop sys fuel left iter s = some (0, { s' with isOpen := false }) ∧
        BeforeBlock sys (iter + left) s') ∨
      ∃ s', socketLoop sys fuel left iter s = some (-1, s') ∧ s'.isOpen = true ∧
        Disturbed sys (iter + left) := by
  induction left generalizing iter s with
  | zero => exact .inl ⟨s, rfl, h⟩
  | succ left ih =>
      rw [socketLoop]
      rcases socketTurn_spec h hfuel with ⟨s', hturn, hbefore⟩ | ⟨s', hturn, hopen, hfail⟩
      · rw [hturn, Option.bind_some, Nat.add_comm left, ← Nat.add_assoc]
        exact ih hbefore
      · rw [hturn, Option.bind_some]
        exact .inr ⟨s', rfl, hopen, hfail.mono (by omega)⟩

/-- More turns make no difference. -/
theorem socketLoop_mono {fuel' : Nat} (hle : fuel ≤ fuel') {r : Int × ReadState}
    (h : socketLoop sys fuel left iter s = some r) : socketLoop sys fuel' left iter s = some r := by
  induction left generalizing iter s with
  | zero => exact h
  | succ left ih =>
      rw [socketLoop] at h ⊢
      obtain ⟨next, hturn, hrest⟩ := Option.bind_eq_some_iff.mp h
      have hturn' : socketTurn sys fuel' iter s = some next := by
        rw [socketTurn] at hturn ⊢
        split at hturn
        · next hmalloc =>
            obtain ⟨x, hrun, hx⟩ := Option.map_eq_some_iff.mp hturn
            rw [if_pos hmalloc, Loop.run_mono hle hrun, Option.map_some, hx]
        · next hmalloc => rw [if_neg hmalloc, hturn]
      rw [hturn', Option.bind_some]
      cases next with
      | inl s' => exact ih hrest
      | inr s' => exact hrest

theorem delivered_mono {k k' : Nat} (h : k ≤ k') : delivered sys k ≤ delivered sys k' := by
  induction h with
  | refl => exact Nat.le_refl _
  | step _ ih => exact ih.trans (Nat.le_add_right _ _)

/-- Behind the last socket nothing has gone wrong. -/
theorem BeforeBlock.undisturbed (h : BeforeBlock sys sys.nsockets.toNat s) : Undisturbed sys := by
  refine ⟨h.buffers, fun k hk => h.reads k ?_⟩
  rw [← h.got] at hk
  exact not_le.mp fun hle => absurd (delivered_mono hle) (not_le.mpr hk)

/-- **The places of the blocks** are those of the sockets up to the first product that is too
great for 32 bits. -/
theorem places_iff (n : Nat) :
    ((List.range n).map fun i => (i, blockAt (i * OCC_SENSOR_DATA_BLOCK_SIZE % 2 ^ 32)))
        = ((List.range n).map fun i => (i, blockAt (i * OCC_SENSOR_DATA_BLOCK_SIZE)))
      ↔ n ≤ 27963 := by
  rw [List.map_inj_left]
  constructor
  · intro h
    by_contra hn
    have heq := congrArg (fun p => p.2 0) (h 27963 (List.mem_range.mpr (by omega)))
    exact absurd heq (by decide)
  · intro hn i hi
    have hlt := List.mem_range.mp hi
    have hplace : i * OCC_SENSOR_DATA_BLOCK_SIZE < 2 ^ 32 := by
      simp only [OCC_SENSOR_DATA_BLOCK_SIZE]
      omega
    rw [Nat.mod_eq_of_lt hplace]

/-- A call that has opened the file. -/
theorem readsBlocks_of_opens (hopens : sys.opens = true) :
    ReadsBlocks sys ↔ Undisturbed sys ∧ sys.nsockets.toNat ≤ 27963 := by
  have hcall : ∀ fuel, ibmCpuP9GetPower sys fuel
      = socketLoop sys fuel sys.nsockets.toNat 0 { ReadState.start with isOpen := true } :=
    fun fuel => if_pos hopens
  have hstart : BeforeBlock sys 0 { ReadState.start with isOpen := true } :=
    ⟨(Nat.zero_mul _).symm, nofun, nofun, rfl, rfl, rfl, rfl⟩
  -- the loop reads the blocks of all sockets, or stops at the first that does not come whole
  have hloop := @socketLoop_spec sys 0 _ sys.nsockets.toNat _ hstart
    (Nat.lt_succ_self OCC_SENSOR_DATA_BLOCK_SIZE)
  rw [Nat.zero_add] at hloop
  constructor
  · rintro ⟨rc, s, hrun, hresult, hclosed, -⟩
    have hrun := hrun _ (Nat.lt_succ_self OCC_SENSOR_DATA_BLOCK_SIZE)
    rw [hcall] at hrun
    rcases hloop with ⟨s', hzero, hbefore⟩ | ⟨s', hminus, hopen, -⟩
    · obtain ⟨rfl, rfl⟩ := Prod.mk.inj (Option.some.inj (hzero.symm.trans hrun))
      refine ⟨hbefore.undisturbed, (places_iff _).mp ?_⟩
      rcases hresult with ⟨-, hprinted⟩ | hrc
      · exact hbefore.printed.symm.trans hprinted
      · exact absurd hrc (by decide)
    · -- the error paths free the buffer, and leave the file open
      obtain ⟨rfl, rfl⟩ := Prod.mk.inj (Option.some.inj (hminus.symm.trans hrun))
      rw [hopen] at hclosed
      cases hclosed
  · rintro ⟨hundisturbed, hfit⟩
    rcases hloop with ⟨s', hzero, hbefore⟩ | ⟨s', -, -, hfail⟩
    · refine ⟨0, { s' with isOpen := false }, fun fuel hfuel => ?_, .inl ⟨rfl, ?_⟩, rfl,
        hbefore.heap⟩
      · rw [hcall]
        exact socketLoop_mono hfuel hzero
      · exact hbefore.printed.trans ((places_iff _).mpr hfit)
    · exact absurd hundisturbed (not_undisturbed hfail)

/-- **The call** gives its blocks and its resources exactly where the file cannot be opened, or
nothing disturbs it and the places fit 32 bits. -/
theorem readsBlocks_iff (sys : Answers) :
    ReadsBlocks sys ↔ sys.opens = false ∨ (Undisturbed sys ∧ sys.nsockets.toNat ≤ 27963) := by
  cases hopens : sys.opens with
  | false =>
      have hcall : ∀ fuel, ibmCpuP9GetPower sys fuel = some (-1, .start) :=
        fun fuel => if_neg (by rw [hopens]; decide)
      exact iff_of_true ⟨-1, .start, fun fuel _ => hcall fuel, .inr rfl, rfl, rfl⟩ (.inl rfl)
  | true =>
      rw [readsBlocks_of_opens hopens]
      exact (or_iff_right (by decide)).symm

/-- A node with a socket, whose file is empty. -/
def emptyFile : Answers := ⟨1, true, fun _ => true, fun _ _ => 0, fun _ _ => Int.natCast_nonneg _⟩

theorem not_readsBlocks_empty : ¬ ReadsBlocks emptyFile := by
  intro h
  obtain ⟨hundisturbed, -⟩ := (readsBlocks_of_opens rfl).mp h
  exact absurd (hundisturbed.reads 0 (by decide)) (Int.lt_irrefl 0)

end Sockets

end Occ

end Variorum
