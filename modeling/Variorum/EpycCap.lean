/-
Variorum/EpycCap.lean

Power caps of AMD EPYC sockets: `amd_cpu_epyc_set_socket_power_limit` and
`amd_cpu_epyc_set_and_verify_best_effort_node_power_limit`.

Both run over the sockets with a request in milliwatts, the second one reading
each cap back, and both lower the request itself where a socket's maximum is
smaller (`Esmi.lower`).  So what a socket is programmed with is a running
minimum over the maxima of all sockets up to it (`programmed_eq`), and the
sockets are independent only where no later maximum exceeds an earlier one that
lowered the request (`runMin_succ_eq_iff`).

The node variant halves the request whatever the number of sockets.  What it
takes for both to do what they are for is `epycCaps_iff`.
-/
import Mathlib.Algebra.Order.BigOperators.Group.List
import Mathlib.Order.Lattice
import Mathlib.Tactic.Linarith
import Variorum.History

namespace Variorum

open History

/-! ### The driver and the loop -/

/-- The calls of `esmi_socket_power_cap_set` so far, in their order. -/
abbrev EsmiLog := List (Nat × BitVec 32)

/-- What the E-SMI library answers: the value of `ESMI_PERMISSION`, the results
of its three calls, and what two of them store.  What a socket's cap is depends
on what was set. -/
structure Esmi where
  permission : Int
  maxGet : Nat → Int × BitVec 32
  capSet : Nat → BitVec 32 → Int
  capGet : Nat → EsmiLog → Int × BitVec 32

namespace Esmi

variable (e : Esmi)

/-- `pcap_new` after socket `i` has been asked for its maximum. -/
def lower (i : Nat) (pcapNew : BitVec 32) : BitVec 32 :=
  if (e.maxGet i).1 = 0 ∧ (e.maxGet i).2.slt pcapNew then (e.maxGet i).2 else pcapNew

/-- The second half of the loop body in the variant that verifies: 0, or what it
returns. -/
def verify (i : Nat) (pcapNew : BitVec 32) (log : EsmiLog) : Int :=
  let (ret, pcapTest) := e.capGet i log
  if ret ≠ 0 then ret else if pcapNew ≠ pcapTest then -1 else 0

/-- The loop of both functions over these sockets. -/
def capSockets (e : Esmi) (verifies : Bool) : List Nat → BitVec 32 → EsmiLog → Int × EsmiLog
  | [], _, log => (0, log)
  | i :: rest, pcapNew, log =>
      let pcapNew := e.lower i pcapNew
      let log := log ++ [(i, pcapNew)]
      let ret := e.capSet i pcapNew
      if ret ≠ 0 then (if ret = e.permission then -1 else ret, log)
      else
        let ret := if verifies then e.verify i pcapNew log else 0
        if ret ≠ 0 then (ret, log) else capSockets e verifies rest pcapNew log

end Esmi

/-- `amd_cpu_epyc_set_socket_power_limit` on a node with `n` sockets. -/
def amdCpuEpycSetSocketPowerLimit (e : Esmi) (n : Nat) (pcapNew : BitVec 32) : Int × EsmiLog :=
  e.capSockets false (List.range n) (pcapNew * 1000) []

/-- `amd_cpu_epyc_set_and_verify_best_effort_node_power_limit`. -/
def amdCpuEpycSetAndVerifyBestEffortNodePowerLimit (e : Esmi) (n : Nat) (pcapNew : BitVec 32) :
    Int × EsmiLog :=
  e.capSockets true (List.range n) (pcapNew.sdiv 2 * 1000) []

/-- What a socket is programmed with, in milliwatts. -/
def programmed (log : EsmiLog) (i : Nat) : Option Nat :=
  (lastFor Prod.fst i log).map fun w => w.2.toNat

/-- The request after the first `k` sockets. -/
def Esmi.requestAfter (e : Esmi) (pcapNew : BitVec 32) : Nat → BitVec 32
  | 0 => pcapNew
  | k + 1 => e.lower k (e.requestAfter pcapNew k)

/-! ### Running minima -/

section RunMin

variable {α : Type*} [LinearOrder α]

/-- The least of `r` and the first `k` values of `f`. -/
def runMin (f : Nat → α) (r : α) : Nat → α
  | 0 => r
  | k + 1 => min (runMin f r k) (f k)

variable {f : Nat → α} {q r a : α} {i k : Nat}

theorem le_runMin_iff : a ≤ runMin f r k ↔ a ≤ r ∧ ∀ j < k, a ≤ f j := by
  induction k with
  | zero => simp [runMin]
  | succ k ih => rw [runMin, le_min_iff, ih, Nat.forall_lt_succ_right, and_assoc]

theorem runMin_le_start : runMin f r k ≤ r := (le_runMin_iff.mp le_rfl).1

theorem runMin_le {j : Nat} (h : j < k) : runMin f r k ≤ f j := (le_runMin_iff.mp le_rfl).2 j h

/-- **The values before do not matter** exactly if none of them is less. -/
theorem runMin_succ_eq_iff :
    runMin f r (i + 1) = min r (f i) ↔ ∀ j < i, min r (f i) ≤ f j := by
  constructor
  · intro h j hj
    rw [← h]
    exact runMin_le (by omega)
  · intro h
    refine le_antisymm (le_min runMin_le_start (runMin_le (by omega))) ?_
    rw [le_runMin_iff, Nat.forall_lt_succ_right]
    exact ⟨min_le_left _ _, h, min_le_right _ _⟩

/-- Where the first value is less than both, what one starts from does not
matter. -/
theorem runMin_congr (hq : f 0 ≤ q) (hr : f 0 ≤ r) (i : Nat) :
    runMin f r (i + 1) = runMin f q (i + 1) := by
  refine eq_of_forall_le_iff fun a => ?_
  simp only [le_runMin_iff]
  refine and_congr_left fun h => ?_
  have ha := h 0 (Nat.succ_pos i)
  exact iff_of_true (ha.trans hr) (ha.trans hq)

/-- Starting from `r`, one gets what each value alone makes of `q`. -/
theorem runMin_eq_min_iff {n : Nat} (hn : 0 < n) :
    (∀ i < n, runMin f r (i + 1) = min q (f i)) ↔
      (r = q ∨ f 0 ≤ min r q) ∧ ∀ i < n, ∀ j < i, min q (f i) ≤ f j := by
  constructor
  · intro h
    have h0 : min r (f 0) = min q (f 0) := h 0 hn
    refine ⟨?_, fun i hi j hj => ?_⟩
    · rcases le_total (f 0) r with hr | hr
      · rw [min_eq_right hr] at h0
        exact .inr (le_min hr (min_eq_right_iff.mp h0.symm))
      · rcases le_total (f 0) q with hq | hq
        · rw [min_eq_left hr, min_eq_right hq] at h0
          exact .inr (h0 ▸ le_min le_rfl (h0 ▸ hq))
        · rw [min_eq_left hr, min_eq_left hq] at h0
          exact .inl h0
    · rw [← h i hi]
      exact runMin_le (by omega)
  · rintro ⟨hstart, hrest⟩ i hi
    have hq : runMin f q (i + 1) = min q (f i) := runMin_succ_eq_iff.mpr (hrest i hi)
    rcases hstart with rfl | hlow
    · exact hq
    · rw [← hq]
      exact runMin_congr (hlow.trans (min_le_right _ _)) (hlow.trans (min_le_left _ _)) i

end RunMin

/-! ### A driver whose calls succeed -/

/-- Every call succeeds, the maxima are not negative as `int`s, and a cap reads
back as it was set last. -/
structure WorkingEsmi extends Esmi where
  maxGet_ret : ∀ i, (maxGet i).1 = 0
  maxGet_lt : ∀ i, (maxGet i).2.toNat < 2 ^ 31
  capSet_ret : ∀ i v, capSet i v = 0
  capGet_last : ∀ i v log, capGet i (log ++ [(i, v)]) = (0, v)

namespace WorkingEsmi

variable (e : WorkingEsmi)

/-- The maximum of a socket in milliwatts. -/
def maxPower (i : Nat) : Nat := (e.maxGet i).2.toNat

variable {e} {pcapNew : BitVec 32}

theorem lower_toNat (h : pcapNew.toNat < 2 ^ 31) (i : Nat) :
    (e.lower i pcapNew).toNat = min pcapNew.toNat (e.maxPower i) := by
  have hmax := e.maxGet_lt i
  have hslt : (e.maxGet i).2.slt pcapNew ↔ e.maxPower i < pcapNew.toNat := by
    rw [BitVec.slt_iff_toInt_lt, BitVec.toInt_eq_toNat_of_lt (by omega),
      BitVec.toInt_eq_toNat_of_lt (by omega), Nat.cast_lt]
    rfl
  simp only [Esmi.lower, e.maxGet_ret i, true_and]
  split
  · next h => exact (min_eq_right (hslt.mp h).le).symm
  · next h => exact (min_eq_left (Nat.not_lt.mp (hslt.not.mp h))).symm

theorem requestAfter_toNat (h : pcapNew.toNat < 2 ^ 31) (k : Nat) :
    (e.requestAfter pcapNew k).toNat = runMin e.maxPower pcapNew.toNat k := by
  induction k with
  | zero => rfl
  | succ k ih =>
      have hlt : (e.requestAfter pcapNew k).toNat < 2 ^ 31 := by
        rw [ih]
        exact runMin_le_start.trans_lt h
      rw [Esmi.requestAfter, lower_toNat hlt, ih, runMin]

/-- **The loop.**  It comes to an end and has set every socket once, to the
request as it was there. -/
theorem capSockets_eq (verifies : Bool) (k m : Nat) (log : EsmiLog) :
    e.capSockets verifies (List.range' k m) (e.requestAfter pcapNew k) log
      = (0, log ++ (List.range' k m).map fun i => (i, e.requestAfter pcapNew (i + 1))) := by
  induction m generalizing k log with
  | zero => simp [Esmi.capSockets]
  | succ m ih =>
      have hverify : e.verify k (e.requestAfter pcapNew (k + 1))
          (log ++ [(k, e.requestAfter pcapNew (k + 1))]) = 0 := by
        simp [Esmi.verify, e.capGet_last]
      have hrest := ih (k + 1) (log ++ [(k, e.requestAfter pcapNew (k + 1))])
      simp only [Esmi.requestAfter] at hverify hrest
      simp only [List.range'_succ, Esmi.capSockets, e.capSet_ret, hverify, ite_self, ne_eq,
        not_true_eq_false, if_false, hrest, List.map_cons, List.append_assoc]
      rfl

/-- What the loop programs a socket with. -/
theorem programmed_eq (verifies : Bool) {n i : Nat} (hi : i < n) (h : pcapNew.toNat < 2 ^ 31) :
    programmed (e.capSockets verifies (List.range n) pcapNew []).2 i
      = some (runMin e.maxPower pcapNew.toNat (i + 1)) := by
  have hloop : (e.capSockets verifies (List.range n) pcapNew []).2
      = (List.range n).map fun i => (i, e.requestAfter pcapNew (i + 1)) := by
    rw [List.range_eq_range']
    exact congrArg Prod.snd (capSockets_eq verifies 0 n [])
  have hlast : lastFor Prod.fst i
      ((List.range n).map fun i => (i, e.requestAfter pcapNew (i + 1)))
      = some (i, e.requestAfter pcapNew (i + 1)) := by
    have hmem : (i, e.requestAfter pcapNew (i + 1)) ∈
        (List.range n).map fun i => (i, e.requestAfter pcapNew (i + 1)) :=
      List.mem_map.mpr ⟨i, List.mem_range.mpr hi, rfl⟩
    refine lastFor_of_injOn hmem ?_
    rintro ⟨j, v⟩ hj hkey
    obtain ⟨j', -, heq⟩ := List.mem_map.mp hj
    obtain ⟨rfl, rfl⟩ := Prod.mk.inj heq
    obtain rfl : j' = i := hkey
    rfl
  rw [programmed, hloop, hlast, Option.map_some, requestAfter_toNat h]

end WorkingEsmi

/-! ### Both functions -/

/-- A request in watts that is not negative and representable in milliwatts. -/
structure WattRequest where
  watts : Nat
  fits : watts * 1000 < 2 ^ 31

/-- The argument of the functions. -/
def WattRequest.toInt32 (request : WattRequest) : BitVec 32 := BitVec.ofNat 32 request.watts

/-- A node whose E-SMI calls succeed. -/
structure EpycNode where
  esmi : WorkingEsmi
  numSockets : Nat
  numSockets_pos : 0 < numSockets

section Caps

variable (node : EpycNode) (request : WattRequest)

/-- Every socket is programmed with this value. -/
def Programs (log : EsmiLog) (n : Nat) (value : Nat → Nat) : Prop :=
  ∀ i < n, programmed log i = some (value i)

/-- What `amd_cpu_epyc_set_socket_power_limit` is for: every socket gets the request, or
its own maximum if that is less. -/
def SocketCapHolds : Prop :=
  Programs (amdCpuEpycSetSocketPowerLimit node.esmi.toEsmi node.numSockets request.toInt32).2
    node.numSockets fun i => min (1000 * request.watts) (node.esmi.maxPower i)

/-- What `amd_cpu_epyc_set_and_verify_best_effort_node_power_limit` is for: every socket
gets its share or its maximum, and all of them together no more than the request. -/
def NodeCapHolds : Prop :=
  let log := (amdCpuEpycSetAndVerifyBestEffortNodePowerLimit node.esmi.toEsmi node.numSockets
    request.toInt32).2
  Programs log node.numSockets
      (fun i => min (1000 * (request.watts / node.numSockets)) (node.esmi.maxPower i)) ∧
    ((List.range node.numSockets).filterMap (programmed log)).sum ≤ 1000 * request.watts

/-- No socket after one whose maximum is below the request has a greater
maximum. -/
def MaximaDecrease : Prop :=
  ∀ i < node.numSockets, ∀ j < i,
    min (1000 * request.watts) (node.esmi.maxPower i) ≤ node.esmi.maxPower j

variable {node}

theorem toInt32_toNat : request.toInt32.toNat = request.watts := by
  have hfits := request.fits
  rw [WattRequest.toInt32, BitVec.toNat_ofNat, Nat.mod_eq_of_lt (by omega)]

/-- A number of watts up to the request, in milliwatts. -/
theorem mul_thousand_toNat (w : BitVec 32) (h : w.toNat ≤ request.watts) :
    (w * 1000).toNat = 1000 * w.toNat := by
  have hfits := request.fits
  have hthousand : (1000 : BitVec 32).toNat = 1000 := by decide
  rw [BitVec.toNat_mul, hthousand]
  omega

/-- `pcap_new / 2` is the half of the request, as the request is not negative. -/
theorem sdiv_two_toNat : (request.toInt32.sdiv 2).toNat = request.watts / 2 := by
  have hfits := request.fits
  have hwatts := toInt32_toNat request
  have hx : request.toInt32.msb = false := by
    rw [BitVec.msb_eq_false_iff_two_mul_lt, hwatts]
    omega
  have htwo : (2 : BitVec 32).msb = false := by decide
  rw [BitVec.toNat_sdiv, hx, htwo, BitVec.udiv_eq, BitVec.toNat_udiv, hwatts]
  rfl

variable {request}

theorem socketCapHolds_iff : SocketCapHolds node request ↔ MaximaDecrease node request := by
  have hreq := mul_thousand_toNat request request.toInt32 (toInt32_toNat request).le
  have hfits := request.fits
  rw [toInt32_toNat] at hreq
  refine forall₂_congr fun i hi => ?_
  rw [amdCpuEpycSetSocketPowerLimit, WorkingEsmi.programmed_eq false hi (by omega),
    Option.some.injEq, hreq]
  exact runMin_succ_eq_iff

/-- Equal shares of the request do not exceed it together. -/
theorem sum_shares_le {log : EsmiLog} (h : Programs log node.numSockets fun i =>
      min (1000 * (request.watts / node.numSockets)) (node.esmi.maxPower i)) :
    ((List.range node.numSockets).filterMap (programmed log)).sum ≤ 1000 * request.watts := by
  have hle : ∀ v ∈ (List.range node.numSockets).filterMap (programmed log),
      v ≤ 1000 * (request.watts / node.numSockets) := by
    intro v hv
    obtain ⟨i, hi, hiv⟩ := List.mem_filterMap.mp hv
    rw [h i (List.mem_range.mp hi), Option.some.injEq] at hiv
    exact hiv ▸ min_le_left _ _
  have hlen : ((List.range node.numSockets).filterMap (programmed log)).length
      ≤ node.numSockets := by
    simpa using List.length_filterMap_le (programmed log) (List.range node.numSockets)
  calc ((List.range node.numSockets).filterMap (programmed log)).sum
      ≤ ((List.range node.numSockets).filterMap (programmed log)).length *
          (1000 * (request.watts / node.numSockets)) := List.sum_le_card_nsmul _ _ hle
    _ ≤ node.numSockets * (1000 * (request.watts / node.numSockets)) :=
        Nat.mul_le_mul_right _ hlen
    _ = 1000 * (node.numSockets * (request.watts / node.numSockets)) := Nat.mul_left_comm _ _ _
    _ ≤ 1000 * request.watts := Nat.mul_le_mul_left _ (Nat.mul_div_le _ _)

theorem nodeCapHolds_iff : NodeCapHolds node request ↔
    (request.watts / 2 = request.watts / node.numSockets ∨
      node.esmi.maxPower 0 ≤ 1000 * min (request.watts / 2) (request.watts / node.numSockets)) ∧
    ∀ i < node.numSockets, ∀ j < i,
      min (1000 * (request.watts / node.numSockets)) (node.esmi.maxPower i)
        ≤ node.esmi.maxPower j := by
  have hhalf := sdiv_two_toNat request
  have hreq := mul_thousand_toNat request (request.toInt32.sdiv 2)
    (hhalf ▸ Nat.div_le_self _ _)
  have hfits := request.fits
  rw [hhalf] at hreq
  have hstart : request.watts / 2 = request.watts / node.numSockets ↔
      1000 * (request.watts / 2) = 1000 * (request.watts / node.numSockets) := by omega
  rw [hstart, ← Nat.mul_min_mul_left, ← runMin_eq_min_iff node.numSockets_pos]
  refine (and_iff_left_of_imp sum_shares_le).trans (forall₂_congr fun i hi => ?_)
  rw [amdCpuEpycSetAndVerifyBestEffortNodePowerLimit,
    WorkingEsmi.programmed_eq true hi (by omega), Option.some.injEq, hreq]

/-- **The caps of EPYC sockets.**  Both functions program every socket with its
own share of the request exactly if no socket after one whose maximum is below
the request has a greater maximum, and a half of the request is the share of a
socket, or the first maximum is not above either. -/
theorem epycCaps_iff (node : EpycNode) (request : WattRequest) :
    SocketCapHolds node request ∧ NodeCapHolds node request ↔
      MaximaDecrease node request ∧
        (request.watts / 2 = request.watts / node.numSockets ∨
          node.esmi.maxPower 0
            ≤ 1000 * min (request.watts / 2) (request.watts / node.numSockets)) := by
  rw [socketCapHolds_iff, nodeCapHolds_iff]
  refine and_congr_right fun hmax => and_iff_left fun i hi j hj => ?_
  have hshare : 1000 * (request.watts / node.numSockets) ≤ 1000 * request.watts :=
    Nat.mul_le_mul_left _ (Nat.div_le_self _ _)
  exact (min_le_min_right _ hshare).trans (hmax i hi j hj)

/-- A driver whose calls succeed, with these maxima. -/
def scriptedEsmi (maxima : Nat → Fin (2 ^ 31)) : WorkingEsmi where
  permission := 4
  maxGet := fun i => (0, BitVec.ofNat 32 (maxima i))
  capSet := fun _ _ => 0
  capGet := fun i log => (0, ((lastFor Prod.fst i log).map Prod.snd).getD 0)
  maxGet_ret := fun _ => rfl
  maxGet_lt := fun i => by
    have hlt := (maxima i).isLt
    rw [BitVec.toNat_ofNat, Nat.mod_eq_of_lt (by omega)]
    exact hlt
  capSet_ret := fun _ _ => rfl
  capGet_last := fun i v log => by
    rw [lastFor_concat, if_pos rfl, Option.map_some, Option.getD_some]

/-- The first socket takes 100 W at most, the second one 200 W.  A request of
150 W programs both with 100 W. -/
theorem socketCap_leaks :
    ¬ (SocketCapHolds ⟨scriptedEsmi fun i => if i = 0 then 100000 else 200000, 2, by decide⟩
          ⟨150, by decide⟩ ∧
        NodeCapHolds ⟨scriptedEsmi fun i => if i = 0 then 100000 else 200000, 2, by decide⟩
          ⟨150, by decide⟩) := by
  rintro ⟨hsocket, -⟩
  rw [socketCapHolds_iff] at hsocket
  exact absurd (hsocket 1 (by decide) 0 (by decide)) (by decide)

end Caps

end Variorum
