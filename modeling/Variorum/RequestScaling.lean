/-
Variorum/RequestScaling.lean

From the request of a capping call to what reaches the driver.

Five platform functions multiply the `int` they are given by the unit of their
driver, in 32 bits: the power limits of EPYC sockets and of NVIDIA and AMD GPUs,
whose drivers take an unsigned number, and the frequencies of ARM sockets, which
are extended to 64 bits and written into a file of the `cpufreq` driver as a
text.  None of them looks at the range of the request.

A `Backend` is one of these functions with all it meets, and `Backend.call` what
it returns and what it has handed over.  `scaling_iff` says for which requests
that is the product of request and unit as a number, but for the maxima to which
the EPYC function lowers a request on purpose.
-/
import Variorum.CString
import Variorum.EpycCap
import Variorum.GpuCap

namespace Variorum

open CString History

/-! ### The calls of the GPU drivers -/

/-- The calls of `nvmlDeviceSetPowerManagementLimit` for one socket. -/
def nvidiaSetCalls (node : NvmlNode) (powerlimit : BitVec 32) (chipid : Nat) :
    List (Nat × Nat) :=
  (List.range' (chipid * node.gpusPerSocket) node.gpusPerSocket).map fun d =>
    (d, (powerlimit * 1000).toNat)

/-- Those of a call of `volta_cap_each_gpu_power_limit`. -/
def voltaSetCalls (node : NvmlNode) (powerlimit : BitVec 32) : List (Nat × Nat) :=
  (List.range node.topo.nsockets).flatMap (nvidiaSetCalls node powerlimit)

/-- **The calls of the NVIDIA function**: these, one after the other, are all it does. -/
theorem voltaCapEachGpuPowerLimit_calls (node : NvmlNode) (powerlimit : BitVec 32)
    (st : GpuState Nat) :
    voltaCapEachGpuPowerLimit node powerlimit st
      = some (0, (voltaSetCalls node powerlimit).foldl
          (fun st w => setLimit node.refuses id w.2 st w.1) st) := by
  rw [voltaSetCalls, List.foldl_flatMap]
  simp only [nvidiaSetCalls, List.foldl_map]
  rfl

/-- The calls of `rsmi_dev_power_cap_set` for one socket. -/
def rsmiSetCalls (node : RsmiNode) (powerlimit : BitVec 32) (chipid : Nat) : List (Nat × Nat) :=
  (List.range' (chipid * node.gpusPerSocket chipid) (node.gpusPerSocket chipid)).map fun d =>
    (d, (powerlimit * 1000000).toNat)

/-- The loop over the sockets gets past the initialisation of the driver on this
one; the process has not ended before. -/
def RsmiNode.comesTo (node : RsmiNode) (chipid : Nat) : Bool :=
  (List.range (chipid + 1)).all fun s => !node.refuses s .init

/-- Those of a call of `amd_gpu_instinct_cap_each_gpu_power_limit`. -/
def instinctSetCalls (node : RsmiNode) (powerlimit : BitVec 32) : List (Nat × Nat) :=
  ((List.range node.topo.nsockets).filter node.comesTo).flatMap (rsmiSetCalls node powerlimit)

/-- What the AMD function does on one socket once the driver is initialised there: the
devices are counted, the calls for the socket made, and the driver shut down. -/
def RsmiNode.capSocket (node : RsmiNode) (powerlimit : BitVec 32)
    (st : GpuState (Nat × RsmiCall)) (chipid : Nat) : GpuState (Nat × RsmiCall) :=
  node.check chipid .shutDown ((rsmiSetCalls node powerlimit chipid).foldl
    (fun st w => setLimit (fun i => node.refuses chipid (.devPowerCapSet i))
      (fun i => (chipid, .devPowerCapSet i)) w.2 st w.1)
    (node.check chipid .numMonitorDevices st))

section Instinct

variable {node : RsmiNode} {k : Nat} (powerlimit : BitVec 32) (st : GpuState (Nat × RsmiCall))

/-- One socket: the function makes its calls between the two others. -/
theorem amdCapEachGpuPowerLimit_calls {chipid : Nat} (h : node.refuses chipid .init = false) :
    amdCapEachGpuPowerLimit node chipid powerlimit st
      = some (node.capSocket powerlimit st chipid) := by
  rw [amdCapEachGpuPowerLimit, h, if_neg Bool.false_ne_true, RsmiNode.capSocket, rsmiSetCalls,
    List.foldl_map]

/-- The sockets on which the driver is initialised, one after the other. -/
theorem amdSockets_calls (h : ∀ s < k, node.refuses s .init = false) :
    amdSockets node powerlimit k st
      = some ((List.range k).foldl (node.capSocket powerlimit) st) := by
  induction k with
  | zero => rfl
  | succ k ih =>
      rw [amdSockets_succ, ih fun s hs => h s (Nat.lt_succ_of_lt hs), Option.bind_some,
        amdCapEachGpuPowerLimit_calls powerlimit _ (h k (Nat.lt_succ_self k)), List.range_succ,
        List.foldl_append]
      rfl

/-- Where the driver is initialised on the first `k` sockets and refuses the next one, if
there is one, these are the sockets the loop comes to. -/
theorem RsmiNode.filter_comesTo (node : RsmiNode) {n : Nat} (hk : k ≤ n)
    (hfirst : ∀ s < k, node.refuses s .init = false)
    (hnext : k < n → node.refuses k .init = true) :
    (List.range n).filter node.comesTo = List.range k := by
  have hbefore : ∀ s ∈ List.range k, node.comesTo s = true := by
    intro s hs
    simp only [comesTo, List.all_eq_true, List.mem_range, Bool.not_eq_true']
    exact fun j hj => hfirst j ((Nat.lt_succ_iff.mp hj).trans_lt (List.mem_range.mp hs))
  have hbehind : ∀ s ∈ List.range' k (n - k), ¬ node.comesTo s = true := by
    intro s hs hcomes
    simp only [comesTo, List.all_eq_true, List.mem_range, Bool.not_eq_true'] at hcomes
    obtain ⟨hks, hsn⟩ := List.mem_range'_1.mp hs
    have hrefused := hnext (by omega)
    rw [hcomes k (Nat.lt_succ_of_le hks)] at hrefused
    exact Bool.false_ne_true hrefused
  have hsplit : List.range n = List.range k ++ List.range' k (n - k) := by
    have happend := List.range'_append_1 (s := 0) (m := k) (n := n - k)
    rw [Nat.zero_add, Nat.add_sub_cancel' hk] at happend
    rw [List.range_eq_range', List.range_eq_range', happend]
  rw [hsplit, List.filter_append, List.filter_eq_self.mpr hbefore,
    List.filter_eq_nil_iff.mpr hbehind, List.append_nil]

/-- **The calls of the AMD function.**  It gets through the first sockets, where it makes
these calls, and then either returns or ends the process on the next one. -/
theorem amdGpuInstinctCapEachGpuPowerLimit_calls (node : RsmiNode) :
    ∃ k ≤ node.topo.nsockets,
      instinctSetCalls node powerlimit = (List.range k).flatMap (rsmiSetCalls node powerlimit) ∧
      amdSockets node powerlimit k st
        = some ((List.range k).foldl (node.capSocket powerlimit) st) ∧
      amdGpuInstinctCapEachGpuPowerLimit node powerlimit st
        = if k = node.topo.nsockets then
            some (0, (List.range k).foldl (node.capSocket powerlimit) st)
          else none := by
  by_cases hinit : ∃ s, s < node.topo.nsockets ∧ node.refuses s .init = true
  · -- the process ends on the first socket that refuses
    obtain ⟨hlt, hrefuses⟩ := Nat.find_spec hinit
    have hfirst : ∀ s < Nat.find hinit, node.refuses s .init = false := fun s hs =>
      Bool.eq_false_iff.mpr fun h => Nat.find_min hinit hs ⟨hs.trans hlt, h⟩
    refine ⟨Nat.find hinit, hlt.le, ?_, amdSockets_calls powerlimit st hfirst, ?_⟩
    · rw [instinctSetCalls, node.filter_comesTo hlt.le hfirst fun _ => hrefuses]
    · rw [if_neg hlt.ne, amdGpuInstinctCapEachGpuPowerLimit,
        (amdSockets_eq_none_iff powerlimit _ st).mpr hinit, Option.map_none]
  · have hfirst : ∀ s < node.topo.nsockets, node.refuses s .init = false := fun s hs =>
      Bool.eq_false_iff.mpr fun h => hinit ⟨s, hs, h⟩
    refine ⟨node.topo.nsockets, le_rfl, ?_, amdSockets_calls powerlimit st hfirst, ?_⟩
    · rw [instinctSetCalls, node.filter_comesTo le_rfl hfirst fun h => absurd h (lt_irrefl _)]
    · rw [if_pos rfl, amdGpuInstinctCapEachGpuPowerLimit, amdSockets_calls powerlimit st hfirst,
        Option.map_some]

end Instinct

/-! ### The frequency of ARM sockets -/

/-- What `open` returns for a `scaling_setspeed`, and `write` on it. -/
structure SetspeedFile where
  fd : Int
  written : Int

/-- The node as an ARM platform finds it. -/
structure CpufreqNode where
  topo : Topology
  policy : Nat → SetspeedFile

/-- `write_file_ui64`, and the text it has written.  Nothing can be written to a
file that was not opened. -/
def writeFileUi64 (file : SetspeedFile) (val : BitVec 64) : Int × List (List Char) :=
  let buf := decimal val.toNat
  if file.fd < 0 then (0, [])
  else if file.written ≤ 0 then (0, [buf])
  else (file.written, [buf])

/-- The body of both functions below for these policies, and what each of their
files is written. -/
def CpufreqNode.capPolicies (node : CpufreqNode) (newFreq : BitVec 32) :
    List Nat → Int × List (Nat × List Char)
  | [] => (0, [])
  | i :: rest =>
      -- a descriptor of -1 passes this test
      if (node.policy i).fd = 0 then (-1, [])
      else
        let (bytesWritten, texts) :=
          writeFileUi64 (node.policy i) ((newFreq * 1000).signExtend 64)
        if bytesWritten = 0 then (-1, texts.map fun text => (i, text))
        else
          let (ret, after) := CpufreqNode.capPolicies node newFreq rest
          (ret, texts.map (fun text => (i, text)) ++ after)

/-- `arm_cpu_juno_r2_cap_socket_frequency`. -/
def armCpuJunoR2CapSocketFrequency (node : CpufreqNode) (socketid : Nat) (newFreq : BitVec 32) :
    Int × List (Nat × List Char) :=
  node.capPolicies newFreq [socketid]

/-- `arm_cpu_neoverse_n1_cap_socket_frequency`, which writes all 80 cores. -/
def armCpuNeoverseN1CapSocketFrequency (node : CpufreqNode) (_socketid : Nat)
    (newFreq : BitVec 32) : Int × List (Nat × List Char) :=
  node.capPolicies newFreq (List.range 80)

/-- The socket is one of the node. -/
def CpufreqNode.HasSocket (node : CpufreqNode) (cpuid : BitVec 32) : Prop :=
  0 ≤ cpuid.toInt ∧ cpuid.toInt < node.topo.nsockets

instance (node : CpufreqNode) (cpuid : BitVec 32) : Decidable (node.HasSocket cpuid) :=
  inferInstanceAs (Decidable (_ ∧ _))

/-- `arm_juno_r2_cap_socket_frequency`. -/
def armJunoR2CapSocketFrequency (node : CpufreqNode) (cpuid freq : BitVec 32) :
    Int × List (Nat × List Char) :=
  if node.HasSocket cpuid then armCpuJunoR2CapSocketFrequency node cpuid.toNat freq
  else (-1, [])

/-- `arm_neoverse_n1_cap_socket_frequency`. -/
def armNeoverseN1CapSocketFrequency (node : CpufreqNode) (cpuid freq : BitVec 32) :
    Int × List (Nat × List Char) :=
  if node.HasSocket cpuid then armCpuNeoverseN1CapSocketFrequency node cpuid.toNat freq
  else (-1, [])

/-! ### What is handed over -/

/-- An unsigned number for a driver, or a text for a file. -/
inductive Handed
  | number (value : Nat)
  | text (s : List Char)

/-- It is, or reads as, this number. -/
def Handed.Is : Handed → Int → Prop
  | number value, x => (value : Int) = x
  | text s, x => s = decimalInt x

/-- A platform function that scales its request, with all it meets. -/
inductive Backend
  | amdCpu (e : Esmi) (n : Nat)
  | amdGpu (node : RsmiNode) (st : GpuState (Nat × RsmiCall))
  | nvidia (node : NvmlNode) (st : GpuState Nat)
  | junoR2 (node : CpufreqNode) (cpuid : BitVec 32)
  | neoverseN1 (node : CpufreqNode) (cpuid : BitVec 32)

namespace Backend

/-- Its unit in one of the request. -/
def factor : Backend → Nat
  | amdGpu .. => 1000000
  | amdCpu .. | nvidia .. | junoR2 .. | neoverseN1 .. => 1000

/-- What a call returns, `none` if it ends the process, and what it has handed
over and where. -/
def call (request : BitVec 32) : Backend → Option Int × List (Nat × Handed)
  | amdCpu e n =>
      let (ret, log) := amdCpuEpycSetSocketPowerLimit e n request
      (some ret, log.map fun w => (w.1, .number w.2.toNat))
  | amdGpu node st =>
      ((amdGpuInstinctCapEachGpuPowerLimit node request st).map Prod.fst,
        (instinctSetCalls node request).map fun w => (w.1, .number w.2))
  | nvidia node st =>
      ((voltaCapEachGpuPowerLimit node request st).map Prod.fst,
        (voltaSetCalls node request).map fun w => (w.1, .number w.2))
  | junoR2 node cpuid =>
      let (ret, texts) := armJunoR2CapSocketFrequency node cpuid request
      (some ret, texts.map fun w => (w.1, .text w.2))
  | neoverseN1 node cpuid =>
      let (ret, texts) := armNeoverseN1CapSocketFrequency node cpuid request
      (some ret, texts.map fun w => (w.1, .text w.2))

/-- What socket `w.1` is handed is a maximum that E-SMI has reported for it or
for a socket before it: "So sets to default max". -/
def Lowers : Backend → Nat × Handed → Prop
  | amdCpu e _, w => ∃ j ≤ w.1, (e.maxGet j).1 = 0 ∧ w.2 = .number (e.maxGet j).2.toNat
  | _, _ => False

/-- Something is handed over at all. -/
def Reaches : Backend → Prop
  | amdCpu _ n => 0 < n
  | amdGpu node _ => ∃ s < node.topo.nsockets, node.comesTo s = true ∧ 0 < node.gpusPerSocket s
  | nvidia node _ => 0 < node.gpusPerSocket
  | junoR2 node cpuid => node.HasSocket cpuid ∧ 0 < (node.policy cpuid.toNat).fd
  | neoverseN1 node cpuid => node.HasSocket cpuid ∧ 0 < (node.policy 0).fd

/-- The requests whose scaling does not overflow.  On an EPYC an overflow does
not show where the first socket's maximum is not above what has become of the
request. -/
def InRange (request : BitVec 32) : Backend → Prop
  | amdCpu e _ =>
      0 ≤ request.toInt ∧ request.toInt * 1000 < 2 ^ 32 ∨
        (e.maxGet 0).1 = 0 ∧ (e.maxGet 0).2.sle (request * 1000)
  | amdGpu _ _ => 0 ≤ request.toInt ∧ request.toInt * 1000000 < 2 ^ 32
  | nvidia _ _ => 0 ≤ request.toInt ∧ request.toInt * 1000 < 2 ^ 32
  | junoR2 _ _ | neoverseN1 _ _ => 0 ≤ request.toInt ∧ request.toInt * 1000 < 2 ^ 31

/-- Everything handed over is the product of request and unit, or the call is
rejected and nothing handed over. -/
def ScalesExactly (request : BitVec 32) (b : Backend) : Prop :=
  (∀ w ∈ (b.call request).2, w.2.Is (request.toInt * b.factor)) ∨
    (b.call request).1 ≠ some 0 ∧ (b.call request).2 = []

/-- The same, but for what is lowered on purpose. -/
def Scales (request : BitVec 32) (b : Backend) : Prop :=
  (∀ w ∈ (b.call request).2, w.2.Is (request.toInt * b.factor) ∨ b.Lowers w) ∨
    (b.call request).1 ≠ some 0 ∧ (b.call request).2 = []

/-- What a call of a GPU function does is to make the calls above, and what it leaves is what
they leave.  The AMD function makes them on the sockets it gets through, and returns if
these are all.  The other functions say themselves what they hand over. -/
def Performs (request : BitVec 32) : Backend → Prop
  | nvidia node st =>
      voltaCapEachGpuPowerLimit node request st
        = some (0, (voltaSetCalls node request).foldl
            (fun st w => setLimit node.refuses id w.2 st w.1) st)
  | amdGpu node st =>
      ∃ k ≤ node.topo.nsockets,
        instinctSetCalls node request = (List.range k).flatMap (rsmiSetCalls node request) ∧
        amdSockets node request k st = some ((List.range k).foldl (node.capSocket request) st) ∧
        amdGpuInstinctCapEachGpuPowerLimit node request st
          = if k = node.topo.nsockets then
              some (0, (List.range k).foldl (node.capSocket request) st)
            else none
  | amdCpu .. | junoR2 .. | neoverseN1 .. => True

/-- **Each GPU function performs its calls.** -/
theorem performs (request : BitVec 32) (b : Backend) : b.Performs request := by
  cases b with
  | nvidia node st => exact voltaCapEachGpuPowerLimit_calls node request st
  | amdGpu node st => exact amdGpuInstinctCapEachGpuPowerLimit_calls request st node
  | _ => trivial

end Backend

/-! ### One value for all -/

/-- Where everything handed over is the same, only whether there is anything and
what it is matter. -/
theorem exact_iff_of_const {β : Type*} {calls : List (Nat × β)} {g : β → Handed} {value : β}
    {x : Int} {reaches : Prop} (hval : ∀ w ∈ calls, w.2 = value) (hreach : calls ≠ [] ↔ reaches) :
    (∀ w ∈ calls.map fun w => (w.1, g w.2), w.2.Is x ∨ False) ↔ (reaches → (g value).Is x) := by
  simp only [or_false, List.forall_mem_map]
  rw [← hreach]
  constructor
  · intro h hne
    obtain ⟨w, hw⟩ := List.exists_mem_of_ne_nil calls hne
    exact hval w hw ▸ h w hw
  · intro h w hw
    exact (hval w hw).symm ▸ h (List.ne_nil_of_mem hw)

/-- The frequency in 64 bits is right where the product fits in 31. -/
theorem signExtend_mul_toNat_iff (request : BitVec 32) :
    (((request * 1000).signExtend 64).toNat : Int) = request.toInt * 1000 ↔
      0 ≤ request.toInt ∧ request.toInt * 1000 < 2 ^ 31 := by
  have hthousand : (1000 : BitVec 32).toNat = 1000 := by decide
  have hmul : (request * 1000).toNat = request.toNat * 1000 % 2 ^ 32 := by
    rw [BitVec.toNat_mul, hthousand]
  have hlt := request.isLt
  have hprod := (request * 1000).isLt
  have hint := BitVec.toInt_eq_toNat_cond request
  have hmsb := BitVec.msb_eq_true_iff_two_mul_ge (x := request * 1000)
  have hfits : request.toNat * 1000 < 2 ^ 32 → (request * 1000).toNat = request.toNat * 1000 :=
    fun h => hmul.trans (Nat.mod_eq_of_lt h)
  rw [BitVec.toNat_signExtend, BitVec.toNat_setWidth, Nat.mod_eq_of_lt (by omega)]
  by_cases hneg : 2 ^ 32 ≤ 2 * (request * 1000).toNat
  · rw [if_pos (hmsb.mpr hneg)]
    split at hint <;> omega
  · rw [if_neg (hmsb.not.mpr hneg)]
    split at hint <;> omega

theorem text_is_iff (request : BitVec 32) :
    (Handed.text (decimal ((request * 1000).signExtend 64).toNat)).Is (request.toInt * 1000) ↔
      0 ≤ request.toInt ∧ request.toInt * 1000 < 2 ^ 31 := by
  rw [← signExtend_mul_toNat_iff, Handed.Is, ← decimalInt_natCast, decimalInt_injective.eq_iff]

/-! ### The EPYC loop -/

namespace Esmi

variable (e : Esmi)

/-- Whatever the driver answers, the loop has set the first sockets, and at least
one if there is any. -/
theorem capSockets_log (pcapNew : BitVec 32) (verifies : Bool) (k m : Nat) (log : EsmiLog) :
    ∃ m' ≤ m, (0 < m → 0 < m') ∧
      (e.capSockets verifies (List.range' k m) (e.requestAfter pcapNew k) log).2
        = log ++ (List.range' k m').map fun i => (i, e.requestAfter pcapNew (i + 1)) := by
  induction m generalizing k log with
  | zero => exact ⟨0, le_rfl, id, by simp [capSockets]⟩
  | succ m ih =>
      have hone : log ++ [(k, e.requestAfter pcapNew (k + 1))]
          = log ++ (List.range' k 1).map fun i => (i, e.requestAfter pcapNew (i + 1)) := rfl
      rw [List.range'_succ]
      simp only [capSockets]
      by_cases hset : e.capSet k (e.requestAfter pcapNew (k + 1)) ≠ 0
      · refine ⟨1, by omega, fun _ => Nat.one_pos, ?_⟩
        rw [← hone]
        exact congrArg Prod.snd (if_pos hset)
      · by_cases hverify : (if verifies then e.verify k (e.requestAfter pcapNew (k + 1))
            (log ++ [(k, e.requestAfter pcapNew (k + 1))]) else 0) ≠ 0
        · refine ⟨1, by omega, fun _ => Nat.one_pos, ?_⟩
          rw [← hone]
          exact congrArg Prod.snd ((if_neg hset).trans (if_pos hverify))
        · obtain ⟨m', hm', -, hlog⟩ := ih (k + 1) (log ++ [(k, e.requestAfter pcapNew (k + 1))])
          refine ⟨m' + 1, by omega, fun _ => Nat.succ_pos m', ?_⟩
          refine (congrArg Prod.snd ((if_neg hset).trans (if_neg hverify))).trans (hlog.trans ?_)
          rw [List.range'_succ, List.map_cons, List.append_assoc]
          rfl

/-- What one socket does to the request. -/
theorem lower_cases (i : Nat) (p : BitVec 32) :
    e.lower i p = p ∨ (e.maxGet i).1 = 0 ∧ e.lower i p = (e.maxGet i).2 := by
  unfold lower
  split
  · next h => exact .inr ⟨h.1, rfl⟩
  · exact .inl rfl

/-- The request is still what it was, or the maximum of a socket. -/
theorem requestAfter_cases (pcapNew : BitVec 32) (i : Nat) :
    e.requestAfter pcapNew i = pcapNew ∨
      ∃ j < i, (e.maxGet j).1 = 0 ∧ e.requestAfter pcapNew i = (e.maxGet j).2 := by
  induction i with
  | zero => exact .inl rfl
  | succ i ih =>
      rcases e.lower_cases i (e.requestAfter pcapNew i) with h | ⟨hret, h⟩
      · rw [requestAfter, h]
        rcases ih with hkept | ⟨j, hj, hmax⟩
        · exact .inl hkept
        · exact .inr ⟨j, Nat.lt_succ_of_lt hj, hmax⟩
      · exact .inr ⟨i, Nat.lt_succ_self i, hret, h⟩

variable {e} {pcapNew : BitVec 32}

/-- Once it is a maximum, it remains one. -/
theorem requestAfter_of_sle (hret : (e.maxGet 0).1 = 0) (hsle : (e.maxGet 0).2.sle pcapNew)
    (i : Nat) :
    ∃ j < i + 1, (e.maxGet j).1 = 0 ∧ e.requestAfter pcapNew (i + 1) = (e.maxGet j).2 := by
  induction i with
  | zero =>
      refine ⟨0, Nat.one_pos, hret, ?_⟩
      show e.lower 0 pcapNew = (e.maxGet 0).2
      unfold lower
      split
      · rfl
      · next h =>
          have hnot : ¬ (e.maxGet 0).2.slt pcapNew := fun hslt => h ⟨hret, hslt⟩
          rw [BitVec.slt_iff_toInt_lt] at hnot
          rw [BitVec.sle_iff_toInt_le] at hsle
          exact BitVec.eq_of_toInt_eq (by omega)
  | succ i ih =>
      rcases e.lower_cases (i + 1) (e.requestAfter pcapNew (i + 1)) with h | ⟨hret', h⟩
      · obtain ⟨j, hj, hmax⟩ := ih
        exact ⟨j, by omega, hmax.1, h.trans hmax.2⟩
      · exact ⟨i + 1, Nat.lt_succ_self _, hret', h⟩

end Esmi

/-! ### Each function -/

/-- **The EPYC function** hands over the product, or a maximum it was told, just in its
range. -/
theorem amdCpu_exact_iff (e : Esmi) (n : Nat) (request : BitVec 32) :
    (∀ w ∈ (Backend.call request (.amdCpu e n)).2,
        w.2.Is (request.toInt * 1000) ∨ (Backend.amdCpu e n).Lowers w) ↔
      ((Backend.amdCpu e n).Reaches → (Backend.amdCpu e n).InRange request) := by
  obtain ⟨m, hm, hpos, hlog⟩ := Esmi.capSockets_log e (request * 1000) false 0 n []
  -- what each socket is handed is the request as the sockets up to it have lowered it
  have hcall : (Backend.call request (.amdCpu e n)).2 = (List.range m).map fun i =>
      (i, Handed.number (e.requestAfter (request * 1000) (i + 1)).toNat) := by
    show ((amdCpuEpycSetSocketPowerLimit e n request).2).map _ = _
    rw [amdCpuEpycSetSocketPowerLimit, List.range_eq_range', List.range_eq_range']
    show ((e.capSockets false (List.range' 0 n) (e.requestAfter (request * 1000) 0) []).2).map _ = _
    rw [hlog, List.nil_append, List.map_map]
    rfl
  have hexact : HoldsGpuLimit 1000 request (request * 1000).toNat ↔
      0 ≤ request.toInt ∧ request.toInt * 1000 < 2 ^ 32 :=
    holdsGpuLimit_mul_iff (by decide) (by decide) request
  rw [hcall]
  simp only [List.forall_mem_map, List.mem_range]
  constructor
  · intro h hn
    -- the first socket lowers the request, or is handed it as it stands
    by_cases hlow : (e.maxGet 0).1 = 0 ∧ (e.maxGet 0).2.slt (request * 1000)
    · refine .inr ⟨hlow.1, ?_⟩
      have hslt := hlow.2
      rw [BitVec.slt_iff_toInt_lt] at hslt
      rw [BitVec.sle_iff_toInt_le]
      exact hslt.le
    · have hkept : e.requestAfter (request * 1000) 1 = request * 1000 := if_neg hlow
      have h0 := h 0 (hpos hn)
      rw [hkept] at h0
      rcases h0 with his | ⟨j, hj, hret, hmax⟩
      · exact .inl (hexact.mp his)
      · obtain rfl : j = 0 := Nat.le_zero.mp hj
        refine .inr ⟨hret, ?_⟩
        rw [← BitVec.eq_of_toNat_eq (Handed.number.inj hmax), BitVec.sle_iff_toInt_le]
  · intro h i hi
    rcases h (show 0 < n by omega) with hrange | ⟨hret, hsle⟩
    -- no socket lowers it, or one does and its maximum is what the later ones are handed
    · rcases e.requestAfter_cases (request * 1000) (i + 1) with hkept | ⟨j, hj, hret, hmax⟩
      · left
        rw [hkept]
        exact hexact.mpr hrange
      · exact .inr ⟨j, Nat.le_of_lt_succ hj, hret, by rw [hmax]⟩
    · obtain ⟨j, hj, hret', hmax⟩ := Esmi.requestAfter_of_sle hret hsle i
      exact .inr ⟨j, Nat.le_of_lt_succ hj, hret', by rw [hmax]⟩

/-- What a loop over sockets calls is empty if its blocks are. -/
theorem flatMap_blocks_ne_nil_iff {β : Type*} {l : List Nat} {first size : Nat → Nat}
    {f : Nat → Nat → β} :
    (l.flatMap fun s => (List.range' (first s) (size s)).map (f s)) ≠ [] ↔
      ∃ s ∈ l, 0 < size s := by
  simp [List.flatMap_eq_nil_iff, Nat.pos_iff_ne_zero]

/-- **The NVIDIA function** hands over the product just in its range. -/
theorem nvidia_exact_iff (node : NvmlNode) (st : GpuState Nat) (request : BitVec 32) :
    (∀ w ∈ (Backend.call request (.nvidia node st)).2,
        w.2.Is (request.toInt * 1000) ∨ (Backend.nvidia node st).Lowers w) ↔
      ((Backend.nvidia node st).Reaches → (Backend.nvidia node st).InRange request) := by
  have hexact : HoldsGpuLimit 1000 request (request * 1000).toNat ↔
      0 ≤ request.toInt ∧ request.toInt * 1000 < 2 ^ 32 :=
    holdsGpuLimit_mul_iff (by decide) (by decide) request
  have hval : ∀ w ∈ voltaSetCalls node request, w.2 = (request * 1000).toNat := by
    intro w hw
    obtain ⟨s, -, hs⟩ := List.mem_flatMap.mp hw
    obtain ⟨d, -, rfl⟩ := List.mem_map.mp hs
    rfl
  have hreach : voltaSetCalls node request ≠ [] ↔ 0 < node.gpusPerSocket := by
    refine flatMap_blocks_ne_nil_iff.trans ⟨fun ⟨_, _, h⟩ => h, fun h => ⟨0, ?_, h⟩⟩
    exact List.mem_range.mpr node.topo.nsockets_pos
  exact (exact_iff_of_const hval hreach).trans (imp_congr_right fun _ => hexact)

/-- **The AMD function** hands over the product just in its range. -/
theorem amdGpu_exact_iff (node : RsmiNode) (st : GpuState (Nat × RsmiCall))
    (request : BitVec 32) :
    (∀ w ∈ (Backend.call request (.amdGpu node st)).2,
        w.2.Is (request.toInt * 1000000) ∨ (Backend.amdGpu node st).Lowers w) ↔
      ((Backend.amdGpu node st).Reaches → (Backend.amdGpu node st).InRange request) := by
  have hexact : HoldsGpuLimit 1000000 request (request * 1000000).toNat ↔
      0 ≤ request.toInt ∧ request.toInt * 1000000 < 2 ^ 32 :=
    holdsGpuLimit_mul_iff (by decide) (by decide) request
  have hval : ∀ w ∈ instinctSetCalls node request, w.2 = (request * 1000000).toNat := by
    intro w hw
    obtain ⟨s, -, hs⟩ := List.mem_flatMap.mp hw
    obtain ⟨d, -, rfl⟩ := List.mem_map.mp hs
    rfl
  have hreach : instinctSetCalls node request ≠ [] ↔
      ∃ s < node.topo.nsockets, node.comesTo s = true ∧ 0 < node.gpusPerSocket s := by
    refine flatMap_blocks_ne_nil_iff.trans (exists_congr fun s => ?_)
    rw [List.mem_filter, List.mem_range, and_assoc]
  exact (exact_iff_of_const hval hreach).trans (imp_congr_right fun _ => hexact)

/-! ### The ARM functions -/

namespace CpufreqNode

variable (node : CpufreqNode) (newFreq : BitVec 32)

/-- What one policy adds to what is written. -/
theorem capPolicies_cons (i : Nat) (rest : List Nat) :
    ∃ after, after ⊆ (node.capPolicies newFreq rest).2 ∧
      (node.capPolicies newFreq (i :: rest)).2
        = if 0 < (node.policy i).fd then
            (i, decimal ((newFreq * 1000).signExtend 64).toNat) :: after
          else [] := by
  rcases lt_trichotomy (node.policy i).fd 0 with hfd | hfd | hfd
  · refine ⟨[], List.nil_subset _, ?_⟩
    simp [capPolicies, writeFileUi64, hfd, hfd.ne, hfd.le]
  · refine ⟨[], List.nil_subset _, ?_⟩
    simp [capPolicies, hfd]
  · by_cases hwritten : (node.policy i).written ≤ 0
    · refine ⟨[], List.nil_subset _, ?_⟩
      simp [capPolicies, writeFileUi64, hfd, hfd.ne', hfd.asymm, hwritten]
    · refine ⟨_, List.Subset.refl _, ?_⟩
      have hne : (node.policy i).written ≠ 0 := fun h => hwritten h.le
      simp [capPolicies, writeFileUi64, hfd, hfd.ne', hfd.asymm, hwritten, hne]

/-- Each file that is written is written the same text. -/
theorem capPolicies_text (is : List Nat) :
    ∀ w ∈ (node.capPolicies newFreq is).2,
      w.2 = decimal ((newFreq * 1000).signExtend 64).toNat := by
  induction is with
  | nil => exact fun w hw => absurd hw List.not_mem_nil
  | cons i rest ih =>
      obtain ⟨after, hafter, hcons⟩ := node.capPolicies_cons newFreq i rest
      intro w hw
      rw [hcons] at hw
      split at hw
      · rcases List.mem_cons.mp hw with rfl | hw
        · rfl
        · exact ih w (hafter hw)
      · exact absurd hw List.not_mem_nil

/-- Something is written if the first file is opened. -/
theorem capPolicies_ne_nil_iff (i : Nat) (rest : List Nat) :
    (node.capPolicies newFreq (i :: rest)).2 ≠ [] ↔ 0 < (node.policy i).fd := by
  obtain ⟨after, -, hcons⟩ := node.capPolicies_cons newFreq i rest
  rw [hcons]
  split
  · next h => exact iff_of_true (List.cons_ne_nil _ _) h
  · next h => exact iff_of_false (not_not.mpr rfl) h

end CpufreqNode

/-- A call for a socket that is not one of the node writes nothing. -/
theorem capSocket_exact_iff {node : CpufreqNode} {cpuid request : BitVec 32}
    {calls : List (Nat × List Char)} (i : Nat) (rest : List Nat)
    (hcalls : calls = if node.HasSocket cpuid then (node.capPolicies request (i :: rest)).2
      else []) :
    (∀ w ∈ calls.map fun w => (w.1, Handed.text w.2), w.2.Is (request.toInt * 1000) ∨ False) ↔
      (node.HasSocket cpuid ∧ 0 < (node.policy i).fd →
        0 ≤ request.toInt ∧ request.toInt * 1000 < 2 ^ 31) := by
  have hval : ∀ w ∈ calls, w.2 = decimal ((request * 1000).signExtend 64).toNat := by
    rw [hcalls]
    split
    · exact node.capPolicies_text request (i :: rest)
    · exact fun w hw => absurd hw List.not_mem_nil
  have hreach : calls ≠ [] ↔ node.HasSocket cpuid ∧ 0 < (node.policy i).fd := by
    rw [hcalls]
    split
    · next h => rw [and_iff_right h, node.capPolicies_ne_nil_iff]
    · next h => exact iff_of_false (not_not.mpr rfl) fun hs => h hs.1
  exact (exact_iff_of_const hval hreach).trans (imp_congr_right fun _ => text_is_iff request)

/-- **The function of the Juno r2.** -/
theorem junoR2_exact_iff (node : CpufreqNode) (cpuid request : BitVec 32) :
    (∀ w ∈ (Backend.call request (.junoR2 node cpuid)).2,
        w.2.Is (request.toInt * 1000) ∨ (Backend.junoR2 node cpuid).Lowers w) ↔
      ((Backend.junoR2 node cpuid).Reaches → (Backend.junoR2 node cpuid).InRange request) := by
  refine capSocket_exact_iff cpuid.toNat [] ?_
  show (armJunoR2CapSocketFrequency node cpuid request).2 = _
  unfold armJunoR2CapSocketFrequency
  split <;> rfl

/-- **The function of the Neoverse N1.** -/
theorem neoverseN1_exact_iff (node : CpufreqNode) (cpuid request : BitVec 32) :
    (∀ w ∈ (Backend.call request (.neoverseN1 node cpuid)).2,
        w.2.Is (request.toInt * 1000) ∨ (Backend.neoverseN1 node cpuid).Lowers w) ↔
      ((Backend.neoverseN1 node cpuid).Reaches →
        (Backend.neoverseN1 node cpuid).InRange request) := by
  refine capSocket_exact_iff 0 (List.range' 1 79) ?_
  show (armNeoverseN1CapSocketFrequency node cpuid request).2 = _
  unfold armNeoverseN1CapSocketFrequency
  split <;> rfl

/-! ### All of them -/

/-- **What is handed over is the product of request and unit** exactly for the requests
whose scaling does not overflow, on each of the four backends.  On an AMD CPU a socket
may also be handed a maximum that it, or one before it, has reported.  The calls
compared are those that the function of the backend performs, which is the second part. -/
theorem scaling_iff (request : BitVec 32) (b : Backend) :
    (b.Scales request ↔ (b.Reaches → b.InRange request)) ∧ b.Performs request := by
  refine ⟨?_, b.performs request⟩
  have hreject : b.Scales request ↔
      ∀ w ∈ (b.call request).2, w.2.Is (request.toInt * b.factor) ∨ b.Lowers w := by
    refine or_iff_left_of_imp fun h w hw => ?_
    rw [h.2] at hw
    exact absurd hw List.not_mem_nil
  rw [hreject]
  cases b with
  | amdCpu e n => exact amdCpu_exact_iff e n request
  | amdGpu node st => exact amdGpu_exact_iff node st request
  | nvidia node st => exact nvidia_exact_iff node st request
  | junoR2 node cpuid => exact junoR2_exact_iff node cpuid request
  | neoverseN1 node cpuid => exact neoverseN1_exact_iff node cpuid request

/-- An EPYC socket with a maximum of 100 W takes 100 W for a request of 200 W, and the call
returns 0. -/
theorem scaling_lowers :
    ¬ Backend.ScalesExactly 200 (.amdCpu (scriptedEsmi fun _ => 100000).toEsmi 1) := by
  rintro (h | h)
  · have his : ((100000 : Nat) : Int) = 200000 := h (0, .number 100000) List.mem_cons_self
    exact absurd his (by decide)
  · exact h.1 rfl

end Variorum
