/-
Variorum/MonitorCsv.lean

The log that `var_monitor` writes from call to call.

A run is a list of calls with node objects of one shape; the flag for the header
is handed from one to the next.  The log is well-formed (`WellFormed`) when the
first call writes a header and no other does, and the header and what each call
adds are lines: one newline, at the end, and as many commas as the header has.

Every column brings its own comma or newline, so the commas and newlines of a
text are those behind its columns (`count_stops`) and those of the host name.
`csv_iff` says when the log is well-formed: the last column must be one that the
code takes for the last, and that is the memory of the last socket where no GPUs
are announced, and a GPU where there is at least one for each socket.
-/
import Variorum.MonitorAgree

namespace Variorum

open CString PowerJson
open Json (Object)

/-! ### Runs -/

/-- What a call of `parse_json_power_obj` is given. -/
structure PowerCall where
  hostname : List Char
  node : Object

/-- Calls one after the other, and what each writes. -/
def runMonitor (numSockets : Nat) : Bool → List PowerCall → Option (List Printed)
  | _, [] => some []
  | writeHeader, c :: cs => do
      let (printed, flag) ← parseJsonPowerObj numSockets writeHeader c.hostname c.node
      let rest ← runMonitor numSockets flag cs
      some (printed :: rest)

/-- The log file: header and line of each call, one after the other. -/
def logOf (out : List Printed) : List Char := out.flatMap fun printed =>
  printed.header ++ printed.values

/-- A text with one newline, at its end. -/
def IsLine (text : List Char) : Prop := ∃ body, text = body ++ ['\n'] ∧ '\n' ∉ body

/-- The header is written once, by the first call, and the header and what each call adds
are lines with the same number of fields. -/
def WellFormed (out : List Printed) : Prop :=
  ∃ header, IsLine header ∧
    out.map Printed.header = header :: List.replicate (out.length - 1) [] ∧
    ∀ printed ∈ out, IsLine printed.values ∧ printed.values.count ',' = header.count ','

/-- A call with a node object of a shape. -/
structure ShapedCall (sh : PowerShape) extends PowerCall where
  sample : PowerSample
  shaped : sh.Matches sample node

/-- Neither a comma nor a newline. -/
def Plain (text : List Char) : Prop := ∀ c ∈ text, c ≠ ',' ∧ c ≠ '\n'

instance (text : List Char) : Decidable (Plain text) :=
  List.decidableBAll (fun c => c ≠ ',' ∧ c ≠ '\n') text

namespace PowerShape

/-- The last column is one that brings the newline. -/
def Ends (sh : PowerShape) : Prop :=
  sh.gpusPerSocket < 0 ∧ sh.mem (sh.sockets - 1) = true ∨ 0 < sh.gpusPerSocket

end PowerShape

/-- The last column ends the line, the names of the hosts do not disturb it, and the
buffers hold the header and the lines. -/
structure CsvCondition {sh : PowerShape} (first : ShapedCall sh) (later : List (ShapedCall sh)) :
    Prop where
  ends : sh.Ends
  hostnames : ∀ c ∈ first :: later, Plain c.hostname
  header : Fit 100 500 (headerTexts (sh.columns first.sample))
  values : ∀ c ∈ first :: later,
    Fit 100 1000 (valueTexts c.hostname (timestampOf c.node) (sh.columns c.sample))

/-! ### Texts without commas and newlines -/

section Plain

variable {t t' : List Char}

theorem Plain.append (h : Plain t) (h' : Plain t') : Plain (t ++ t') := by
  intro c hc
  rcases List.mem_append.mp hc with hc | hc
  · exact h c hc
  · exact h' c hc

/-- What a number is printed with. -/
theorem plain_of_number (h : ∀ c ∈ t, c.isDigit = true ∨ c = '-' ∨ c = '.') : Plain t := by
  intro c hc
  constructor
  · rintro rfl
    exact absurd (h _ hc) (by decide)
  · rintro rfl
    exact absurd (h _ hc) (by decide)

theorem plain_decimal (n : Nat) : Plain (decimal n) :=
  plain_of_number fun _ hc => .inl (isDigit_of_mem_decimal hc)

theorem plain_decimalInt (x : Int) : Plain (decimalInt x) :=
  plain_of_number fun _ hc => (of_mem_decimalInt hc).imp_right .inl

theorem plain_fixed (x : Rat) : Plain (fixed 2 x) :=
  plain_of_number fun _ hc => of_mem_fixed hc

theorem Plain.count_eq_zero {ch : Char} (h : Plain t) (hch : ch = ',' ∨ ch = '\n') :
    t.count ch = 0 := by
  rw [List.count_eq_zero]
  intro hmem
  rcases hch with rfl | rfl
  · exact (h _ hmem).1 rfl
  · exact (h _ hmem).2 rfl

end Plain

/-! ### Columns and what is behind them -/

section Columns

variable {cells : List Cell} {text : Cell → List Char} {ch : Char} {s : List Char}

/-- **The commas and newlines of columns** are those behind them. -/
theorem count_stops (htext : ∀ c ∈ cells, Plain (text c)) (hch : ch = ',' ∨ ch = '\n') :
    (cells.map fun c => text c ++ [c.stop]).flatten.count ch = (cells.map Cell.stop).count ch := by
  induction cells with
  | nil => rfl
  | cons c cells ih =>
      have hc := (htext c List.mem_cons_self).count_eq_zero hch
      have hcells := ih fun c' hc' => htext c' (List.mem_cons_of_mem c hc')
      rw [List.map_cons, List.flatten_cons, List.count_append, List.count_append, hc, hcells,
        zero_add]
      exact List.count_append.symm

/-- Columns the last of which brings the newline make a line. -/
theorem isLine_of_columns {last : Cell} (hs : '\n' ∉ s)
    (htext : ∀ c ∈ cells ++ [last], Plain (text c)) (hlast : last.stop = '\n')
    (hstop : ∀ c ∈ cells, c.stop ≠ '\n') :
    IsLine (s :: (cells ++ [last]).map fun c => text c ++ [c.stop]).flatten := by
  refine ⟨s ++ (cells.map fun c => text c ++ [c.stop]).flatten ++ text last, ?_, ?_⟩
  · rw [List.map_append, List.flatten_cons, List.flatten_append, List.map_singleton,
      List.flatten_singleton, hlast]
    simp only [List.append_assoc]
  · intro hmem
    rcases List.mem_append.mp hmem with hmem | hmem
    · rcases List.mem_append.mp hmem with hmem | hmem
      · exact hs hmem
      · obtain ⟨t, ht, hmem⟩ := List.mem_flatten.mp hmem
        obtain ⟨c, hc, rfl⟩ := List.mem_map.mp ht
        rcases List.mem_append.mp hmem with hmem | hmem
        · exact (htext c (List.mem_append_left _ hc) _ hmem).2 rfl
        · exact hstop c hc (List.mem_singleton.mp hmem).symm
    · exact (htext last (List.mem_append_right _ (List.mem_singleton_self _)) _ hmem).2 rfl

theorem IsLine.count_eq_one {t : List Char} (h : IsLine t) : t.count '\n' = 1 := by
  obtain ⟨body, rfl, hbody⟩ := h
  rw [List.count_append, List.count_eq_zero.mpr hbody]
  rfl

end Columns

/-! ### The columns of a shape -/

section Shape

variable {sh : PowerShape} {x y : PowerSample} {c : Cell} {i : Nat}

/-- The names of the columns, and what is behind them, do not depend on the values. -/
theorem PowerShape.labels_eq (sh : PowerShape) (x y : PowerSample) :
    (sh.columns x).map (fun c => (c.name, c.stop))
      = (sh.columns y).map fun c => (c.name, c.stop) := by
  simp only [PowerShape.columns, PowerShape.nodeColumn, PowerShape.socketColumns, List.map_append,
    List.map_flatMap, apply_ite (List.map _), List.map_cons, List.map_nil, List.map_map]
  rfl

theorem headerTexts_eq (x y : PowerSample) :
    headerTexts (sh.columns x) = headerTexts (sh.columns y) := by
  have h := congrArg (List.map fun p : List Char × Char => p.1 ++ [p.2]) (sh.labels_eq x y)
  rw [List.map_map, List.map_map] at h
  exact congrArg (headerStart :: ·) h

/-- A column of a socket is the one of its CPU, its memory or a device. -/
theorem socketColumns_cases (hc : c ∈ sh.socketColumns x i) :
    c = ⟨socketColumn i, x.cpu i, ','⟩ ∨
    sh.mem i = true ∧ c = ⟨memColumn i, x.mem i, memStop sh.sockets sh.gpusPerSocket i⟩ ∨
    0 < sh.gpusPerSocket ∧ ∃ d ∈ sh.devices i,
      c = ⟨gpuKey d ++ inWatts, x.gpu d, gpuStop (sh.gpusPerSocket * sh.sockets) (gpuKey d)⟩ := by
  have hite : ∀ {b : Prop} [Decidable b] {l : List Cell}, c ∈ (if b then l else []) →
      b ∧ c ∈ l := by
    intro b _ l h
    split at h
    · next hb => exact ⟨hb, h⟩
    · cases h
  rcases List.mem_append.mp hc with hc | hc
  · rcases List.mem_append.mp hc with hc | hc
    · exact .inl (List.mem_singleton.mp (hite hc).2)
    · exact .inr (.inl ⟨(hite hc).1, List.mem_singleton.mp (hite hc).2⟩)
  · obtain ⟨d, hd, rfl⟩ := List.mem_map.mp (hite hc).2
    exact .inr (.inr ⟨(hite hc).1, d, hd, rfl⟩)

/-- The names of the columns have no comma and no newline. -/
theorem plain_name (hc : c ∈ sh.columns x) : Plain c.name := by
  have hwatts : Plain inWatts := by decide
  have hsocket : Plain "Socket_".toList := by decide
  have hmem : Plain "Mem_".toList := by decide
  have hgpu : Plain "GPU_".toList := by decide
  rcases List.mem_append.mp hc with hc | hc
  · unfold PowerShape.nodeColumn at hc
    split at hc
    · obtain rfl := List.mem_singleton.mp hc
      show Plain "Node Power (W)".toList
      decide
    · cases hc
  · obtain ⟨i, -, hc⟩ := List.mem_flatMap.mp hc
    rcases socketColumns_cases hc with rfl | ⟨-, rfl⟩ | ⟨-, d, -, rfl⟩
    · exact (hsocket.append (plain_decimal i)).append hwatts
    · exact (hmem.append (plain_decimal i)).append hwatts
    · exact (hgpu.append (plain_decimalInt d)).append hwatts

theorem comma_ne_newline : ',' ≠ '\n' := by decide

theorem mem_devices {d : Int} (hg : 0 < sh.gpusPerSocket) (hd : d ∈ sh.devices i) :
    i * sh.gpusPerSocket ≤ d ∧ d < (i + 1) * sh.gpusPerSocket := by
  obtain ⟨j, hj, rfl⟩ := List.mem_map.mp hd
  have hlt := List.mem_range.mp hj
  rw [add_mul, one_mul]
  omega

/-- The name of the last device is that of one device only. -/
theorem gpuStop_eq_newline_iff {total d : Int} :
    gpuStop total (gpuKey d) = '\n' ↔ d = total - 1 := by
  unfold gpuStop
  by_cases h : gpuKey (total - 1) = gpuKey d
  · rw [if_pos h]
    exact iff_of_true rfl (gpuKey_injective h).symm
  · rw [if_neg h]
    refine iff_of_false (by decide) fun e => h ?_
    rw [e]

theorem memStop_eq_newline_iff {n : Nat} {g : Int} :
    memStop n g i = '\n' ↔ i + 1 = n ∧ g < 0 := by
  unfold memStop
  by_cases h : i + 1 = n ∧ g < 0
  · rw [if_pos h]
    exact iff_of_true rfl h
  · rw [if_neg h]
    exact iff_of_false (by decide) h

/-- Only in the last socket a column brings the newline, and only if the shape ends. -/
theorem last_of_newline (hi : i < sh.sockets) (hc : c ∈ sh.socketColumns x i)
    (hstop : c.stop = '\n') : i + 1 = sh.sockets ∧ sh.Ends := by
  rcases socketColumns_cases hc with rfl | ⟨hmem, rfl⟩ | ⟨hg, d, hd, rfl⟩
  · exact absurd hstop comma_ne_newline
  · obtain ⟨hlast, hneg⟩ := memStop_eq_newline_iff.mp hstop
    refine ⟨hlast, .inl ⟨hneg, ?_⟩⟩
    rw [← hlast]
    exact hmem
  · have hdev := gpuStop_eq_newline_iff.mp hstop
    have hlt := (mem_devices hg hd).2
    refine ⟨?_, .inr hg⟩
    -- the last device of all is not below the block of the last socket
    have hle : sh.gpusPerSocket * sh.sockets ≤ (i + 1) * sh.gpusPerSocket := by omega
    rw [mul_comm] at hle
    have hcast : (sh.sockets : Int) ≤ (i + 1 : Int) := le_of_mul_le_mul_right hle hg
    omega

theorem nodeColumn_stop (hc : c ∈ sh.nodeColumn x) : c.stop ≠ '\n' := by
  unfold PowerShape.nodeColumn at hc
  split at hc
  · obtain rfl := List.mem_singleton.mp hc
    exact comma_ne_newline
  · cases hc

/-- No newline comes with a shape that does not end. -/
theorem newline_not_mem_stops (h : ¬ sh.Ends) : ∀ c ∈ sh.columns x, c.stop ≠ '\n' := by
  intro c hc hstop
  rcases List.mem_append.mp hc with hc | hc
  · exact nodeColumn_stop hc hstop
  · obtain ⟨i, hi, hc⟩ := List.mem_flatMap.mp hc
    exact h (last_of_newline (List.mem_range.mp hi) hc hstop).2

/-- The columns of the last socket of a shape that ends. -/
theorem socketColumns_of_ends (h : sh.Ends) (hi : i + 1 = sh.sockets) (x : PowerSample) :
    ∃ init last, sh.socketColumns x i = init ++ [last] ∧ last.stop = '\n' ∧
      ∀ c ∈ init, c.stop ≠ '\n' := by
  -- a CPU column never ends the line: there is always something behind it
  have hcpu : ∀ c ∈ (if sh.cpu i then [(⟨socketColumn i, x.cpu i, ','⟩ : Cell)] else []),
      c.stop ≠ '\n' := by
    intro c hc
    split at hc
    · obtain rfl := List.mem_singleton.mp hc
      exact comma_ne_newline
    · cases hc
  unfold PowerShape.socketColumns
  rcases h with ⟨hneg, hmem⟩ | hg
  · -- the memory comes last
    rw [← hi, Nat.add_sub_cancel] at hmem
    rw [if_pos hmem, if_neg hneg.not_gt, List.append_nil]
    exact ⟨_, _, rfl, memStop_eq_newline_iff.mpr ⟨hi, hneg⟩, hcpu⟩
  · -- the last device does
    rw [if_pos hg, PowerShape.devices]
    obtain ⟨g, hgnat⟩ := Nat.exists_eq_succ_of_ne_zero (show sh.gpusPerSocket.toNat ≠ 0 by omega)
    have htotal : sh.gpusPerSocket * sh.sockets = i * sh.gpusPerSocket + sh.gpusPerSocket := by
      rw [← hi]
      push_cast
      ring
    rw [hgnat, List.range_succ, List.map_append, List.map_append, ← List.append_assoc]
    refine ⟨_, _, rfl, gpuStop_eq_newline_iff.mpr ?_, ?_⟩
    · show (i * sh.gpusPerSocket + (g : Int) : Int) = _
      omega
    · intro c hc hstop
      rcases List.mem_append.mp hc with hc | hc
      · rcases List.mem_append.mp hc with hc | hc
        · exact hcpu c hc hstop
        · split at hc
          · obtain rfl := List.mem_singleton.mp hc
            have hneg := (memStop_eq_newline_iff.mp hstop).2
            omega
          · cases hc
      · obtain ⟨d, hd, rfl⟩ := List.mem_map.mp hc
        obtain ⟨j, hj, rfl⟩ := List.mem_map.mp hd
        have hdev := gpuStop_eq_newline_iff.mp hstop
        have hlt := List.mem_range.mp hj
        omega

/-- **The last column of a shape that ends** brings the newline, and no other does. -/
theorem columns_of_ends (h : sh.Ends) (x : PowerSample) :
    ∃ init last, sh.columns x = init ++ [last] ∧ last.stop = '\n' ∧
      ∀ c ∈ init, c.stop ≠ '\n' := by
  obtain ⟨k, hk⟩ := Nat.exists_eq_succ_of_ne_zero sh.sockets_pos.ne'
  obtain ⟨init, last, hsplit, hlast, hinit⟩ := socketColumns_of_ends h hk.symm x
  refine ⟨sh.nodeColumn x ++ (List.range k).flatMap (sh.socketColumns x) ++ init, last, ?_,
    hlast, ?_⟩
  · rw [PowerShape.columns, hk, List.range_succ, List.flatMap_append, List.flatMap_singleton,
      hsplit]
    simp only [List.append_assoc]
  · intro c hc hstop
    rcases List.mem_append.mp hc with hc | hc
    · rcases List.mem_append.mp hc with hc | hc
      · exact nodeColumn_stop hc hstop
      · -- a socket before the last one brings no newline
        obtain ⟨i, hi, hc⟩ := List.mem_flatMap.mp hc
        have hlt := List.mem_range.mp hi
        have hlast := (last_of_newline (by omega) hc hstop).1
        omega
    · exact hinit c hc hstop

end Shape

/-! ### Lines and headers -/

namespace ShapedCall

variable {sh : PowerShape}

/-- The header, if this is the call that writes it. -/
def headerLine (c : ShapedCall sh) : List Char := (headerTexts (sh.columns c.sample)).flatten

/-- The line that a call prints, from the name of the host to the last column. -/
def line (c : ShapedCall sh) : List Char :=
  (valueTexts c.hostname (timestampOf c.node) (sh.columns c.sample)).flatten

/-- Its texts fit the buffers. -/
def Fits (c : ShapedCall sh) : Prop :=
  Fit 100 1000 (valueTexts c.hostname (timestampOf c.node) (sh.columns c.sample))

variable {c c' : ShapedCall sh} {ch : Char}

theorem headerLine_eq (c c' : ShapedCall sh) : c.headerLine = c'.headerLine :=
  congrArg List.flatten (headerTexts_eq c.sample c'.sample)

/-- **A line has the commas and newlines of the header** and those of its host name. -/
theorem count_line (c : ShapedCall sh) (hch : ch = ',' ∨ ch = '\n') :
    c.line.count ch = c.hostname.count ch + c.headerLine.count ch := by
  have hstart : headerStart.count ch = [',', ','].count ch := by
    rcases hch with rfl | rfl <;> decide
  have hline : (lineStart c.hostname (timestampOf c.node)).count ch
      = c.hostname.count ch + [',', ','].count ch := by
    have hnumber := (plain_decimalInt (timestampOf c.node)).count_eq_zero hch
    rw [lineStart, List.count_append, List.count_cons, List.count_append, hnumber, zero_add,
      List.count_cons (b := ',') (l := [','])]
  have htitles : ((sh.columns c.sample).map Cell.title).flatten.count ch = _ :=
    count_stops (fun _ hc => plain_name hc) hch
  have hvalues : ((sh.columns c.sample).map Cell.value).flatten.count ch = _ :=
    count_stops (fun _ _ => plain_fixed _) hch
  -- behind the start, title and value of a column end in the same character
  rw [line, valueTexts, List.flatten_cons, List.count_append, hline, hvalues, headerLine,
    headerTexts, List.flatten_cons, List.count_append, hstart, htitles, add_assoc]

/-- The header is a line exactly when the shape ends. -/
theorem isLine_headerLine_iff (c : ShapedCall sh) : IsLine c.headerLine ↔ sh.Ends := by
  constructor
  · intro h
    by_contra hends
    have hstops : ((sh.columns c.sample).map Cell.stop).count '\n' = 0 := by
      rw [List.count_eq_zero, List.mem_map]
      rintro ⟨cell, hcell, hstop⟩
      exact newline_not_mem_stops hends cell hcell hstop
    have htitles : ((sh.columns c.sample).map Cell.title).flatten.count '\n' = _ :=
      count_stops (fun _ hc => plain_name hc) (.inr rfl)
    have hone := h.count_eq_one
    rw [headerLine, headerTexts, List.flatten_cons, List.count_append, htitles, hstops] at hone
    exact absurd hone (by decide)
  · intro hends
    obtain ⟨init, last, hsplit, hlast, hinit⟩ := columns_of_ends hends c.sample
    rw [headerLine, headerTexts, hsplit]
    refine isLine_of_columns (by decide) (fun cell hcell => ?_) hlast hinit
    rw [← hsplit] at hcell
    exact plain_name hcell

/-- The line of a shape that ends is one when its host name does not break it. -/
theorem isLine_line (hends : sh.Ends) (c : ShapedCall sh) (h : Plain c.hostname) :
    IsLine c.line := by
  obtain ⟨init, last, hsplit, hlast, hinit⟩ := columns_of_ends hends c.sample
  rw [line, valueTexts, hsplit]
  refine isLine_of_columns (fun hmem => ?_) (fun cell _ => plain_fixed cell.watts) hlast hinit
  rcases List.mem_append.mp hmem with hmem | hmem
  · exact (h _ hmem).2 rfl
  · rcases List.mem_cons.mp hmem with hmem | hmem
    · exact comma_ne_newline hmem.symm
    · rcases List.mem_append.mp hmem with hmem | hmem
      · exact (plain_decimalInt _ _ hmem).2 rfl
      · exact comma_ne_newline (List.mem_singleton.mp hmem).symm

/-- What a call writes behind the header. -/
def later (c : ShapedCall sh) : Printed := ⟨[], c.line⟩

/-- What the first call writes. -/
def first (c : ShapedCall sh) : Printed := ⟨c.headerLine, c.line⟩

end ShapedCall

/-! ### What a run writes -/

section Run

variable {sh : PowerShape} {cs : List (ShapedCall sh)} {c : ShapedCall sh} {out : List Printed}

/-- The first call of a run, and the calls behind it, which do not write the header. -/
theorem runMonitor_cons_iff {writeHeader : Bool} :
    runMonitor sh.sockets writeHeader ((c :: cs).map ShapedCall.toPowerCall) = some out ↔
      (writeHeader = true → Fit 100 500 (headerTexts (sh.columns c.sample))) ∧ c.Fits ∧
        ∃ rest, runMonitor sh.sockets false (cs.map ShapedCall.toPowerCall) = some rest ∧
          out = ⟨if writeHeader then c.headerLine else [], c.line⟩ :: rest := by
  rw [List.map_cons, runMonitor, Option.bind_eq_bind, Option.bind_eq_some_iff]
  constructor
  · rintro ⟨⟨printed, flag⟩, hprinted, hrest⟩
    obtain ⟨rest, hrun, hout⟩ := Option.bind_eq_some_iff.mp hrest
    obtain ⟨hfitHeader, hfit, hheader, hvalues, rfl⟩ :=
      (parseJsonPowerObj_iff c.shaped).mp hprinted
    refine ⟨hfitHeader, hfit, rest, hrun, ?_⟩
    obtain ⟨header, values⟩ := printed
    obtain rfl : header = if writeHeader then c.headerLine else [] := hheader
    obtain rfl : values = c.line := hvalues
    exact (Option.some.inj hout).symm
  · rintro ⟨hfitHeader, hfit, rest, hrun, rfl⟩
    refine ⟨(⟨if writeHeader then c.headerLine else [], c.line⟩, false),
      (parseJsonPowerObj_iff c.shaped).mpr ⟨hfitHeader, hfit, rfl, rfl, rfl⟩, ?_⟩
    exact Option.bind_eq_some_iff.mpr ⟨rest, hrun, rfl⟩

/-- Without the header, one line a call. -/
theorem runMonitor_false_iff :
    runMonitor sh.sockets false (cs.map ShapedCall.toPowerCall) = some out ↔
      (∀ c ∈ cs, c.Fits) ∧ out = cs.map ShapedCall.later := by
  induction cs generalizing out with
  | nil =>
      rw [List.map_nil, runMonitor, Option.some.injEq]
      exact ⟨fun h => ⟨nofun, h.symm⟩, fun h => h.2.symm⟩
  | cons c cs ih =>
      rw [runMonitor_cons_iff, List.forall_mem_cons]
      constructor
      · rintro ⟨-, hfit, rest, hrun, rfl⟩
        obtain ⟨hfits, rfl⟩ := ih.mp hrun
        exact ⟨⟨hfit, hfits⟩, rfl⟩
      · rintro ⟨⟨hfit, hfits⟩, rfl⟩
        exact ⟨nofun, hfit, _, ih.mpr ⟨hfits, rfl⟩, rfl⟩

/-- **A run** writes the header and one line a call, if its texts fit the buffers. -/
theorem runMonitor_iff :
    runMonitor sh.sockets true ((c :: cs).map ShapedCall.toPowerCall) = some out ↔
      Fit 100 500 (headerTexts (sh.columns c.sample)) ∧ (∀ c' ∈ c :: cs, c'.Fits) ∧
        out = c.first :: cs.map ShapedCall.later := by
  rw [runMonitor_cons_iff, List.forall_mem_cons]
  constructor
  · rintro ⟨hheader, hfit, rest, hrun, rfl⟩
    obtain ⟨hfits, rfl⟩ := runMonitor_false_iff.mp hrun
    exact ⟨hheader rfl, ⟨hfit, hfits⟩, rfl⟩
  · rintro ⟨hheader, ⟨hfit, hfits⟩, rfl⟩
    exact ⟨fun _ => hheader, hfit, _, runMonitor_false_iff.mpr ⟨hfits, rfl⟩, rfl⟩

/-- **What a run writes is well-formed** exactly when its shape ends and the host names
have neither commas nor newlines. -/
theorem wellFormed_iff : WellFormed (c.first :: cs.map ShapedCall.later) ↔
    sh.Ends ∧ ∀ c' ∈ c :: cs, Plain c'.hostname := by
  have hlines : ∀ c' ∈ c :: cs, ∃ printed ∈ c.first :: cs.map ShapedCall.later,
      printed.values = c'.line := by
    intro c' hc'
    rcases List.mem_cons.mp hc' with rfl | hc'
    · exact ⟨_, List.mem_cons_self, rfl⟩
    · exact ⟨_, List.mem_cons_of_mem _ (List.mem_map_of_mem hc'), rfl⟩
  constructor
  · rintro ⟨header, hheader, hwritten, hlog⟩
    obtain rfl : c.headerLine = header := (List.cons.inj hwritten).1
    refine ⟨(c.isLine_headerLine_iff).mp hheader, fun c' hc' => ?_⟩
    obtain ⟨printed, hprinted, hvalues⟩ := hlines c' hc'
    obtain ⟨hline, hcommas⟩ := hlog printed hprinted
    rw [hvalues] at hline hcommas
    -- what the line has beyond the header is in the host name
    rw [c'.count_line (.inl rfl), c'.headerLine_eq c] at hcommas
    have hnewlines := @ShapedCall.count_line sh '\n' c' (.inr rfl)
    rw [hline.count_eq_one, c'.headerLine_eq c, hheader.count_eq_one] at hnewlines
    intro ch hch
    constructor
    · rintro rfl
      exact absurd (List.count_pos_iff.mpr hch) (by omega)
    · rintro rfl
      exact absurd (List.count_pos_iff.mpr hch) (by omega)
  · rintro ⟨hends, hnames⟩
    refine ⟨c.headerLine, (c.isLine_headerLine_iff).mpr hends, ?_, ?_⟩
    · rw [List.map_cons, List.map_map, List.length_cons, Nat.add_sub_cancel, List.length_map]
      exact congrArg _ List.map_const'
    · have hone : ∀ c' ∈ c :: cs, IsLine c'.line ∧ c'.line.count ',' = c.headerLine.count ',' := by
        intro c' hc'
        refine ⟨c'.isLine_line hends (hnames c' hc'), ?_⟩
        rw [c'.count_line (.inl rfl), (hnames c' hc').count_eq_zero (.inl rfl), zero_add,
          c'.headerLine_eq c]
      intro printed hprinted
      rcases List.mem_cons.mp hprinted with rfl | hprinted
      · exact hone c List.mem_cons_self
      · obtain ⟨c', hc', rfl⟩ := List.mem_map.mp hprinted
        exact hone c' (List.mem_cons_of_mem c hc')

/-- The file is the header and the lines. -/
theorem logOf_run (c : ShapedCall sh) (cs : List (ShapedCall sh)) :
    logOf (c.first :: cs.map ShapedCall.later)
      = (c.headerLine :: (c :: cs).map ShapedCall.line).flatten := by
  have hlater : logOf (cs.map ShapedCall.later) = (cs.map ShapedCall.line).flatten := by
    rw [logOf, List.flatMap_map]
    rfl
  rw [List.map_cons, List.flatten_cons, List.flatten_cons, ← hlater, ← List.append_assoc]
  rfl

end Run

/-- **The log is well-formed** exactly when the last column ends the line, the names of
the hosts do not disturb it, and the buffers hold the texts. -/
theorem csv_iff {sh : PowerShape} (first : ShapedCall sh) (later : List (ShapedCall sh)) :
    (∃ out, runMonitor sh.sockets true ((first :: later).map ShapedCall.toPowerCall) = some out ∧
      WellFormed out) ↔ CsvCondition first later := by
  constructor
  · rintro ⟨out, hrun, hwell⟩
    obtain ⟨hheader, hvalues, rfl⟩ := runMonitor_iff.mp hrun
    obtain ⟨hends, hnames⟩ := wellFormed_iff.mp hwell
    exact ⟨hends, hnames, hheader, hvalues⟩
  · rintro ⟨hends, hnames, hheader, hvalues⟩
    exact ⟨_, runMonitor_iff.mpr ⟨hheader, hvalues, rfl⟩, wellFormed_iff.mpr ⟨hends, hnames⟩⟩

/-- A Juno r2 with its two sockets. -/
def junoBoard : GpuNode := ⟨0, 2, Nat.two_pos, GpuNode.two_lt⟩

/-- The board in watts: 2 in all, 1 and a half for the CPUs. -/
def junoPower : PowerPlatform := .junoR2 ⟨2000000, 1000000, 500000, 250000⟩

/-- It has no power of the memory and no GPUs to announce: two calls write one text, in
which nothing ends. -/
theorem junoBoard_runs_together :
    ∃ node, junoPower.getPowerJson junoBoard (start 7) = some node ∧
      ∃ out, runMonitor 2 true [⟨"juno".toList, node⟩, ⟨"juno".toList, node⟩] = some out ∧
        logOf out = ("Hostname,Timestamp,Node Power (W),Socket_0 Power (W),Socket_1 Power (W)," ++
          "juno,7,2.00,1.00,0.50,juno,7,2.00,1.00,0.50,").toList ∧ ¬ WellFormed out := by
  have hsome : (junoPower.getPowerJson junoBoard (start 7)).isSome :=
    getPowerJson_isSome_iff.mpr (show 2 ≤ 2 from le_rfl)
  obtain ⟨node, hnode⟩ := Option.isSome_iff_exists.mp hsome
  have hdelivers := delivers_of_getPowerJson hnode (show 2 ≤ 10000 by decide)
  let call : ShapedCall (junoPower.shape junoBoard) := ⟨⟨"juno".toList, node⟩, _, hdelivers.shape⟩
  have hheader : headerTexts ((junoPower.shape junoBoard).columns (junoPower.sample junoBoard))
      = ["Hostname,Timestamp,".toList, "Node Power (W),".toList, "Socket_0 Power (W),".toList,
        "Socket_1 Power (W),".toList] := by
    decide +kernel
  have hvalues : valueTexts "juno".toList (timestampOf node)
      ((junoPower.shape junoBoard).columns (junoPower.sample junoBoard))
      = ["juno,7,".toList, "2.00,".toList, "1.00,".toList, "0.50,".toList] := by
    rw [hdelivers.timestamp]
    decide +kernel
  have hfits : call.Fits := by
    show Fit 100 1000 (valueTexts "juno".toList (timestampOf node) _)
    rw [hvalues]
    decide
  have hrun : runMonitor (junoPower.shape junoBoard).sockets true
      ((call :: [call]).map ShapedCall.toPowerCall)
      = some (call.first :: [call].map ShapedCall.later) := by
    refine runMonitor_iff.mpr ⟨?_, fun c hc => ?_, rfl⟩
    · rw [hheader]
      decide
    · rcases List.mem_cons.mp hc with rfl | hc
      · exact hfits
      · obtain rfl := List.mem_singleton.mp hc
        exact hfits
  refine ⟨node, hnode, _, hrun, ?_, ?_⟩
  · have hline : call.line = _ := congrArg List.flatten hvalues
    have hheaderLine : call.headerLine = _ := congrArg List.flatten hheader
    rw [logOf_run, hheaderLine, List.map_cons, List.map_singleton, hline]
    decide
  · intro h
    rcases (wellFormed_iff.mp h).1 with ⟨-, hmem⟩ | hpos
    · cases hmem
    · exact absurd hpos (by decide)

end Variorum
