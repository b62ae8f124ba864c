/-
Variorum/MonitorBuffers.lean

The buffers of `parse_json_power_obj`, statement by statement.

The function prints a column into a buffer of 100, and puts it from there behind
the header, of 500, or the line, of 1000; nothing looks at what is left.
`parsePowerBufs` checks every write, and tells an overflow from the end of the
process where an object is missing.  What the function comes to of a node object
are its `reached` columns, and `bufs_iff` says of any node object when they fit:
the lengths of the name of the host, of the time, of the columns' names and of
the readings as they are printed have to stay within those of the buffers.

For the node objects of a shape the header is a matter of their numbers of
sockets and devices (`headerLength`, `bufs_iff_of_matches`).
-/
import Mathlib.Algebra.BigOperators.Group.Finset.Basic
import Variorum.MonitorAgree

namespace Variorum

open CString PowerJson
open Json (Object)

/-! ### The function -/

/-- How a call ends early: a write beyond a buffer, or the end of the process. -/
inductive Stop
  | overflow
  | exits
  deriving DecidableEq

/-- `header_str` and `value_str`. -/
structure Bufs where
  header : List Char
  values : List Char

/-- A string in a buffer. -/
def putText (size : Nat) (text : List Char) : Except Stop (List Char) :=
  if text.length < size then .ok text else .error .overflow

/-- What the process ends without. -/
def found {α : Type} : Option α → Except Stop α
  | none => .error .exits
  | some a => .ok a

/-- The name of a column: by `temp_value_str` behind the header, if that is to be written. -/
def appendTitle (writeHeader : Bool) (bufs : Bufs) (title : List Char) :
    Except Stop (List Char) :=
  if writeHeader then (putText 100 title).bind fun temp => putText 500 (bufs.header ++ temp)
  else .ok bufs.header

/-- Its value: by `temp_value_str` behind the line. -/
def appendValue (bufs : Bufs) (header value : List Char) : Except Stop Bufs :=
  (putText 100 value).bind fun temp =>
    (putText 1000 (bufs.values ++ temp)).bind fun values => .ok ⟨header, values⟩

/-- A column: its name behind the header if that is asked for, and its value behind the
line. -/
def appendCell (writeHeader : Bool) (bufs : Bufs) (c : Cell) : Except Stop Bufs :=
  (appendTitle writeHeader bufs c.title).bind fun header => appendValue bufs header c.value

/-- The column of the node, whose name goes behind the header at once. -/
def appendNode (writeHeader : Bool) (bufs : Bufs) (node : Object) : Except Stop Bufs :=
  match Fields.get powerNodeWatts node with
  | none => .ok bufs
  | some value =>
      (if writeHeader then putText 500 (bufs.header ++ "Node Power (W),".toList)
        else .ok bufs.header).bind fun header =>
          appendValue bufs header (fixed 2 (Json.realValue (some value)) ++ [','])

/-- The body of the loop over the devices, with `last_gpu_str`. -/
def appendGpu (numSockets : Nat) (numGpus : Int) (writeHeader : Bool) (bufs : Bufs) (c : Cell) :
    Except Stop Bufs := do
  let _ ← putText 32 (gpuKey (numGpus * numSockets - 1))
  appendCell writeHeader bufs c

/-- The body of the loop over the sockets, with `socketID`. -/
def appendSocket (numSockets : Nat) (numGpus : Int) (writeHeader : Bool) (node : Object)
    (bufs : Bufs) (i : Nat) : Except Stop Bufs := do
  let socketID ← putText 20 (snprintf 20 (socketKey i))
  let socketObj ← found (Fields.get socketID node)
  let bufs ← (cpuCells socketObj i ++ memCells socketObj numSockets numGpus i).foldlM
    (appendCell writeHeader) bufs
  if numGpus > 0 then
    let gpuObj ← found (socketObj.get powerGpuWatts)
    let cells ← found (gpuCells gpuObj numSockets numGpus)
    cells.foldlM (appendGpu numSockets numGpus writeHeader) bufs
  else return bufs

/-- `strcpy(header_str, "Hostname,Timestamp,")`, if the header is to be written. -/
def startHeader (writeHeader : Bool) : Except Stop (List Char) :=
  if writeHeader then putText 500 headerStart else .ok []

/-- `parse_json_power_obj`, up to the log. -/
def parsePowerBufs (numSockets : Nat) (writeHeader : Bool) (hostname : List Char)
    (node : Object) : Except Stop Bufs := do
  let header ← startHeader writeHeader
  let temp ← putText 100 (lineStart hostname (timestampOf node))
  let values ← putText 1000 temp
  let bufs ← appendNode writeHeader ⟨header, values⟩ node
  (List.range numSockets).foldlM (appendSocket numSockets (numGpus node) writeHeader node) bufs

/-- No write goes beyond a buffer. -/
def BufsSuffice (numSockets : Nat) (writeHeader : Bool) (hostname : List Char) (node : Object) :
    Prop := parsePowerBufs numSockets writeHeader hostname node ≠ .error .overflow

/-! ### What the function comes to -/

/-- The columns of a socket, and whether the function goes on behind them. -/
def reachedSocket (node : Object) (numSockets : Nat) (numGpus : Int) (i : Nat) :
    List Cell × Bool :=
  match Fields.get (snprintf 20 (socketKey i)) node with
  | none => ([], false)
  | some socketObj =>
      let cells := cpuCells socketObj i ++ memCells socketObj numSockets numGpus i
      if numGpus > 0 then
        match (socketObj.get powerGpuWatts).bind (gpuCells · numSockets numGpus) with
        | none => (cells, false)
        | some gpus => (cells ++ gpus, true)
      else (cells, true)

/-- Those of one socket after the other. -/
def reachedSockets (node : Object) (numSockets : Nat) (numGpus : Int) :
    List Nat → List Cell × Bool
  | [] => ([], true)
  | i :: l =>
      let here := reachedSocket node numSockets numGpus i
      if here.2 then
        let rest := reachedSockets node numSockets numGpus l
        (here.1 ++ rest.1, rest.2)
      else here

/-- The columns that the function comes to. -/
def reached (node : Object) (numSockets : Nat) : List Cell :=
  nodeCells node ++ (reachedSockets node numSockets (numGpus node) (List.range numSockets)).1

/-- The characters that a reading takes, with the one behind it. -/
def Cell.width (c : Cell) : Nat := (fixed 2 c.watts).length + 1

/-- Those of the name of the host and the time stamp. -/
def startWidth (hostname : List Char) (timestamp : Int) : Nat :=
  hostname.length + (decimalInt timestamp).length + 2

/-- The lengths that the buffers have room for. -/
structure RoomFor (writeHeader : Bool) (hostname : List Char) (timestamp : Int)
    (cells : List Cell) : Prop where
  start : startWidth hostname timestamp < 100
  readings : ∀ c ∈ cells, c.width < 100
  line : startWidth hostname timestamp + (cells.map Cell.width).sum < 1000
  names : writeHeader = true → ∀ c ∈ cells, c.name.length + 1 < 100
  header : writeHeader = true → 19 + (cells.map fun c => c.name.length + 1).sum < 500

/-! ### Columns one after the other -/

section Cells

variable {writeHeader : Bool} {bufs : Bufs} {c : Cell} {cells : List Cell}

/-- The buffers behind a column. -/
def Bufs.add (writeHeader : Bool) (bufs : Bufs) (c : Cell) : Bufs :=
  ⟨if writeHeader then bufs.header ++ c.title else bufs.header, bufs.values ++ c.value⟩

/-- A column that fits: its texts in their own buffers, and then in those of the lines. -/
structure CellFits (writeHeader : Bool) (bufs : Bufs) (c : Cell) : Prop where
  title : writeHeader = true → c.title.length < 100 ∧ (bufs.header ++ c.title).length < 500
  value : c.value.length < 100
  values : (bufs.values ++ c.value).length < 1000

/-- Columns that fit one after the other. -/
def Fits (writeHeader : Bool) : Bufs → List Cell → Prop
  | _, [] => True
  | bufs, c :: cells =>
      CellFits writeHeader bufs c ∧ Fits writeHeader (bufs.add writeHeader c) cells

/-- What a part of the function does that comes to these columns, and goes on behind them or
not. -/
structure AppendsCells (writeHeader : Bool) (bufs : Bufs) (r : List Cell × Bool)
    (result : Except Stop Bufs) : Prop where
  fits : Fits writeHeader bufs r.1 →
    result = if r.2 then .ok (r.1.foldl (Bufs.add writeHeader) bufs) else .error .exits
  overflows : ¬ Fits writeHeader bufs r.1 → result = .error .overflow

theorem putText_of_lt {size : Nat} {text : List Char} (h : text.length < size) :
    putText size text = .ok text := if_pos h

theorem putText_of_not_lt {size : Nat} {text : List Char} (h : ¬ text.length < size) :
    putText size text = .error .overflow := if_neg h

theorem fits_append {cells' : List Cell} :
    Fits writeHeader bufs (cells ++ cells') ↔ Fits writeHeader bufs cells ∧
      Fits writeHeader (cells.foldl (Bufs.add writeHeader) bufs) cells' := by
  induction cells generalizing bufs with
  | nil => exact (and_iff_right trivial).symm
  | cons c cells ih =>
      rw [List.cons_append, Fits, Fits, ih, List.foldl_cons, and_assoc]

/-- **Two parts**, one behind the other. -/
theorem AppendsCells.bind {r : List Cell × Bool} {x : Except Stop Bufs}
    {f : Bufs → Except Stop Bufs} (h : AppendsCells writeHeader bufs (cells, true) x)
    (hf : ∀ bufs, AppendsCells writeHeader bufs r (f bufs)) :
    AppendsCells writeHeader bufs (cells ++ r.1, r.2) (x >>= f) := by
  constructor
  · intro hfits
    obtain ⟨hcells, hrest⟩ := fits_append.mp hfits
    rw [h.fits hcells, List.foldl_append]
    exact (hf _).fits hrest
  · intro hfits
    by_cases hcells : Fits writeHeader bufs cells
    · rw [h.fits hcells]
      exact (hf _).overflows fun hrest => hfits (fits_append.mpr ⟨hcells, hrest⟩)
    · rw [h.overflows hcells]
      rfl

/-- Nothing follows what does not go on. -/
theorem AppendsCells.bind_stop {x : Except Stop Bufs} {f : Bufs → Except Stop Bufs}
    (h : AppendsCells writeHeader bufs (cells, false) x) :
    AppendsCells writeHeader bufs (cells, false) (x >>= f) := by
  constructor
  · intro hfits
    rw [h.fits hfits]
    rfl
  · intro hfits
    rw [h.overflows hfits]
    rfl

theorem AppendsCells.nothing (writeHeader : Bool) (bufs : Bufs) :
    AppendsCells writeHeader bufs ([], true) (.ok bufs) := ⟨fun _ => rfl, fun h => absurd trivial h⟩

theorem AppendsCells.stop (writeHeader : Bool) (bufs : Bufs) :
    AppendsCells writeHeader bufs ([], false) (.error .exits) :=
  ⟨fun _ => rfl, fun h => absurd trivial h⟩

theorem appendTitle_of_fits {title : List Char}
    (h : writeHeader = true → title.length < 100 ∧ (bufs.header ++ title).length < 500) :
    appendTitle writeHeader bufs title
      = .ok (if writeHeader then bufs.header ++ title else bufs.header) := by
  cases writeHeader with
  | false => rfl
  | true =>
      obtain ⟨htitle, hheader⟩ := h rfl
      rw [appendTitle, if_pos rfl, putText_of_lt htitle]
      exact putText_of_lt hheader

theorem appendTitle_of_not {title : List Char}
    (h : ¬ (writeHeader = true → title.length < 100 ∧ (bufs.header ++ title).length < 500)) :
    appendTitle writeHeader bufs title = .error .overflow := by
  obtain ⟨rfl, hlen⟩ := Classical.not_imp.mp h
  rw [appendTitle, if_pos rfl]
  by_cases htitle : title.length < 100
  · rw [putText_of_lt htitle]
    exact putText_of_not_lt fun hheader => hlen ⟨htitle, hheader⟩
  · rw [putText_of_not_lt htitle]
    rfl

theorem appendValue_of_fits {value : List Char} (hvalue : value.length < 100)
    (hvalues : (bufs.values ++ value).length < 1000) (header : List Char) :
    appendValue bufs header value = .ok ⟨header, bufs.values ++ value⟩ := by
  rw [appendValue, putText_of_lt hvalue]
  show (putText 1000 (bufs.values ++ value)).bind _ = _
  rw [putText_of_lt hvalues]
  rfl

theorem appendValue_of_not {value : List Char}
    (h : ¬ (value.length < 100 ∧ (bufs.values ++ value).length < 1000)) (header : List Char) :
    appendValue bufs header value = .error .overflow := by
  rw [appendValue]
  by_cases hvalue : value.length < 100
  · rw [putText_of_lt hvalue]
    show (putText 1000 (bufs.values ++ value)).bind _ = _
    rw [putText_of_not_lt fun hvalues => h ⟨hvalue, hvalues⟩]
    rfl
  · rw [putText_of_not_lt hvalue]
    rfl

/-- A column, its name put behind the header in whatever way. -/
theorem does_column {title : Except Stop (List Char)}
    (hfits : (writeHeader = true → c.title.length < 100 ∧ (bufs.header ++ c.title).length < 500) →
      title = .ok (if writeHeader then bufs.header ++ c.title else bufs.header))
    (hnot : ¬ (writeHeader = true → c.title.length < 100 ∧
      (bufs.header ++ c.title).length < 500) → title = .error .overflow) :
    AppendsCells writeHeader bufs ([c], true)
      (title.bind fun header => appendValue bufs header c.value) := by
  constructor
  · rintro ⟨hcell, -⟩
    rw [hfits hcell.title]
    exact appendValue_of_fits hcell.value hcell.values _
  · intro hnotFits
    by_cases htitle : writeHeader = true → c.title.length < 100 ∧
        (bufs.header ++ c.title).length < 500
    · rw [hfits htitle]
      exact appendValue_of_not (fun hvalue => hnotFits ⟨⟨htitle, hvalue.1, hvalue.2⟩, trivial⟩) _
    · rw [hnot htitle]
      rfl

/-- **A column** is appended where it fits, and overruns a buffer where it does not. -/
theorem appendCell_does (writeHeader : Bool) (bufs : Bufs) (c : Cell) :
    AppendsCells writeHeader bufs ([c], true) (appendCell writeHeader bufs c) :=
  does_column appendTitle_of_fits appendTitle_of_not

/-- The column of the node: its name fits the buffer that it does not go by. -/
theorem appendNode_does (writeHeader : Bool) (bufs : Bufs) (node : Object) :
    AppendsCells writeHeader bufs (nodeCells node, true) (appendNode writeHeader bufs node) := by
  rw [appendNode, nodeCells]
  cases Fields.get powerNodeWatts node with
  | none => exact AppendsCells.nothing writeHeader bufs
  | some value =>
      refine @does_column writeHeader bufs
        ⟨"Node Power (W)".toList, Json.realValue (some value), ','⟩ _ (fun h => ?_) fun h => ?_
      · cases writeHeader with
        | false => rfl
        | true => exact putText_of_lt (h rfl).2
      · obtain ⟨rfl, hlen⟩ := Classical.not_imp.mp h
        have hshort : Cell.title ⟨"Node Power (W)".toList, Json.realValue (some value), ','⟩
            = "Node Power (W),".toList := rfl
        rw [hshort] at hlen
        exact putText_of_not_lt fun hheader => hlen ⟨by decide, hheader⟩

/-- **A list of columns**, each put in its place alike. -/
theorem foldlM_does {f : Bufs → Cell → Except Stop Bufs}
    (hf : ∀ bufs, ∀ c ∈ cells, AppendsCells writeHeader bufs ([c], true) (f bufs c)) (bufs : Bufs) :
    AppendsCells writeHeader bufs (cells, true) (cells.foldlM f bufs) := by
  induction cells generalizing bufs with
  | nil => exact AppendsCells.nothing writeHeader bufs
  | cons c cells ih =>
      rw [List.foldlM_cons]
      exact (hf bufs c List.mem_cons_self).bind
        (ih fun bufs d hd => hf bufs d (List.mem_cons_of_mem c hd))

end Cells

/-! ### Sockets -/

section Sockets

variable {writeHeader : Bool} {bufs : Bufs} {node : Object} {numSockets i : Nat} {g : Int}

/-- The name of the last device fits its buffer. -/
theorem put_lastGpu (hlow : 0 ≤ g * numSockets) (hint : g * numSockets < 2 ^ 31) :
    ∃ text, putText 32 (gpuKey (g * numSockets - 1)) = .ok text := by
  refine ⟨_, putText_of_lt ?_⟩
  have hkey := snprintf_gpuKey (d := g * numSockets - 1) (by omega) (by omega)
  have hlen := @length_snprintf_lt 24 (gpuKey (g * numSockets - 1)) (by decide)
  rw [hkey] at hlen
  omega

/-- The columns of a list of devices. -/
theorem gpus_does {gpuObj : Json} {cells : List Cell} (hg : 0 < g)
    (h : gpuCells gpuObj numSockets g = some cells) (bufs : Bufs) :
    AppendsCells writeHeader bufs (cells, true)
      (cells.foldlM (appendGpu numSockets g writeHeader) bufs) := by
  rw [gpuCells] at h
  split at h
  · obtain rfl := Option.some.inj h
    exact AppendsCells.nothing writeHeader bufs
  · obtain ⟨total, htotal, -⟩ := Option.bind_eq_some_iff.mp h
    obtain ⟨-, hint⟩ := GpuNode.cInt_some htotal
    have hlow : 0 ≤ g * (numSockets : Int) := mul_nonneg hg.le (Int.natCast_nonneg _)
    refine foldlM_does (fun bufs c _ => ?_) bufs
    obtain ⟨text, htext⟩ := put_lastGpu hlow hint
    rw [appendGpu, htext]
    exact appendCell_does writeHeader bufs c

/-- **A socket** appends the columns that are found, and ends the function at the first
thing that is missing. -/
theorem appendSocket_does (writeHeader : Bool) (bufs : Bufs) :
    AppendsCells writeHeader bufs (reachedSocket node numSockets g i)
      (appendSocket numSockets g writeHeader node bufs i) := by
  -- the key of the socket always fits its buffer
  have hid : putText 20 (snprintf 20 (socketKey i)) = .ok (snprintf 20 (socketKey i)) :=
    putText_of_lt (length_snprintf_lt (by decide))
  rw [appendSocket, hid, reachedSocket]
  show AppendsCells _ _ _ (found (Fields.get (snprintf 20 (socketKey i)) node) >>= _)
  cases Fields.get (snprintf 20 (socketKey i)) node with
  | none => exact AppendsCells.stop writeHeader bufs
  | some socketObj =>
      -- the columns of CPU and memory come first, whatever becomes of the devices
      have hcells : AppendsCells writeHeader bufs
          (cpuCells socketObj i ++ memCells socketObj numSockets g i, true)
          ((cpuCells socketObj i ++ memCells socketObj numSockets g i).foldlM
            (appendCell writeHeader) bufs) :=
        foldlM_does (fun bufs c _ => appendCell_does writeHeader bufs c) bufs
      have hstop := hcells.bind (AppendsCells.stop writeHeader)
      rw [List.append_nil] at hstop
      show AppendsCells _ _ _ (_ >>= fun bufs => if g > 0 then _ else _)
      by_cases hg : 0 < g
      · simp only [gt_iff_lt, hg, if_true]
        cases socketObj.get powerGpuWatts with
        | none => exact hstop
        | some gpuObj =>
            show AppendsCells _ _ (match gpuCells gpuObj numSockets g with
              | none => _
              | some gpus => _) (_ >>= fun bufs => found (gpuCells gpuObj numSockets g) >>= _)
            cases hgpus : gpuCells gpuObj numSockets g with
            | none => exact hstop
            | some gpus => exact hcells.bind fun bufs => gpus_does hg hgpus bufs
      · simp only [gt_iff_lt, hg, if_false]
        have hrest := hcells.bind (AppendsCells.nothing writeHeader)
        rw [List.append_nil] at hrest
        exact hrest

/-- **Sockets**, one after the other. -/
theorem foldlM_sockets_does (l : List Nat) (bufs : Bufs) :
    AppendsCells writeHeader bufs (reachedSockets node numSockets g l)
      (l.foldlM (appendSocket numSockets g writeHeader node) bufs) := by
  induction l generalizing bufs with
  | nil => exact AppendsCells.nothing writeHeader bufs
  | cons i l ih =>
      have hhere : AppendsCells writeHeader bufs (reachedSocket node numSockets g i)
          (appendSocket numSockets g writeHeader node bufs i) := appendSocket_does writeHeader bufs
      rw [List.foldlM_cons, reachedSockets]
      cases hon : reachedSocket node numSockets g i with
      | mk cells on =>
          rw [hon] at hhere
          cases on with
          | true => exact hhere.bind ih
          | false => exact hhere.bind_stop

end Sockets

/-! ### The exact condition -/

section Condition

variable {writeHeader : Bool} {hostname : List Char} {node : Object} {numSockets : Nat}

/-- Columns fit one after the other where they do together. -/
theorem fits_iff {bufs : Bufs} {cells : List Cell}
    (hheader : writeHeader = true → bufs.header.length < 500)
    (hvalues : bufs.values.length < 1000) :
    Fits writeHeader bufs cells ↔
      (∀ c ∈ cells, c.width < 100) ∧ bufs.values.length + (cells.map Cell.width).sum < 1000 ∧
        (writeHeader = true → (∀ c ∈ cells, c.name.length + 1 < 100) ∧
          bufs.header.length + (cells.map fun c => c.name.length + 1).sum < 500) := by
  -- by induction on the columns, with the buffers as the earlier ones leave them
  induction cells generalizing bufs with
  | nil => exact iff_of_true trivial ⟨nofun, hvalues, fun h => ⟨nofun, hheader h⟩⟩
  | cons c cells ih =>
      have htitle : c.title.length = c.name.length + 1 := List.length_append
      have hvalue : c.value.length = c.width := List.length_append
      have hadd : (bufs.add writeHeader c).values.length = bufs.values.length + c.width := by
        rw [Bufs.add, List.length_append, hvalue]
      have haddHeader : writeHeader = true →
          (bufs.add writeHeader c).header.length = bufs.header.length + (c.name.length + 1) := by
        rintro rfl
        rw [← htitle]
        exact List.length_append
      -- the first column fits, and the others fit behind it
      rw [Fits, List.forall_mem_cons, List.forall_mem_cons, List.map_cons, List.map_cons,
        List.sum_cons, List.sum_cons]
      constructor
      · rintro ⟨⟨ht, hv, hvs⟩, hrest⟩
        rw [hvalue] at hv
        rw [List.length_append, hvalue] at hvs
        obtain ⟨hwidths, hsum, hnames⟩ := (ih (fun h => by
          have := (ht h).2
          rw [List.length_append, htitle] at this
          rw [haddHeader h]
          exact this) (by rw [hadd]; exact hvs)).mp hrest
        refine ⟨⟨hv, hwidths⟩, by omega, fun h => ?_⟩
        have hname := (ht h).1
        rw [htitle] at hname
        obtain ⟨hlens, htotal⟩ := hnames h
        rw [haddHeader h] at htotal
        exact ⟨⟨hname, hlens⟩, by omega⟩
      · rintro ⟨⟨hv, hwidths⟩, hsum, hnames⟩
        have hvs : bufs.values.length + c.width < 1000 := by omega
        have hhs : writeHeader = true → bufs.header.length + (c.name.length + 1) < 500 := by
          intro h
          have := (hnames h).2
          omega
        refine ⟨⟨fun h => ?_, ?_, ?_⟩, (ih (fun h => ?_) ?_).mpr ⟨hwidths, ?_, fun h => ?_⟩⟩
        · rw [htitle, List.length_append, htitle]
          exact ⟨(hnames h).1.1, hhs h⟩
        · rw [hvalue]
          exact hv
        · rw [List.length_append, hvalue]
          exact hvs
        · rw [haddHeader h]
          exact hhs h
        · rw [hadd]
          exact hvs
        · rw [hadd]
          omega
        · rw [haddHeader h]
          refine ⟨(hnames h).1.2, ?_⟩
          have := (hnames h).2
          omega

theorem length_lineStart (timestamp : Int) :
    (lineStart hostname timestamp).length = startWidth hostname timestamp := by
  rw [lineStart, startWidth, List.length_append, List.length_cons, List.length_append,
    List.length_singleton]
  omega

/-- The condition in the words of the log: the texts fit the buffers. -/
theorem roomFor_iff_fit {timestamp : Int} {cells : List Cell} :
    RoomFor writeHeader hostname timestamp cells ↔
      (writeHeader = true → Fit 100 500 (headerTexts cells)) ∧
        Fit 100 1000 (valueTexts hostname timestamp cells) := by
  have htitle : ∀ c : Cell, c.title.length = c.name.length + 1 := fun c => List.length_append
  have hvalue : ∀ c : Cell, c.value.length = c.width := fun c => List.length_append
  have hstart : headerStart.length = 19 := by decide
  simp only [Fit, headerTexts, valueTexts, List.forall_mem_cons, List.forall_mem_map,
    List.flatten_cons, List.length_append, List.length_flatten, List.map_map, Function.comp_def,
    htitle, hvalue, hstart, length_lineStart]
  constructor
  · intro h
    exact ⟨fun hw => ⟨⟨by decide, h.names hw⟩, h.header hw⟩, ⟨h.start, h.readings⟩, h.line⟩
  · rintro ⟨hheader, ⟨hstart, hreadings⟩, hline⟩
    exact ⟨hstart, hreadings, hline, fun hw => (hheader hw).1.2, fun hw => (hheader hw).2⟩

/-- The buffers suffice where the texts fit. -/
theorem bufsSuffice_iff_fit :
    BufsSuffice numSockets writeHeader hostname node ↔
      (writeHeader = true → Fit 100 500 (headerTexts (reached node numSockets))) ∧
        Fit 100 1000 (valueTexts hostname (timestampOf node) (reached node numSockets)) := by
  rw [← roomFor_iff_fit]
  have hlen := @length_lineStart hostname (timestampOf node)
  have hheader : startHeader writeHeader = .ok (if writeHeader then headerStart else []) := by
    cases writeHeader <;> rfl
  rw [BufsSuffice, parsePowerBufs, hheader]
  show (putText 100 (lineStart hostname (timestampOf node)) >>= fun temp => _) ≠ _ ↔ _
  -- the start of the line goes into a buffer of its own first
  by_cases hstart : startWidth hostname (timestampOf node) < 100
  · rw [putText_of_lt (hlen.trans_lt hstart)]
    show (putText 1000 (lineStart hostname (timestampOf node)) >>= fun values => _) ≠ _ ↔ _
    rw [putText_of_lt (hlen.trans_lt (hstart.trans (by decide)))]
    -- the whole call appends these cells one by one, so it overflows where one does not fit
    have hdoes := (appendNode_does writeHeader ⟨if writeHeader then headerStart else [],
      lineStart hostname (timestampOf node)⟩ node).bind fun bufs =>
        @foldlM_sockets_does writeHeader node numSockets (numGpus node) (List.range numSockets) bufs
    have hfits := @fits_iff writeHeader
      ⟨if writeHeader then headerStart else [], lineStart hostname (timestampOf node)⟩
      (reached node numSockets) (fun h => by
        rw [if_pos h]
        exact (by decide : headerStart.length < 500)) (hlen.trans_lt (hstart.trans (by decide)))
    simp only [hlen] at hfits
    constructor
    · intro hne
      have hall : Fits writeHeader _ (reached node numSockets) :=
        not_not.mp fun hnot => hne (hdoes.overflows hnot)
      obtain ⟨hwidths, hline, hnames⟩ := hfits.mp hall
      refine ⟨hstart, hwidths, hline, fun h => (hnames h).1, fun h => ?_⟩
      have htotal := (hnames h).2
      rwa [if_pos h] at htotal
    · intro hroom
      have hall := hfits.mpr ⟨hroom.readings, hroom.line, fun h => ⟨hroom.names h, by
        rw [if_pos h]
        exact hroom.header h⟩⟩
      intro hover
      have hresult := (hdoes.fits hall).symm.trans hover
      split at hresult <;> cases hresult
  · rw [putText_of_not_lt fun h => hstart (hlen ▸ h)]
    exact iff_of_false (fun h => h rfl) fun hroom => hstart hroom.start

/-- **The buffers suffice** for a node object exactly where there is room for what the
function comes to: the start of a line, each printed reading and each name in a buffer
of 100 characters, the line in one of 1000 and the header in one of 500. -/
theorem bufs_iff (numSockets : Nat) (writeHeader : Bool) (hostname : List Char) (node : Object) :
    BufsSuffice numSockets writeHeader hostname node ↔
      RoomFor writeHeader hostname (timestampOf node) (reached node numSockets) :=
  bufsSuffice_iff_fit.trans roomFor_iff_fit.symm

end Condition

/-! ### Node objects of a shape -/

section Shape

variable {sh : PowerShape} {x : PowerSample} {obj : Object} {writeHeader : Bool}
  {hostname : List Char}

/-- A socket that has its columns. -/
theorem reachedSocket_of_cells {numSockets i : Nat} {g : Int} {cells : List Cell}
    (h : socketCells obj numSockets g i = some cells) :
    reachedSocket obj numSockets g i = (cells, true) := by
  obtain ⟨socketObj, hobj, h⟩ := Option.bind_eq_some_iff.mp h
  rw [reachedSocket, hobj]
  simp only
  split at h
  · next hg =>
      obtain ⟨gpuObj, hgpu, h⟩ := Option.bind_eq_some_iff.mp h
      obtain ⟨gpus, hgpus, h⟩ := Option.bind_eq_some_iff.mp h
      obtain rfl := Option.some.inj h
      rw [if_pos hg, hgpu, Option.bind_some, hgpus]
  · next hg =>
      obtain rfl := Option.some.inj h
      rw [if_neg hg]

/-- **The function comes to all columns** of a node object of a shape. -/
theorem reached_of_matches (h : sh.Matches x obj) : reached obj sh.sockets = sh.columns x := by
  have hsockets : ∀ l : List Nat, (∀ i ∈ l, i < sh.sockets) →
      reachedSockets obj sh.sockets sh.gpusPerSocket l
        = (l.flatMap (sh.socketColumns x), true) := by
    intro l hl
    induction l with
    | nil => rfl
    | cons i l ih =>
        have hi := reachedSocket_of_cells (socketCells_eq h (hl i List.mem_cons_self))
        rw [reachedSockets, hi, ih fun j hj => hl j (List.mem_cons_of_mem i hj)]
        rfl
  rw [reached, numGpus_eq h, nodeCells_eq h, hsockets _ fun i hi => List.mem_range.mp hi]
  rfl

/-- The characters of the columns of a socket in the header. -/
def PowerShape.socketWidth (sh : PowerShape) (i : Nat) : Nat :=
  (if sh.cpu i then (decimal i).length + 18 else 0)
    + (if sh.mem i then (decimal i).length + 15 else 0)
    + if 0 < sh.gpusPerSocket then ((sh.devices i).map fun d => (decimalInt d).length + 15).sum
      else 0

theorem socketColumns_width (i : Nat) :
    ((sh.socketColumns x i).map fun c => c.name.length + 1).sum = sh.socketWidth i := by
  have hwatts : inWatts.length = 10 := by decide
  have hsocket : "Socket_".toList.length = 7 := by decide
  have hmemory : "Mem_".toList.length = 4 := by decide
  have hdevice : "GPU_".toList.length = 4 := by decide
  -- the name of a column is put together from three texts
  have hlen : ∀ a b c : List Char, (a ++ b ++ c).length = a.length + b.length + c.length :=
    fun a b c => by rw [List.length_append, List.length_append]
  have hcpu : (socketColumn i).length + 1 = (decimal i).length + 18 := by
    have h : (socketColumn i).length = _ := hlen _ _ _
    omega
  have hmem : (memColumn i).length + 1 = (decimal i).length + 15 := by
    have h : (memColumn i).length = _ := hlen _ _ _
    omega
  have hgpu : ∀ d, (gpuKey d ++ inWatts).length + 1 = (decimalInt d).length + 15 := by
    intro d
    have h : (gpuKey d ++ inWatts).length = _ := hlen _ _ _
    omega
  rw [PowerShape.socketColumns, PowerShape.socketWidth, List.map_append, List.map_append,
    List.sum_append, List.sum_append]
  congr 1
  · congr 1
    · split
      · rw [List.map_singleton, List.sum_singleton, hcpu]
      · rfl
    · split
      · rw [List.map_singleton, List.sum_singleton, hmem]
      · rfl
  · split
    · rw [List.map_map]
      exact congrArg List.sum (List.map_congr_left fun d _ => hgpu d)
    · rfl

/-- **The header of a shape** has its length from the sockets and the devices alone. -/
theorem columns_width (sh : PowerShape) (x : PowerSample) :
    ((sh.columns x).map fun c => c.name.length + 1).sum
      = (if sh.node then 15 else 0) + ∑ i ∈ Finset.range sh.sockets, sh.socketWidth i := by
  have hsockets : ∀ n, (((List.range n).flatMap (sh.socketColumns x)).map
      fun c => c.name.length + 1).sum = ∑ i ∈ Finset.range n, sh.socketWidth i := by
    intro n
    induction n with
    | zero => rfl
    | succ n ih =>
        rw [List.range_succ, List.flatMap_append, List.map_append, List.sum_append, ih,
          List.flatMap_singleton, socketColumns_width, Finset.sum_range_succ]
  rw [PowerShape.columns, List.map_append, List.sum_append, hsockets, PowerShape.nodeColumn]
  congr 1
  split <;> rfl

end Shape

/-- Fourteen sockets of Intel processors. -/
def fourteenSockets : GpuNode := ⟨0, 14, by decide, by decide⟩

/-- At a hundred watts each, and ten for the memory. -/
def hundredEach : PowerPlatform := .intel (fun _ => 100) fun _ => 10

/-- Their header has 532 characters. -/
theorem not_bufsSuffice_fourteen :
    ∃ out, hundredEach.getPowerJson fourteenSockets (start 0) = some out ∧
      ¬ BufsSuffice 14 true "n".toList out := by
  have hsome : (hundredEach.getPowerJson fourteenSockets (start 0)).isSome :=
    getPowerJson_isSome_iff.mpr trivial
  obtain ⟨out, hout⟩ := Option.isSome_iff_exists.mp hsome
  have hdelivers := delivers_of_getPowerJson hout (show 14 ≤ 10000 by decide)
  refine ⟨out, hout, fun hsuffice => ?_⟩
  have hroom := roomFor_iff_fit.mpr (bufsSuffice_iff_fit.mp hsuffice)
  have hreached : reached out 14 = _ := reached_of_matches hdelivers.shape
  have hheader := hroom.header rfl
  rw [hreached, columns_width] at hheader
  exact absurd hheader (by decide +kernel)

end Variorum
