/-
Variorum/TopologyLayout.lean

The topology printout: the depth-first walk `print_children` over the hwloc
tree, which leaves the socket and the core it last passed in two globals, and
`variorum_print_topology`, which prints the counts and then the walk's table,
once for each platform.

`print_children` counts its own recursion and compares that count with the
depth hwloc keeps for a level.  The two differ below an object whose parent is
more than one level up (one socket has a cache level, another has not), so the
walk says nothing about the hardware threads there.

Main results:

* `printChildren_rows`: the walk prints the threads it reaches, each with its
  own core and socket, whatever the globals held before.
* `seen_eq_threads`: it reaches all of them iff no level is skipped on the way
  to any.
* `printTopology_layout`: every block of the printout is the header and one
  table; no row of it is wrong, and it has the header's number of threads iff
  no level is skipped.
-/
import Mathlib.Data.List.Basic
import Variorum.Topology

namespace Variorum.TopologyLayout

/-! ### The hwloc tree -/

/-- The types of `hwloc_obj_type_t` the library asks for, and the rest. -/
inductive HwlocObjType
  | socket
  | core
  | pu
  | other
  deriving DecidableEq, Repr

/-- An hwloc object: its type, the depth of its level, its two indices and its
children. -/
inductive HwlocObj
  | mk (type : HwlocObjType) (depth : Nat) (logicalIndex osIndex : BitVec 32)
      (children : List HwlocObj)

namespace HwlocObj

def depth : HwlocObj → Nat
  | mk _ depth _ _ _ => depth

mutual

/-- The objects of a type below an object, itself included. -/
def count (type : HwlocObjType) : HwlocObj → Nat
  | mk type' _ _ _ children => (if type' = type then 1 else 0) + countEach type children

def countEach (type : HwlocObjType) : List HwlocObj → Nat
  | [] => 0
  | obj :: objs => obj.count type + countEach type objs

end

mutual

/-- What hwloc keeps of its tree: a level has one type, the depth grows from a
parent to its children (by more than one where a level is missing) and the
hardware threads are the bottom level. -/
def Leveled (typeDepth : HwlocObjType → Int) : HwlocObj → Prop
  | mk type depth _ _ children =>
      (∀ ty, ty ≠ .other → typeDepth ty ≠ -2 → (type = ty ↔ (depth : Int) = typeDepth ty)) ∧
        (depth : Int) ≤ typeDepth .pu ∧ LeveledEach typeDepth depth children

def LeveledEach (typeDepth : HwlocObjType → Int) (depth : Nat) : List HwlocObj → Prop
  | [] => True
  | obj :: objs => depth < obj.depth ∧ obj.Leveled typeDepth ∧ LeveledEach typeDepth depth objs

end

end HwlocObj

open HwlocObj

/-- A loaded `hwloc_topology_t`.  `typeDepth` is `hwloc_get_type_depth`: `-1`
for a type without a level, `-2` for one with several. -/
structure HwlocTopology where
  root : HwlocObj
  typeDepth : HwlocObjType → Int
  root_depth : root.depth = 0
  leveled : root.Leveled typeDepth
  core_lt_pu : typeDepth .core < typeDepth .pu
  socket_lt_core : 0 ≤ typeDepth .core → typeDepth .socket < typeDepth .core
  count_lt : ∀ type, root.count type < 2 ^ 31

namespace HwlocTopology

variable (topology : HwlocTopology)

/-- `hwloc_get_nbobjs_by_type`. -/
def getNbobjsByType (type : HwlocObjType) : NbObjs :=
  if topology.typeDepth type = -2 then .severalLevels
  else .count ⟨topology.root.count type, topology.count_lt type⟩

/-- `variorum_get_num_sockets`. -/
def variorumGetNumSockets : NbObjs := topology.getNbobjsByType .socket

/-- `variorum_get_num_cores`. -/
def variorumGetNumCores : NbObjs := topology.getNbobjsByType .core

/-- `variorum_get_num_threads`. -/
def variorumGetNumThreads : NbObjs := topology.getNbobjsByType .pu

/-- `variorum_get_topology` on this tree: the topology, if its checks pass. -/
def accepted : Option Topology :=
  variorumGetTopology topology.variorumGetNumSockets topology.variorumGetNumCores
    topology.variorumGetNumThreads

end HwlocTopology

/-! ### The walk -/

/-- The globals `g_socket` and `g_core`. -/
structure Globals where
  gSocket : BitVec 32
  gCore : BitVec 32

/-- A line of the table: `"%3u %6u %8u %4u\n"`. -/
structure Row where
  logicalIndex : BitVec 32
  osIndex : BitVec 32
  gCore : BitVec 32
  gSocket : BitVec 32
  deriving DecidableEq, Repr

/-- What `print_children` does at an object before its children: the globals,
and the line it prints. -/
def visit (typeDepth : HwlocObjType → Int) (logicalIndex osIndex : BitVec 32) (depth : Nat)
    (g : Globals) : Globals × List Row :=
  let g := if (depth : Int) = typeDepth .socket then { g with gSocket := osIndex } else g
  let g := if (depth : Int) = typeDepth .core then { g with gCore := logicalIndex } else g
  (g, if (depth : Int) = typeDepth .pu then [⟨logicalIndex, osIndex, g.gCore, g.gSocket⟩] else [])

mutual

/-- `print_children`: what an object is to the globals and the table, and then its
children. -/
def printChildren (typeDepth : HwlocObjType → Int) : HwlocObj → Nat → Globals → Globals × List Row
  | mk _ _ logicalIndex osIndex children, depth, g =>
      let at_ := visit typeDepth logicalIndex osIndex depth g
      let below := printEach typeDepth children (depth + 1) at_.1
      (below.1, at_.2 ++ below.2)

/-- The loop of `print_children` over `obj->children`. -/
def printEach (typeDepth : HwlocObjType → Int) :
    List HwlocObj → Nat → Globals → Globals × List Row
  | [], _, g => (g, [])
  | obj :: objs, depth, g =>
      let first := printChildren typeDepth obj depth g
      let rest := printEach typeDepth objs depth first.1
      (rest.1, first.2 ++ rest.2)

end

/-! ### What the table is about -/

/-- A hardware thread: its indices, the core and the socket around it. -/
structure Thread where
  logicalIndex : BitVec 32
  osIndex : BitVec 32
  core : Option (BitVec 32)
  socket : Option (BitVec 32)
  deriving DecidableEq, Repr

/-- The thread a line describes. -/
def Row.told (row : Row) : Thread :=
  ⟨row.logicalIndex, row.osIndex, some row.gCore, some row.gSocket⟩

theorem Row.told_injective : Function.Injective Row.told := by
  rintro ⟨l, o, c, s⟩ ⟨l', o', c', s'⟩ h
  simp only [Row.told, Thread.mk.injEq, Option.some.injEq] at h
  obtain ⟨rfl, rfl, rfl, rfl⟩ := h
  rfl

namespace HwlocObj

/-- The socket around what is below an object. -/
def enterSocket (type : HwlocObjType) (osIndex : BitVec 32) (socket : Option (BitVec 32)) :
    Option (BitVec 32) :=
  if type = .socket then some osIndex else socket

/-- The core around what is below an object. -/
def enterCore (type : HwlocObjType) (logicalIndex : BitVec 32) (core : Option (BitVec 32)) :
    Option (BitVec 32) :=
  if type = .core then some logicalIndex else core

mutual

/-- The hardware threads below an object, depth first, each with the nearest
core and socket around it. -/
def threads (core socket : Option (BitVec 32)) : HwlocObj → List Thread
  | mk type _ logicalIndex osIndex children =>
      let socket := enterSocket type osIndex socket
      let core := enterCore type logicalIndex core
      (if type = .pu then [⟨logicalIndex, osIndex, core, socket⟩] else []) ++
        threadsEach core socket children

def threadsEach (core socket : Option (BitVec 32)) : List HwlocObj → List Thread
  | [] => []
  | obj :: objs => obj.threads core socket ++ threadsEach core socket objs

end

mutual

/-- The threads `d` steps of the walk lead to: those below no object that is
deeper than the walk has counted. -/
def seen (core socket : Option (BitVec 32)) : HwlocObj → Nat → List Thread
  | mk type depth logicalIndex osIndex children, d =>
      if d = depth then
        let socket := enterSocket type osIndex socket
        let core := enterCore type logicalIndex core
        (if type = .pu then [⟨logicalIndex, osIndex, core, socket⟩] else []) ++
          seenEach core socket children (d + 1)
      else []

def seenEach (core socket : Option (BitVec 32)) : List HwlocObj → Nat → List Thread
  | [], _ => []
  | obj :: objs, d => obj.seen core socket d ++ seenEach core socket objs d

end

mutual

/-- Every hardware thread is as many steps from the root as its level is deep. -/
def Reached : HwlocObj → Nat → Prop
  | mk type depth _ _ children, d => (type = .pu → d = depth) ∧ ReachedEach children (d + 1)

def ReachedEach : List HwlocObj → Nat → Prop
  | [], _ => True
  | obj :: objs, d => obj.Reached d ∧ ReachedEach objs d

end

/-! ### What hwloc's depths give -/

section Leveled

variable {typeDepth : HwlocObjType → Int}

theorem Leveled.type_iff {type : HwlocObjType} {depth : Nat} {logicalIndex osIndex : BitVec 32}
    {children : List HwlocObj} (h : (mk type depth logicalIndex osIndex children).Leveled typeDepth)
    {ty : HwlocObjType} (hty : ty ≠ .other) (hlevel : typeDepth ty ≠ -2) :
    (depth : Int) = typeDepth ty ↔ type = ty := by
  rw [Leveled] at h
  exact (h.1 ty hty hlevel).symm

theorem Leveled.depth_le {obj : HwlocObj} (h : obj.Leveled typeDepth) :
    (obj.depth : Int) ≤ typeDepth .pu := by
  cases obj
  rw [Leveled] at h
  exact h.2.1

theorem Leveled.children {type : HwlocObjType} {depth : Nat} {logicalIndex osIndex : BitVec 32}
    {children : List HwlocObj}
    (h : (mk type depth logicalIndex osIndex children).Leveled typeDepth) :
    LeveledEach typeDepth depth children := by
  rw [Leveled] at h
  exact h.2.2

end Leveled

end HwlocObj

section Walk

variable {typeDepth : HwlocObjType → Int}

/-! ### Below a missing level -/

mutual

/-- A walk that is behind hwloc's depths prints nothing: it reaches the bottom
level's depth, if at all, only below that level. -/
theorem printChildren_behind : (obj : HwlocObj) → obj.Leveled typeDepth → {d : Nat} →
    d < obj.depth → (g : Globals) → (printChildren typeDepth obj d g).2 = []
  | mk type depth logicalIndex osIndex children, h, d, hd, g => by
      have hpu : ¬ (d : Int) = typeDepth .pu := by
        have hle := h.depth_le
        simp only [HwlocObj.depth] at hd hle
        omega
      have hbelow := printEach_behind children h.children (d := d + 1) hd
        (visit typeDepth logicalIndex osIndex d g).1
      rw [printChildren, hbelow, List.append_nil, visit, if_neg hpu]

theorem printEach_behind : (objs : List HwlocObj) → {depth : Nat} →
    LeveledEach typeDepth depth objs → {d : Nat} → d ≤ depth → (g : Globals) →
    (printEach typeDepth objs d g).2 = []
  | [], _, _, _, _, g => by rw [printEach]
  | obj :: objs, depth, h, d, hd, g => by
      rw [LeveledEach] at h
      obtain ⟨hdeeper, hobj, hobjs⟩ := h
      rw [printEach, printChildren_behind obj hobj (hd.trans_lt hdeeper),
        printEach_behind objs hobjs hd, List.append_nil]

end

mutual

/-- Behind hwloc's depths, no thread is lost iff there is none. -/
theorem reached_behind : (obj : HwlocObj) → obj.Leveled typeDepth → {d : Nat} → d < obj.depth →
    (core socket : Option (BitVec 32)) → (obj.Reached d ↔ obj.threads core socket = [])
  | mk type depth logicalIndex osIndex children, h, d, hd, core, socket => by
      have hbelow := reachedEach_behind children h.children (d := d + 1) hd
        (enterCore type logicalIndex core) (enterSocket type osIndex socket)
      rw [Reached, threads, hbelow, List.append_eq_nil_iff]
      refine and_congr_left fun _ => ?_
      by_cases hpu : type = .pu
      · simp only [HwlocObj.depth] at hd
        simp [hpu, hd.ne]
      · simp [hpu]

theorem reachedEach_behind : (objs : List HwlocObj) → {depth : Nat} →
    LeveledEach typeDepth depth objs → {d : Nat} → d ≤ depth →
    (core socket : Option (BitVec 32)) → (ReachedEach objs d ↔ threadsEach core socket objs = [])
  | [], _, _, _, _, _, _ => by simp only [ReachedEach, threadsEach]
  | obj :: objs, depth, h, d, hd, core, socket => by
      rw [LeveledEach] at h
      obtain ⟨hdeeper, hobj, hobjs⟩ := h
      rw [ReachedEach, threadsEach, List.append_eq_nil_iff,
        reached_behind obj hobj (hd.trans_lt hdeeper) core socket,
        reachedEach_behind objs hobjs hd core socket]

end

/-! ### The globals -/

theorem visit_gSocket (logicalIndex osIndex : BitVec 32) {d : Nat} (h : typeDepth .socket < d)
    (g : Globals) : (visit typeDepth logicalIndex osIndex d g).1.gSocket = g.gSocket := by
  have hne : ¬ (d : Int) = typeDepth .socket := by omega
  simp only [visit, if_neg hne]
  split <;> rfl

theorem visit_gCore (logicalIndex osIndex : BitVec 32) {d : Nat} (h : typeDepth .core < d)
    (g : Globals) : (visit typeDepth logicalIndex osIndex d g).1.gCore = g.gCore := by
  have hne : ¬ (d : Int) = typeDepth .core := by omega
  simp only [visit, if_neg hne]
  split <;> rfl

mutual

/-- The walk below the socket level leaves `g_socket` alone. -/
theorem printChildren_gSocket : (obj : HwlocObj) → {d : Nat} → typeDepth .socket < d →
    (g : Globals) → (printChildren typeDepth obj d g).1.gSocket = g.gSocket
  | mk _ _ logicalIndex osIndex children, d, hd, g => by
      rw [printChildren, printEach_gSocket children (by omega),
        visit_gSocket logicalIndex osIndex hd]

theorem printEach_gSocket : (objs : List HwlocObj) → {d : Nat} → typeDepth .socket < d →
    (g : Globals) → (printEach typeDepth objs d g).1.gSocket = g.gSocket
  | [], _, _, g => by rw [printEach]
  | obj :: objs, d, hd, g => by
      rw [printEach, printEach_gSocket objs hd, printChildren_gSocket obj hd]

end

mutual

/-- The walk below the core level leaves `g_core` alone. -/
theorem printChildren_gCore : (obj : HwlocObj) → {d : Nat} → typeDepth .core < d →
    (g : Globals) → (printChildren typeDepth obj d g).1.gCore = g.gCore
  | mk _ _ logicalIndex osIndex children, d, hd, g => by
      rw [printChildren, printEach_gCore children (by omega), visit_gCore logicalIndex osIndex hd]

theorem printEach_gCore : (objs : List HwlocObj) → {d : Nat} → typeDepth .core < d →
    (g : Globals) → (printEach typeDepth objs d g).1.gCore = g.gCore
  | [], _, _, g => by rw [printEach]
  | obj :: objs, d, hd, g => by
      rw [printEach, printEach_gCore objs hd, printChildren_gCore obj hd]

end

/-- Below the socket level the globals name the socket around the walk, below
the core level the core. -/
structure Names (typeDepth : HwlocObjType → Int) (d : Nat) (g : Globals)
    (core socket : Option (BitVec 32)) : Prop where
  socket : typeDepth .socket < d → socket = some g.gSocket
  core : typeDepth .core < d → core = some g.gCore

/-- The socket, core and thread levels exist, in this order from the root. -/
structure LevelOrder (typeDepth : HwlocObjType → Int) : Prop where
  socket : 0 ≤ typeDepth .socket
  core : typeDepth .socket < typeDepth .core
  pu : typeDepth .core < typeDepth .pu

theorem visit_names {d : Nat} {g : Globals} {core socket : Option (BitVec 32)}
    (order : LevelOrder typeDepth) {type : HwlocObjType} {logicalIndex osIndex : BitVec 32}
    {children : List HwlocObj}
    (h : (mk type d logicalIndex osIndex children).Leveled typeDepth)
    (hn : Names typeDepth d g core socket) :
    Names typeDepth (d + 1) (visit typeDepth logicalIndex osIndex d g).1
      (enterCore type logicalIndex core) (enterSocket type osIndex socket) := by
  obtain ⟨hsocket, hcore, -⟩ := order
  have hs := h.type_iff (show HwlocObjType.socket ≠ .other by decide) (by omega)
  have hc := h.type_iff (show HwlocObjType.core ≠ .other by decide) (by omega)
  constructor
  · intro hd
    by_cases htype : type = .socket
    · have heq := hs.mpr htype
      have hne : ¬ (d : Int) = typeDepth .core := by omega
      simp only [enterSocket, if_pos htype, visit, if_pos heq, if_neg hne]
    · have hlt : typeDepth .socket < d := by
        have hne : ¬ (d : Int) = typeDepth .socket := mt hs.mp htype
        omega
      rw [enterSocket, if_neg htype, visit_gSocket logicalIndex osIndex hlt, hn.socket hlt]
  · intro hd
    by_cases htype : type = .core
    · simp only [enterCore, if_pos htype, visit, if_pos (hc.mpr htype)]
    · have hlt : typeDepth .core < d := by
        have hne : ¬ (d : Int) = typeDepth .core := mt hc.mp htype
        omega
      rw [enterCore, if_neg htype, visit_gCore logicalIndex osIndex hlt, hn.core hlt]

theorem printChildren_names {d : Nat} {g : Globals} {core socket : Option (BitVec 32)}
    (obj : HwlocObj) (hn : Names typeDepth d g core socket) :
    Names typeDepth d (printChildren typeDepth obj d g).1 core socket where
  socket hd := by rw [printChildren_gSocket obj hd, hn.socket hd]
  core hd := by rw [printChildren_gCore obj hd, hn.core hd]

/-! ### The rows -/

/-- The line printed at a hardware thread names the core and the socket around
it, and no other object has a line. -/
theorem visit_told {d : Nat} {g : Globals} {core socket : Option (BitVec 32)}
    (order : LevelOrder typeDepth) {type : HwlocObjType} {logicalIndex osIndex : BitVec 32}
    {children : List HwlocObj}
    (h : (mk type d logicalIndex osIndex children).Leveled typeDepth)
    (hn : Names typeDepth d g core socket) :
    (visit typeDepth logicalIndex osIndex d g).2.map Row.told =
      if type = .pu then
        [⟨logicalIndex, osIndex, enterCore type logicalIndex core, enterSocket type osIndex socket⟩]
      else [] := by
  have hn := visit_names order h hn
  obtain ⟨hsocket, hcore, hpu⟩ := order
  have htype := h.type_iff (show HwlocObjType.pu ≠ .other by decide) (by omega)
  by_cases hd : (d : Int) = typeDepth .pu
  · have hs := hn.socket (by omega)
    have hc := hn.core (by omega)
    rw [if_pos (htype.mp hd), hs, hc]
    simp only [visit, if_pos hd, List.map_cons, List.map_nil, Row.told]
  · rw [if_neg (mt htype.mpr hd)]
    simp only [visit, if_neg hd, List.map_nil]

mutual

/-- **The walk prints the threads it reaches, each with its own core and
socket.** -/
theorem printChildren_rows (order : LevelOrder typeDepth) :
    (obj : HwlocObj) → obj.Leveled typeDepth → {d : Nat} → d ≤ obj.depth → {g : Globals} →
    {core socket : Option (BitVec 32)} →
    Names typeDepth d g core socket →
    (printChildren typeDepth obj d g).2.map Row.told = obj.seen core socket d
  | mk type depth logicalIndex osIndex children, h, d, hd, g, core, socket, hn => by
      rcases hd.lt_or_eq with hlt | heq
      · rw [printChildren_behind _ h hlt, seen, if_neg (show ¬ d = depth from hlt.ne), List.map_nil]
      · obtain rfl : d = depth := heq
        have hbelow := printEach_rows order children h.children (Nat.le_refl _)
          (visit_names order h hn)
        rw [printChildren, List.map_append, hbelow, visit_told order h hn, seen,
          if_pos rfl]

theorem printEach_rows (order : LevelOrder typeDepth) : (objs : List HwlocObj) → {depth : Nat} →
    LeveledEach typeDepth depth objs → {d : Nat} → d ≤ depth + 1 → {g : Globals} →
    {core socket : Option (BitVec 32)} → Names typeDepth d g core socket →
    (printEach typeDepth objs d g).2.map Row.told = seenEach core socket objs d
  | [], _, _, _, _, _, _, _, _ => by rw [printEach, seenEach, List.map_nil]
  | obj :: objs, depth, h, d, hd, g, core, socket, hn => by
      rw [LeveledEach] at h
      obtain ⟨hdeeper, hobj, hobjs⟩ := h
      have hrest := printEach_rows order objs hobjs hd (printChildren_names obj hn)
      rw [printEach, List.map_append, hrest, seenEach,
        printChildren_rows order obj hobj (hd.trans hdeeper) hn]

end

/-! ### Threads lost -/

/-- What is lost of a concatenation is lost of one of its parts. -/
theorem append_eq_append_iff_of_sublist {α : Type*} {a a' b b' : List α} (ha : a.Sublist a')
    (hb : b.Sublist b') : a ++ b = a' ++ b' ↔ a = a' ∧ b = b' := by
  constructor
  · intro h
    have hlen := congrArg List.length h
    have hla := ha.length_le
    have hlb := hb.length_le
    simp only [List.length_append] at hlen
    exact ⟨ha.eq_of_length (by omega), hb.eq_of_length (by omega)⟩
  · rintro ⟨rfl, rfl⟩
    rfl

mutual

/-- What the walk reaches is part of the node, in its order. -/
theorem seen_sublist : (obj : HwlocObj) → (d : Nat) → (core socket : Option (BitVec 32)) →
    (obj.seen core socket d).Sublist (obj.threads core socket)
  | mk type depth logicalIndex osIndex children, d, core, socket => by
      rw [seen, threads]
      split
      · exact List.Sublist.append (List.Sublist.refl _) (seenEach_sublist children (d + 1) _ _)
      · exact List.nil_sublist _

theorem seenEach_sublist : (objs : List HwlocObj) → (d : Nat) →
    (core socket : Option (BitVec 32)) →
    (seenEach core socket objs d).Sublist (threadsEach core socket objs)
  | [], _, _, _ => by
      rw [seenEach]
      exact List.nil_sublist _
  | obj :: objs, d, core, socket => by
      rw [seenEach, threadsEach]
      exact (seen_sublist obj d core socket).append (seenEach_sublist objs d core socket)

end

mutual

/-- **The walk reaches every hardware thread iff no level is skipped on the way
to any.** -/
theorem seen_eq_threads : (obj : HwlocObj) → obj.Leveled typeDepth → {d : Nat} → d ≤ obj.depth →
    (core socket : Option (BitVec 32)) →
    (obj.seen core socket d = obj.threads core socket ↔ obj.Reached d)
  | mk type depth logicalIndex osIndex children, h, d, hd, core, socket => by
      rcases hd.lt_or_eq with hlt | heq
      · rw [reached_behind _ h hlt core socket, seen, if_neg (show ¬ d = depth from hlt.ne)]
        exact eq_comm
      · obtain rfl : d = depth := heq
        have hbelow := seenEach_eq_threads children h.children (Nat.le_refl _)
          (enterCore type logicalIndex core) (enterSocket type osIndex socket)
        rw [seen, if_pos rfl, threads, Reached, List.append_cancel_left_eq, hbelow]
        exact (and_iff_right fun _ => rfl).symm

theorem seenEach_eq_threads : (objs : List HwlocObj) → {depth : Nat} →
    LeveledEach typeDepth depth objs → {d : Nat} → d ≤ depth + 1 →
    (core socket : Option (BitVec 32)) →
    (seenEach core socket objs d = threadsEach core socket objs ↔ ReachedEach objs d)
  | [], _, _, _, _, _, _ => by simp only [seenEach, threadsEach, ReachedEach]
  | obj :: objs, depth, h, d, hd, core, socket => by
      rw [LeveledEach] at h
      obtain ⟨hdeeper, hobj, hobjs⟩ := h
      rw [seenEach, threadsEach, ReachedEach,
        append_eq_append_iff_of_sublist (seen_sublist obj d core socket)
          (seenEach_sublist objs d core socket),
        seen_eq_threads obj hobj (hd.trans hdeeper), seenEach_eq_threads objs hobjs hd]

end

mutual

theorem length_threads : (obj : HwlocObj) → (core socket : Option (BitVec 32)) →
    (obj.threads core socket).length = obj.count .pu
  | mk type _ logicalIndex osIndex children, core, socket => by
      rw [threads, List.length_append, length_threadsEach children, count]
      split <;> rfl

theorem length_threadsEach : (objs : List HwlocObj) → (core socket : Option (BitVec 32)) →
    (threadsEach core socket objs).length = countEach .pu objs
  | [], _, _ => by rw [threadsEach, countEach, List.length_nil]
  | obj :: objs, core, socket => by
      rw [threadsEach, List.length_append, length_threads obj, length_threadsEach objs, countEach]

end

mutual

/-- A type that has no level has no object. -/
theorem count_of_no_level {ty : HwlocObjType} (hty : ty ≠ .other) (hlevel : typeDepth ty ≠ -2)
    (hnone : typeDepth ty < 0) : (obj : HwlocObj) → obj.Leveled typeDepth → obj.count ty = 0
  | mk type depth _ _ children, h => by
      have htype : ¬ type = ty := mt (h.type_iff hty hlevel).mpr (by omega)
      rw [count, if_neg htype, countEach_of_no_level hty hlevel hnone children h.children]

theorem countEach_of_no_level {ty : HwlocObjType} (hty : ty ≠ .other)
    (hlevel : typeDepth ty ≠ -2) (hnone : typeDepth ty < 0) : (objs : List HwlocObj) →
    {depth : Nat} → LeveledEach typeDepth depth objs → countEach ty objs = 0
  | [], _, _ => by rw [countEach]
  | obj :: objs, _, h => by
      rw [LeveledEach] at h
      rw [countEach, count_of_no_level hty hlevel hnone obj h.2.1,
        countEach_of_no_level hty hlevel hnone objs h.2.2]

end

end Walk

/-! ### The printout -/

/-- A line of `variorum_print_topology`; the values stand for their `%d` and
`%s`. -/
inductive TopologyLine
  | text (s : String)
  | hostname (hostname : String)
  | numSockets (n : Nat)
  | numCoresPerSocket (n : Nat)
  | numThreadsPerCore (n : Nat)
  | hyperthreading (yes : Bool)
  | totalNumOfCores (n : Nat)
  | totalNumOfThreads (n : Nat)
  | thread (row : Row)

/-- The lines before the table. -/
def header (hostname : String) (t : Topology) : List TopologyLine :=
  [.text "=================", .text "Platform Topology", .text "=================",
    .hostname hostname, .numSockets t.nsockets, .numCoresPerSocket t.coresPerSocket,
    .numThreadsPerCore t.threadsPerCore,
    .hyperthreading (if t.threadsPerCore = 1 then false else true), .text "",
    .totalNumOfCores t.ncores, .totalNumOfThreads t.nthreads, .text "", .text "Layout:",
    .text "-------", .text "Thread HWThread Core Socket"]

/-- A turn of the loop of `variorum_print_topology`; `none`:
`variorum_get_topology` has ended the process. -/
def printPlatform (topology : HwlocTopology) (hostname : String) (g : Globals) :
    Option (Globals × List TopologyLine) :=
  topology.accepted.map fun t =>
    let walk := printChildren topology.typeDepth topology.root 0 g
    (walk.1, header hostname t ++ walk.2.map .thread)

/-- `variorum_print_topology`, for a number of platforms; every one loads the
same tree. -/
def variorumPrintTopology (topology : HwlocTopology) (hostname : String) :
    Nat → Globals → Option (Globals × List TopologyLine)
  | 0, g => some (g, [])
  | platforms + 1, g => do
      let first ← printPlatform topology hostname g
      let rest ← variorumPrintTopology topology hostname platforms first.1
      some (rest.1, first.2 ++ rest.2)

variable {topology : HwlocTopology} {t : Topology}

/-- What `variorum_get_topology` has checked of a tree that it accepts. -/
theorem accepted_spec (h : topology.accepted = some t) :
    topology.typeDepth .socket ≠ -2 ∧ topology.typeDepth .core ≠ -2 ∧
      0 < topology.root.count .socket ∧ 0 < topology.root.count .core ∧
      t.nthreads = topology.root.count .pu := by
  simp only [HwlocTopology.accepted, HwlocTopology.variorumGetNumSockets,
    HwlocTopology.variorumGetNumCores, HwlocTopology.variorumGetNumThreads,
    HwlocTopology.getNbobjsByType] at h
  split at h
  · simp [variorumGetTopology] at h
  split at h
  · simp [variorumGetTopology] at h
  split at h
  · simp [variorumGetTopology] at h
  rename_i hsocket hcore _
  simp only [variorumGetTopology] at h
  split at h
  · rename_i hcounts
    obtain rfl := Option.some.inj h
    exact ⟨hsocket, hcore, hcounts.1, hcounts.2.1, rfl⟩
  · cases h

/-- The levels of an accepted tree. -/
theorem levelOrder_of_accepted (h : topology.accepted = some t) :
    LevelOrder topology.typeDepth := by
  obtain ⟨hsocket, hcore, hsockets, hcores, -⟩ := accepted_spec h
  have exists_level : ∀ ty, ty ≠ HwlocObjType.other → topology.typeDepth ty ≠ -2 →
      0 < topology.root.count ty → 0 ≤ topology.typeDepth ty := by
    intro ty hty hlevel hpos
    by_contra hneg
    exact hpos.ne' (count_of_no_level hty hlevel (by omega) topology.root topology.leveled)
  have hcore := exists_level .core (by decide) hcore hcores
  exact ⟨exists_level .socket (by decide) hsocket hsockets, topology.socket_lt_core hcore,
    topology.core_lt_pu⟩

/-- The table of one walk, with any globals before it. -/
theorem printChildren_root (h : topology.accepted = some t) (g : Globals) :
    (printChildren topology.typeDepth topology.root 0 g).2.map Row.told =
      topology.root.seen none none 0 := by
  have order := levelOrder_of_accepted h
  refine printChildren_rows order topology.root topology.leveled (Nat.zero_le _) ⟨?_, ?_⟩
  · intro hlt
    exact absurd order.socket (by simpa using hlt)
  · intro hlt
    have hlt : topology.typeDepth .core < 0 := by simpa using hlt
    exact absurd (order.socket.trans_lt order.core) (by omega)

theorem variorumPrintTopology_eq {rows : List Row} (h : topology.accepted = some t)
    (hrows : ∀ g, (printChildren topology.typeDepth topology.root 0 g).2 = rows)
    (hostname : String) (platforms : Nat) (g : Globals) :
    ∃ g', variorumPrintTopology topology hostname platforms g =
      some (g', (List.replicate platforms (header hostname t ++ rows.map .thread)).flatten) := by
  induction platforms generalizing g with
  | zero => exact ⟨g, rfl⟩
  | succ platforms ih =>
    obtain ⟨g', hrest⟩ := ih (printChildren topology.typeDepth topology.root 0 g).1
    have hfirst : printPlatform topology hostname g =
        some ((printChildren topology.typeDepth topology.root 0 g).1,
          header hostname t ++ rows.map .thread) := by
      rw [printPlatform, h, ← hrows g]
      rfl
    refine ⟨g', ?_⟩
    rw [variorumPrintTopology, hfirst, Option.bind_eq_bind, Option.bind_some, hrest,
      Option.bind_some, List.replicate_succ, List.flatten_cons]

/-- **The printout.**  Every platform has the header and one and the same
table.  No row of the table is wrong: the rows are threads of the node in its
order, each with its own core and socket.  The table has the header's number
of threads iff no level of the tree is skipped above any thread. -/
theorem printTopology_layout (h : topology.accepted = some t) :
    ∃ rows : List Row,
      (∀ hostname platforms g, ∃ g', variorumPrintTopology topology hostname platforms g =
        some (g', (List.replicate platforms (header hostname t ++ rows.map .thread)).flatten)) ∧
      (rows.map Row.told).Sublist (topology.root.threads none none) ∧
      (topology.root.threads none none).length = t.nthreads ∧
      (rows.length = t.nthreads ↔ topology.root.Reached 0) := by
  have hseen := printChildren_root h
  have hsub := seen_sublist topology.root 0 none none
  have hlength : (topology.root.threads none none).length = t.nthreads := by
    rw [length_threads, (accepted_spec h).2.2.2.2]
  refine ⟨(printChildren topology.typeDepth topology.root 0 ⟨0, 0⟩).2, ?_, ?_, hlength, ?_⟩
  · intro hostname platforms g
    refine variorumPrintTopology_eq h (fun g => ?_) hostname platforms g
    exact Function.Injective.list_map Row.told_injective ((hseen g).trans (hseen _).symm)
  · rw [hseen]
    exact hsub
  · rw [← seen_eq_threads topology.root topology.leveled (Nat.zero_le _) none none, ← hlength,
      ← List.length_map Row.told, hseen]
    exact ⟨hsub.eq_of_length, congrArg List.length⟩

/-- One socket with two cores, the first of them below a cache. -/
def halfCachedRoot : HwlocObj :=
  .mk .other 0 0 0 [.mk .socket 1 0 0
    [.mk .other 2 0 0 [.mk .core 3 0 0 [.mk .pu 4 0 0 []]], .mk .core 3 1 1 [.mk .pu 4 1 1 []]]]

/-- The depths of its levels. -/
def halfCachedDepth : HwlocObjType → Int
  | .socket => 1
  | .core => 3
  | .pu => 4
  | .other => -2

theorem halfCachedRoot_leveled : halfCachedRoot.Leveled halfCachedDepth := by
  simp only [halfCachedRoot, Leveled, LeveledEach, HwlocObj.depth]
  and_intros
  all_goals first
    | decide
    | intro ty
      cases ty <;> decide

theorem halfCachedRoot_count_lt (type : HwlocObjType) : halfCachedRoot.count type < 2 ^ 31 := by
  cases type <;> decide

def halfCached : HwlocTopology where
  root := halfCachedRoot
  typeDepth := halfCachedDepth
  root_depth := rfl
  leveled := halfCachedRoot_leveled
  core_lt_pu := by decide
  socket_lt_core := by decide
  count_lt := halfCachedRoot_count_lt

theorem halfCached_accepted : ∃ t, halfCached.accepted = some t :=
  ⟨⟨1, 2, 2, by decide, by decide, by decide, by decide, by decide, by decide⟩, rfl⟩

/-- There the table is short of the header's threads. -/
theorem printTopology_layout_halfCached :
    ∃ (t : Topology) (rows : List Row), halfCached.accepted = some t ∧ rows.length < t.nthreads ∧
      ∀ hostname platforms g, ∃ g', variorumPrintTopology halfCached hostname platforms g =
        some (g', (List.replicate platforms (header hostname t ++ rows.map .thread)).flatten) := by
  obtain ⟨t, ht⟩ := halfCached_accepted
  obtain ⟨rows, hrows, hsub, hlength, hreached⟩ := printTopology_layout ht
  refine ⟨t, rows, ht, lt_of_le_of_ne ?_ fun heq => ?_, hrows⟩
  · rw [← hlength, ← List.length_map Row.told]
    exact hsub.length_le
  · have h := hreached.mp heq
    simp [halfCached, halfCachedRoot, Reached, ReachedEach] at h

end Variorum.TopologyLayout
