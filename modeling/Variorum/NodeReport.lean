/-
Variorum/NodeReport.lean

What several platforms add to one node object.

Behind `variorum_get_thermals_json` and `variorum_get_frequency_json` each
platform goes over the sockets of the node, looks for the object of a socket,
makes it where it is missing, and stores an object of its own in it, under a
label: the CPU platforms under "CPU", the GPU platforms under "GPU".  Unlike the
power JSON no platform makes a socket anew, so what the others have stored stays.

A `Contribution` is what one platform adds.  `part_report` reads a node object as
a store with two keys and the contributions as one sequence of stores; then
`report_keepsAll_iff` and `report_perm` are about the last store for a place.
-/
import Variorum.Api
import Variorum.History
import Variorum.UtilJsonSpec

namespace Variorum

open CString History
open Json (Object)
open PowerJson (socketKey)
open UtilJson (inObject)

namespace NodeReport

/-! ### Contributions -/

/-- What a platform adds: the size of its buffer for the key of a socket, its label, the
number of sockets it comes to, and the object it stores under the label in each of
them. -/
structure Contribution where
  size : Nat
  size_ge : 12 ≤ size
  label : List Char
  sockets : Nat
  object : Nat → Object

/-- The two sizes that the platforms give their buffer, `char socket_id[12]` and `[16]`. -/
theorem twelve_le_twelve : 12 ≤ 12 := le_rfl

theorem twelve_le_sixteen : 12 ≤ 16 := by decide

namespace Contribution

/-- The platform in a socket. -/
def turn (c : Contribution) (i : Nat) (node : Object) : Object :=
  inObject (snprintf c.size (socketKey i)) (Fields.set c.label (.object (c.object i))) node

/-- Its loop over the sockets. -/
def add (c : Contribution) (node : Object) : Object :=
  (List.range c.sockets).foldl (fun node i => c.turn i node) node

end Contribution

/-- The node object behind several platforms, one after the other. -/
def report (cs : List Contribution) (node : Object) : Object :=
  cs.foldl (fun node c => c.add node) node

/-- What a node object has for a socket under a label. -/
def part (node : Object) (socket label : List Char) : Option Json :=
  (Fields.get socket node).bind (Json.get label)

/-- Whatever stands under the key of a socket is an object. -/
def Sectioned (node : Object) : Prop :=
  ∀ k j, k.head? = some 's' → Fields.get k node = some j → ∃ fields, j = .object fields

theorem sectioned_start (timestamp : Int) : Sectioned (PowerJson.start timestamp) := by
  intro k j hk hj
  rw [PowerJson.start, Fields.get, Fields.get] at hj
  by_cases h : "timestamp".toList = k
  · rw [← h] at hk
    exact absurd hk (by decide)
  · rw [if_neg h] at hj
    cases hj

/-! ### One platform in one socket -/

section Turn

variable {c : Contribution} {node : Object} {i : Nat} {k l : List Char}

/-- The key of a socket as a platform writes it. -/
def Contribution.key (c : Contribution) (i : Nat) : List Char := snprintf c.size (socketKey i)

theorem Contribution.head_key (c : Contribution) (i : Nat) : (c.key i).head? = some 's' := by
  obtain ⟨n, hn⟩ : ∃ n, c.size = n + 2 := ⟨c.size - 2, by have := c.size_ge; omega⟩
  rw [key, hn]
  exact PowerJson.head_snprintf_socketKey n i

/-- On a node of ten thousand sockets no key is cut off. -/
theorem Contribution.key_eq (c : Contribution) (hi : i < 10000) : c.key i = socketKey i := by
  have hlen := (decimal_length_le_iff (w := 4) (by decide)).mpr hi
  have hsize := c.size_ge
  rw [key, snprintf_of_lt]
  rw [PowerJson.length_socketKey]
  omega

/-- The object under the key of the socket, behind the turn. -/
theorem get_turn_self (hnode : Sectioned node) : ∃ fields,
    Fields.get (c.key i) (c.turn i node) = some (.object fields) ∧
      ∀ l, Fields.get l fields
        = if l = c.label then some (.object (c.object i)) else part node (c.key i) l := by
  have hget := @UtilJson.get_inObject_self (c.key i)
    (Fields.set c.label (.object (c.object i))) node
  have hfields : ∀ (fields : Object) l,
      Fields.get l (Fields.set c.label (.object (c.object i)) fields)
        = if l = c.label then some (.object (c.object i)) else Fields.get l fields := by
    intro fields l
    by_cases hl : l = c.label
    · rw [if_pos hl, hl, Fields.get_set_self]
    · rw [if_neg hl, Fields.get_set_of_ne (Ne.symm hl)]
  cases hsocket : Fields.get (c.key i) node with
  | none =>
      rw [hsocket, Option.getD_none] at hget
      exact ⟨_, hget, fun l => by rw [hfields, part, hsocket]; rfl⟩
  | some j =>
      obtain ⟨fields, rfl⟩ := hnode _ _ (c.head_key i) hsocket
      rw [hsocket, Option.getD_some] at hget
      exact ⟨_, hget, fun l => by rw [hfields, part, hsocket]; rfl⟩

theorem get_turn_of_ne (h : c.key i ≠ k) : Fields.get k (c.turn i node) = Fields.get k node :=
  UtilJson.get_inObject_of_ne h

theorem Sectioned.turn (hnode : Sectioned node) : Sectioned (c.turn i node) := by
  intro k j hk hj
  by_cases h : c.key i = k
  · obtain ⟨fields, hget, -⟩ := get_turn_self (c := c) (i := i) hnode
    rw [← h, hget] at hj
    exact ⟨fields, (Option.some.inj hj).symm⟩
  · rw [get_turn_of_ne h] at hj
    exact hnode k j hk hj

/-- **A turn** is a store for one socket and one label. -/
theorem part_turn (hnode : Sectioned node) : part (c.turn i node) k l
    = if (c.key i, c.label) = (k, l) then some (.object (c.object i)) else part node k l := by
  by_cases hk : c.key i = k
  · subst hk
    obtain ⟨fields, hget, hfields⟩ := get_turn_self (c := c) (i := i) hnode
    rw [part, hget, Option.bind_some, Json.get, hfields]
    by_cases hl : l = c.label
    · rw [if_pos hl, if_pos (by rw [hl])]
    · rw [if_neg hl, if_neg fun h => hl (Prod.mk.inj h).2.symm]
  · rw [part, get_turn_of_ne hk, if_neg fun h => hk (Prod.mk.inj h).1, part]

end Turn

/-! ### All platforms -/

section Report

variable {cs cs' : List Contribution} {node : Object} {i : Nat} {k l : List Char}

/-- The turns of all platforms, in order. -/
def turns (cs : List Contribution) : List (Contribution × Nat) :=
  cs.flatMap fun c => (List.range c.sockets).map fun i => (c, i)

/-- The place that a turn stores at. -/
def place (x : Contribution × Nat) : List Char × List Char := (x.1.key x.2, x.1.label)

/-- What a contribution stores in its turn, as the object of a socket. -/
def value (x : Contribution × Nat) : Json := .object (x.1.object x.2)

theorem mem_turns {x : Contribution × Nat} :
    x ∈ turns cs ↔ x.1 ∈ cs ∧ x.2 < x.1.sockets := by
  rcases x with ⟨c, i⟩
  simp only [turns, List.mem_flatMap, List.mem_map, List.mem_range, Prod.mk.injEq]
  constructor
  · rintro ⟨c', hc', i', hi', rfl, rfl⟩
    exact ⟨hc', hi'⟩
  · rintro ⟨hc, hi⟩
    exact ⟨c, hc, i, hi, rfl, rfl⟩

theorem report_eq_foldl (cs : List Contribution) (node : Object) :
    report cs node = (turns cs).foldl (fun node x => x.1.turn x.2 node) node := by
  induction cs generalizing node with
  | nil => rfl
  | cons c cs ih =>
      have hcs := ih (c.add node)
      rw [turns, List.flatMap_cons, List.foldl_append, List.foldl_map]
      exact hcs

/-- A sequence of turns, read as stores: by induction on its end, the last turn has the
last word. -/
theorem part_foldl (hnode : Sectioned node) (xs : List (Contribution × Nat)) :
    Sectioned (xs.foldl (fun node x => x.1.turn x.2 node) node) ∧ ∀ k l,
      part (xs.foldl (fun node x => x.1.turn x.2 node) node) k l
        = ((lastFor place (k, l) xs).map value).or (part node k l) := by
  induction xs using List.reverseRecOn with
  | nil => exact ⟨hnode, fun k l => rfl⟩
  | append_singleton xs x ih =>
      obtain ⟨hsect, hpart⟩ := ih
      rw [List.foldl_append, List.foldl_cons, List.foldl_nil]
      refine ⟨hsect.turn, fun k l => ?_⟩
      rw [part_turn hsect, hpart, lastFor_concat]
      by_cases hx : place x = (k, l)
      · rw [if_pos hx]
        exact if_pos hx
      · rw [if_neg hx]
        exact if_neg hx

/-- What the node object has behind the platforms. -/
theorem part_report (hnode : Sectioned node) : part (report cs node) k l
    = ((lastFor place (k, l) (turns cs)).map value).or (part node k l) := by
  rw [report_eq_foldl]
  exact (part_foldl hnode _).2 k l

/-- The other keys of the node object stay. -/
theorem get_report (hk : k.head? ≠ some 's') :
    Fields.get k (report cs node) = Fields.get k node := by
  rw [report_eq_foldl]
  induction turns cs generalizing node with
  | nil => rfl
  | cons x xs ih =>
      rw [List.foldl_cons, ih, get_turn_of_ne]
      exact fun h => hk (h ▸ x.1.head_key x.2)

/-- What a platform leaves is a node object with sections again. -/
theorem Sectioned.add {c : Contribution} (hnode : Sectioned node) : Sectioned (c.add node) := by
  have hadd : c.add node = ((List.range c.sockets).map fun i => (c, i)).foldl
      (fun node x => x.1.turn x.2 node) node := by
    rw [List.foldl_map]
    rfl
  rw [hadd]
  exact (part_foldl hnode _).1

/-- A loop over the sockets whose body does what the turn does adds the contribution. -/
theorem Contribution.foldlM_eq_add {c : Contribution} {body : Object → Nat → Option Object}
    (hnode : Sectioned node)
    (hbody : ∀ i < c.sockets, ∀ node, Sectioned node → body node i = some (c.turn i node)) :
    (List.range c.sockets).foldlM body node = some (c.add node) := by
  unfold add
  suffices h : ∀ n ≤ c.sockets, (List.range n).foldlM body node
        = some ((List.range n).foldl (fun node i => c.turn i node) node) ∧
      Sectioned ((List.range n).foldl (fun node i => c.turn i node) node) from
    (h c.sockets le_rfl).1
  intro n hn
  induction n with
  | zero => exact ⟨rfl, hnode⟩
  | succ k ih =>
      obtain ⟨hloop, hsect⟩ := ih (by omega)
      rw [List.range_succ, List.foldlM_append, hloop, List.foldl_append]
      refine ⟨?_, hsect.turn⟩
      simp [hbody k (by omega) _ hsect]

/-- Two platforms that share a label store the same objects in the sockets that both come
to. -/
def Agree (cs : List Contribution) : Prop :=
  ∀ c ∈ cs, ∀ c' ∈ cs, c'.label = c.label →
    ∀ i < c.sockets, i < c'.sockets → c'.object i = c.object i

/-- Every platform finds its objects in the node object. -/
def KeepsAll (cs : List Contribution) (node : Object) : Prop :=
  ∀ c ∈ cs, ∀ i < c.sockets, part node (socketKey i) c.label = some (.object (c.object i))

theorem Agree.of_nodup (h : (cs.map Contribution.label).Nodup) : Agree cs := by
  intro c hc c' hc' hlabel i _ _
  rw [List.inj_on_of_nodup_map h hc' hc hlabel]

/-- No platform comes to more than ten thousand sockets. -/
def Fit (cs : List Contribution) : Prop := ∀ c ∈ cs, c.sockets ≤ 10000

theorem place_eq_iff (hfit : Fit cs) {x y : Contribution × Nat} (hx : x ∈ turns cs)
    (hy : y ∈ turns cs) : place x = place y ↔ x.2 = y.2 ∧ x.1.label = y.1.label := by
  obtain ⟨hxc, hxi⟩ := mem_turns.mp hx
  obtain ⟨hyc, hyi⟩ := mem_turns.mp hy
  rw [place, place, Prod.mk.injEq, x.1.key_eq (hxi.trans_le (hfit _ hxc)),
    y.1.key_eq (hyi.trans_le (hfit _ hyc)), PowerJson.socketKey_injective.eq_iff]

/-- Where those that share a label agree, a place has one value. -/
theorem Agree.value_eq (h : Agree cs) (hfit : Fit cs) :
    ∀ x ∈ turns cs, ∀ y ∈ turns cs, place y = place x → value y = value x := by
  intro x hx y hy hplace
  obtain ⟨hxc, hi⟩ := mem_turns.mp hx
  obtain ⟨hyc, hj⟩ := mem_turns.mp hy
  obtain ⟨hij, hlabel⟩ := (place_eq_iff hfit hy hx).mp hplace
  rw [hij] at hj
  rw [value, value, hij, h _ hxc _ hyc hlabel _ hi hj]

/-- **The node object has what every platform stored** exactly when those that share a
label agree, on nodes of up to ten thousand sockets. -/
theorem report_keepsAll_iff (hfit : Fit cs) (hnode : Sectioned node) :
    KeepsAll cs (report cs node) ↔ Agree cs := by
  constructor
  · intro h c hc c' hc' hlabel i hi hi'
    have hpart := h c' hc' i hi'
    rw [hlabel, h c hc i hi] at hpart
    exact (Json.object.inj (Option.some.inj hpart)).symm
  · intro h c hc i hi
    have hmem : (c, i) ∈ turns cs := mem_turns.mpr ⟨hc, hi⟩
    have hlast := lastFor_map_of_agree hmem (h.value_eq hfit (c, i) hmem)
    rw [part_report hnode, ← c.key_eq (hi.trans_le (hfit c hc))]
    rw [place] at hlast
    rw [hlast]
    rfl

/-- What a platform alone stores for a socket. -/
theorem part_add (hnode : Sectioned node) {c : Contribution} (hsockets : c.sockets ≤ 10000)
    (hi : i < c.sockets) :
    part (c.add node) (socketKey i) c.label = some (.object (c.object i)) := by
  have hfit : Fit [c] := by
    intro c' hc'
    rw [List.mem_singleton.mp hc']
    exact hsockets
  have hagree : Agree [c] := Agree.of_nodup (List.nodup_singleton _)
  exact (report_keepsAll_iff hfit hnode).mpr hagree c List.mem_cons_self i hi

/-- **The order of the platforms does not matter** then. -/
theorem report_perm (hfit : Fit cs) (hnode : Sectioned node) (hagree : Agree cs)
    (hperm : cs.Perm cs') (k l : List Char) :
    part (report cs' node) k l = part (report cs node) k l := by
  have hturns : (turns cs).Perm (turns cs') := hperm.flatMap_right _
  rw [part_report hnode, part_report hnode,
    lastFor_map_perm hturns (hagree.value_eq hfit) (k, l)]

end Report

/-! ### The loop of the API functions -/

section Platforms

variable {P : Type} {call : P → Call Object} {contribution : P → Contribution}
variable {table table' : List (Option P)} {style : LoopStyle} {node : Object}

/-- A function that adds a contribution to any node object and returns a value. -/
def Adds (ret : Int) (f : Call Object) (c : Contribution) : Prop :=
  ∀ node, Sectioned node → f node = some (ret, c.add node)

/-- The contributions of the platforms of a table, in its order. -/
def contributions (contribution : P → Contribution) (table : List (Option P)) :
    List Contribution :=
  (table.filterMap id).map contribution

theorem mem_contributions {c : Contribution} :
    c ∈ contributions contribution table ↔ ∃ p, some p ∈ table ∧ contribution p = c := by
  simp [contributions]

/-- **The loop**, where every platform adds its contribution; one that stops at failures
goes on while 0 is returned. -/
theorem platformLoop_adds
    (h : ∀ p, some p ∈ table → ∃ ret, Adds ret (call p) (contribution p) ∧
      (style = .skips ∧ ret = 0 ∨ style = .reports)) (hnode : Sectioned node)
    (hstyle : style = .skips ∨ style = .reports) :
    platformLoop style (table.map (·.map call)) node
      = some (.finished, report (contributions contribution table) node) := by
  induction table generalizing node with
  | nil => rfl
  | cons entry rest ih =>
      have ih := fun node hnode => @ih node (fun p hp => h p (List.mem_cons_of_mem entry hp)) hnode
      cases entry with
      | none =>
          rcases hstyle with rfl | rfl
          · exact ih node hnode
          · exact ih node hnode
      | some p =>
          obtain ⟨ret, hp, hret⟩ := h p List.mem_cons_self
          have hgoes : ¬ (ret ≠ 0 ∧ (style = .skips ∨ style = .stops)) := by
            rintro ⟨hne, hs⟩
            rcases hret with ⟨-, h0⟩ | rfl
            · exact hne h0
            · rcases hs with hs | hs <;> cases hs
          have hreport : report (contributions contribution (some p :: rest)) node
              = report (contributions contribution rest) ((contribution p).add node) := rfl
          rw [List.map_cons, Option.map_some, platformLoop, hp node hnode, hreport]
          dsimp only
          rw [if_neg hgoes]
          exact ih _ hnode.add

/-- A loop that stops at failures has come to its end only if every platform has
returned 0. -/
theorem returned_zero_of_finished {node' : Object}
    (h : platformLoop .skips (table.map (·.map call)) node = some (.finished, node')) :
    ∀ p, some p ∈ table → ∃ before behind, call p before = some (0, behind) := by
  induction table generalizing node with
  | nil => exact fun p hp => absurd hp List.not_mem_nil
  | cons entry rest ih =>
      intro p hp
      cases entry with
      | none =>
          rcases List.mem_cons.mp hp with hp | hp
          · cases hp
          · exact ih h p hp
      | some q =>
          rw [List.map_cons, Option.map_some, platformLoop] at h
          cases hq : call q node with
          | none => simp [hq] at h
          | some reply =>
              obtain ⟨err, node₁⟩ := reply
              by_cases herr : err = 0
              · subst herr
                rcases List.mem_cons.mp hp with hp | hp
                · obtain rfl := Option.some.inj hp
                  exact ⟨node, node₁, hq⟩
                · exact ih (by simpa [hq] using h) p hp
              · simp [hq, herr] at h

theorem contributions_perm (hperm : table.Perm table') :
    (contributions contribution table).Perm (contributions contribution table') :=
  (hperm.filterMap id).map contribution

end Platforms

end NodeReport

end Variorum
