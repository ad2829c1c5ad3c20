import DebugAdapter.Inspection.Graph
import Mathlib.Algebra.Group.Nat.Defs
import Mathlib.Data.List.Nodup

/-!
# Well-formed graphs

`WellFormed` says what the graph of a stop is like as long as no number was given out twice: numbers
are fresh, links lead to smaller numbers and back again. Entering frames, locals or what was read
of a variable keeps this, and `Extends` says what it leaves as it is: levels, keys and links for
good, and a record with its children once it is there.
-/

namespace DebugAdapter

open Protocol

/-- The children of a variable are locals if it holds the locals of a frame, else entries. -/
def VariableKey.Fits (parent : VariableKey) : VariableKey → Prop
  | .locals => False
  | .slot _ _ => parent = .locals
  | .entry _ => parent ≠ .locals

namespace Reading

def keys : Reading → List Key
  | .nowhere | .scalar _ => []
  | .table keys => keys

/-- How a client is told of what was read. Under the reference it asks for the children. -/
def record (name : String) (reference : UInt32) : Reading → Variable
  | .nowhere =>
    { name := name
      value := unevaluated
      presentationHint := some StackGraph.propertyHint
      variablesReference := 0 }
  | .scalar v =>
    { name := name
      value := v.display
      typeName := v.typeName?
      presentationHint := some StackGraph.propertyHint
      variablesReference := 0 }
  | .table keys =>
    { name := name
      value := ""
      typeName := some (if keys.all Key.isIndex then "array" else "object")
      presentationHint := some StackGraph.propertyHint
      variablesReference := if keys.isEmpty then 0 else reference
      namedVariables := StackGraph.countOf (keys.countP fun k => !k.isIndex)
      indexedVariables := StackGraph.countOf (keys.countP Key.isIndex) }

end Reading

namespace StackGraph

-- ---------------------------------------------------------------------------
-- Looking up
-- ---------------------------------------------------------------------------

@[simp] theorem frames_put (g : StackGraph) (id : UInt32) (e : VariableEntry) :
    (g.put id e).frames = g.frames := rfl

@[simp] theorem minted_put (g : StackGraph) (id : UInt32) (e : VariableEntry) :
    (g.put id e).minted = g.minted := rfl

@[simp] theorem frames_enterChildren (g : StackGraph) (parent : UInt32)
    (keys : List VariableKey) : (g.enterChildren parent keys).2.frames = g.frames := rfl

@[simp] theorem minted_enterChildren (g : StackGraph) (parent : UInt32)
    (keys : List VariableKey) :
    (g.enterChildren parent keys).2.minted = g.minted + keys.length := rfl

theorem frame?_congr {g g' : StackGraph} (h : g'.frames = g.frames) (x : UInt32) :
    g'.frame? x = g.frame? x := by
  simp [frame?, h]

theorem getElem?_insert (vs : Std.TreeMap UInt32 VariableEntry) (id x : UInt32)
    (e : VariableEntry) : (vs.insert id e)[x]? = if x = id then some e else vs[x]? := by
  simp only [Std.TreeMap.getElem?_insert, Std.LawfulEqCmp.compare_eq_iff_eq, eq_comm (a := id)]

theorem getElem?_put (g : StackGraph) (id x : UInt32) (e : VariableEntry) :
    (g.put id e).arena[x]? = if x = id then some e else g.arena[x]? :=
  getElem?_insert ..

theorem toNat_ofNat {n : Nat} (h : n < 2 ^ 32) : (UInt32.ofNat n).toNat = n :=
  UInt32.toNat_ofNat_of_lt' h

theorem ofNat_ne {m n : Nat} (hlt : m < n) (hround : n < m + 2 ^ 32) :
    UInt32.ofNat m ≠ UInt32.ofNat n := by
  intro h
  have := congrArg UInt32.toNat h
  rw [UInt32.toNat_ofNat', UInt32.toNat_ofNat'] at this
  omega

structure Vacant (g : StackGraph) (n : Nat) : Prop where
  few : n ≤ 2 ^ 32
  unused : ∀ i < n, g.arena[UInt32.ofNat (g.minted + i + 1)]? = none

theorem getElem?_enterChildren {g : StackGraph} {parent : UInt32} {keys : List VariableKey}
    (hvacant : g.Vacant keys.length) (x : UInt32) (e : VariableEntry) :
    (g.enterChildren parent keys).2.arena[x]? = some e ↔
      g.arena[x]? = some e ∨
      ∃ i key, keys[i]? = some key ∧ x = .ofNat (g.minted + i + 1) ∧
        e = { key := key, parent := .variable parent } := by
  obtain ⟨m, frames, vs⟩ := g
  obtain ⟨hfew, hunused⟩ := hvacant
  simp only [enterChildren] at *
  induction keys generalizing m vs with
  | nil => simp [numbered]
  | cons key keys ih =>
    simp only [List.length_cons] at hfew hunused
    have hshift (i : Nat) : m + 1 + i + 1 = m + (i + 1) + 1 := by omega
    have hrest (f : VariableEntry) (i : Nat) (hi : i < keys.length) :
        (vs.insert (UInt32.ofNat (m + 1)) f)[UInt32.ofNat (m + 1 + i + 1)]? = none := by
      rw [getElem?_insert, if_neg (ofNat_ne (by omega) (by omega)).symm, hshift]
      exact hunused (i + 1) (by omega)
    rw [numbered, List.foldl_cons, ih (m + 1) _ (by omega) (hrest _), getElem?_insert]
    constructor
    · rintro (h | ⟨i, k, hk, rfl, rfl⟩)
      · split at h
        · rename_i hx
          cases h
          exact .inr ⟨0, key, rfl, hx, rfl⟩
        · exact .inl h
      · exact .inr ⟨i + 1, k, hk, by rw [hshift], rfl⟩
    · rintro (h | ⟨i, k, hk, rfl, rfl⟩)
      · have hx : x ≠ UInt32.ofNat (m + 1) := by
          rintro rfl
          cases (hunused 0 (by omega)).symm.trans h
        rw [if_neg hx]
        exact .inl h
      · cases i with
        | zero =>
          obtain rfl : key = k := by simpa using hk
          exact .inl (by simp)
        | succ i => exact .inr ⟨i, k, by simpa using hk, by rw [hshift], rfl⟩

theorem enterChildren_ids (g : StackGraph) (parent : UInt32) (keys : List VariableKey) :
    (g.enterChildren parent keys).1 =
      (List.range keys.length).map fun i => .ofNat (g.minted + i + 1) := by
  apply List.ext_getElem?
  intro i
  rw [enterChildren, List.getElem?_map, getElem?_numbered, List.getElem?_map]
  by_cases hi : i < keys.length
  · simp [List.getElem?_range hi, List.getElem?_eq_getElem hi]
  · rw [List.getElem?_eq_none (Nat.le_of_not_lt hi), List.getElem?_eq_none (by simpa using hi)]
    rfl

def attach (g : StackGraph) (id : UInt32) (e : VariableEntry) (keys : List VariableKey) :
    StackGraph :=
  (g.enterChildren id keys).2.put id { e with children := (g.enterChildren id keys).1 }

theorem getElem?_attach_of_vacant {g : StackGraph} {id : UInt32} (entry : VariableEntry)
    {keys : List VariableKey} (hvacant : g.Vacant keys.length)
    (hid : ∀ i < keys.length, id ≠ .ofNat (g.minted + i + 1)) (x : UInt32) (e : VariableEntry) :
    (g.attach id entry keys).arena[x]? = some e ↔
      (x = id ∧ e = { entry with children := (g.enterChildren id keys).1 }) ∨
      (x ≠ id ∧ g.arena[x]? = some e) ∨
      ∃ i key, keys[i]? = some key ∧ x = .ofNat (g.minted + i + 1) ∧
        e = { key := key, parent := .variable id } := by
  rw [attach, getElem?_put]
  split
  · rename_i hx
    subst hx
    constructor
    · intro h
      exact .inl ⟨rfl, (Option.some.inj h).symm⟩
    · rintro (⟨-, rfl⟩ | ⟨h, -⟩ | ⟨i, key, hk, hx, -⟩)
      · rfl
      · exact absurd rfl h
      · exact absurd hx (hid i (List.getElem?_eq_some_iff.1 hk).1)
  · rename_i hx
    rw [getElem?_enterChildren hvacant]
    simp [hx]

theorem vacant_of_bounded {g : StackGraph} {n : Nat} (hb : g.minted + n < 2 ^ 32)
    (hold : ∀ (x : UInt32) e, g.arena[x]? = some e → x.toNat ≤ g.minted) : g.Vacant n where
  few := by omega
  unused i hi := Option.eq_none_iff_forall_not_mem.2 fun e he => by
    have := hold _ _ he
    rw [toNat_ofNat (by omega)] at this
    omega

theorem ne_of_bounded {g : StackGraph} {n : Nat} (hb : g.minted + n < 2 ^ 32) {id : UInt32}
    (hid : id.toNat ≤ g.minted) (i : Nat) (hi : i < n) : id ≠ .ofNat (g.minted + i + 1) := by
  rintro rfl
  rw [toNat_ofNat (by omega)] at hid
  omega

theorem getElem?_attach {g : StackGraph} {id : UInt32} (entry : VariableEntry)
    {keys : List VariableKey} (hb : g.minted + keys.length < 2 ^ 32)
    (hold : ∀ (x : UInt32) e, g.arena[x]? = some e → x.toNat ≤ g.minted)
    (hid : id.toNat ≤ g.minted) (x : UInt32) (e : VariableEntry) :
    (g.attach id entry keys).arena[x]? = some e ↔
      (x = id ∧ e = { entry with children := (g.enterChildren id keys).1 }) ∨
      (x ≠ id ∧ g.arena[x]? = some e) ∨
      ∃ i key, keys[i]? = some key ∧ x = .ofNat (g.minted + i + 1) ∧
        e = { key := key, parent := .variable id } :=
  getElem?_attach_of_vacant entry (vacant_of_bounded hb hold) (ne_of_bounded hb hid) x e

-- ---------------------------------------------------------------------------
-- Well-formed graphs
-- ---------------------------------------------------------------------------

/-- How a variable is linked to its parent, which is known by a smaller number and lists it. -/
inductive Linked (g : StackGraph) (x : UInt32) (e : VariableEntry) : Prop
  | locals {id : UInt32} {f : FrameEntry} : e.key = .locals → e.parent = .frame id →
      g.frame? id = some f → f.locals = some x → Linked g x e
  | slot {name : String} {n root : UInt32} {r : VariableEntry} : e.key = .slot name n →
      e.parent = .variable root → root < x → g.arena[root]? = some r → r.key = .locals →
      x ∈ r.children → Linked g x e
  | entry {key : Key} {p : UInt32} {r : VariableEntry} : e.key = .entry key →
      e.parent = .variable p → p < x → g.arena[p]? = some r → r.key ≠ .locals →
      x ∈ r.children → Linked g x e

structure Sound (g : StackGraph) : Prop where
  bounded : g.minted < 2 ^ 32
  /-- Frames are numbered one after the other, innermost first. -/
  frames : ∀ entries, g.frames = some entries → ∃ base, base + entries.length ≤ g.minted ∧
    ∀ (i : Nat) (f : FrameEntry), entries[i]? = some f →
      f.level = .ofNat i ∧ f.frame.id = .ofNat (base + i + 1)
  /-- Variables have numbers of their own that were given out. -/
  numbers : ∀ (x : UInt32) (e : VariableEntry), g.arena[x]? = some e →
    0 < x.toNat ∧ x.toNat ≤ g.minted ∧ g.frame? x = none
  linked : ∀ (x : UInt32) (e : VariableEntry), g.arena[x]? = some e → g.Linked x e
  children : ∀ (x : UInt32) (e : VariableEntry), g.arena[x]? = some e →
    e.children.Nodup ∧
      ∀ c ∈ e.children, ∃ ce : VariableEntry, g.arena[c]? = some ce ∧ ce.parent = .variable x
  unresolved : ∀ (x : UInt32) (e : VariableEntry), g.arena[x]? = some e →
    e.resolved = none → e.children = [] ∧ e.key ≠ .locals

/-- Where locals were asked for, they are in the graph as well. -/
structure WellFormed (g : StackGraph) : Prop extends g.Sound where
  roots : ∀ (id : UInt32) (f : FrameEntry) (root : UInt32), g.frame? id = some f →
    f.locals = some root →
      ∃ e : VariableEntry, g.arena[root]? = some e ∧ e.key = .locals ∧ e.parent = .frame id

theorem wellFormed_new {minted : Nat} (h : minted < 2 ^ 32) :
    ({ minted := minted } : StackGraph).WellFormed where
  bounded := h
  frames := by simp
  numbers := by simp
  linked := by simp
  children := by simp
  unresolved := by simp
  roots := by simp [frame?]

theorem mem_of_frame? {g : StackGraph} {x : UInt32} {f : FrameEntry} (h : g.frame? x = some f) :
    ∃ entries, g.frames = some entries ∧ f ∈ entries ∧ f.frame.id = x := by
  obtain ⟨m, frames, vs⟩ := g
  cases frames with
  | none => simp [frame?] at h
  | some entries =>
    have hid := List.find?_some h
    exact ⟨entries, rfl, List.mem_of_find?_eq_some h, by simpa using hid⟩

theorem Sound.frame?_bounds {g : StackGraph} (hg : g.Sound) {x : UInt32} {f : FrameEntry}
    (h : g.frame? x = some f) : 0 < x.toNat ∧ x.toNat ≤ g.minted := by
  obtain ⟨entries, he, hf, rfl⟩ := mem_of_frame? h
  obtain ⟨base, hbase, hall⟩ := hg.frames entries he
  obtain ⟨i, hi, hif⟩ := List.mem_iff_getElem.1 hf
  have hb := hg.bounded
  rw [(hall i f (by rw [← hif, List.getElem?_eq_getElem hi])).2, toNat_ofNat (by omega)]
  omega

/-- What stays as it is once it is in the graph. -/
structure Extends (g g' : StackGraph) : Prop where
  minted : g.minted ≤ g'.minted
  frame : ∀ (x : UInt32) (f : FrameEntry), g.frame? x = some f →
    ∃ f', g'.frame? x = some f' ∧ f'.level = f.level ∧ f'.frame = f.frame ∧
      ∀ r, f.locals = some r → f'.locals = some r
  entry : ∀ (x : UInt32) (e : VariableEntry), g.arena[x]? = some e →
    ∃ e' : VariableEntry, g'.arena[x]? = some e' ∧ e'.key = e.key ∧ e'.parent = e.parent ∧
    ∀ r, e.resolved = some r → e'.resolved = some r ∧ e'.children = e.children

theorem Extends.refl (g : StackGraph) : Extends g g where
  minted := Nat.le_refl _
  frame _ f h := ⟨f, h, rfl, rfl, fun _ => id⟩
  entry _ e h := ⟨e, h, rfl, rfl, fun _ hr => ⟨hr, rfl⟩⟩

theorem Extends.trans {g g' g'' : StackGraph} (h : Extends g g') (h' : Extends g' g'') :
    Extends g g'' where
  minted := Nat.le_trans h.minted h'.minted
  frame x f hf := by
    obtain ⟨f', hf', hl, hr, hc⟩ := h.frame x f hf
    obtain ⟨f'', hf'', hl', hr', hc'⟩ := h'.frame x f' hf'
    exact ⟨f'', hf'', hl'.trans hl, hr'.trans hr, fun r h => hc' r (hc r h)⟩
  entry x e he := by
    obtain ⟨e', he', hk, hp, hr⟩ := h.entry x e he
    obtain ⟨e'', he'', hk', hp', hr'⟩ := h'.entry x e' he'
    refine ⟨e'', he'', hk'.trans hk, hp'.trans hp, fun r h => ?_⟩
    obtain ⟨h, hc⟩ := hr r h
    obtain ⟨h', hc'⟩ := hr' r h
    exact ⟨h', hc'.trans hc⟩

-- ---------------------------------------------------------------------------
-- Entering frames
-- ---------------------------------------------------------------------------

def advance (g : StackGraph) (n : Nat) : StackGraph := { g with minted := g.minted + n }

theorem advance_enterFrame (g : StackGraph) (level : UInt32) (info : FrameInfo) (n : Nat) :
    (g.enterFrame level info).2.advance n = g.advance (n + 1) := by
  rw [advance, advance, enterFrame, Nat.add_assoc, Nat.add_comm 1]

def entriesFrom (g : StackGraph) (level : UInt32) : List FrameInfo → List FrameEntry
  | [] => []
  | info :: outer =>
    (g.enterFrame level info).1 :: (g.enterFrame level info).2.entriesFrom (level + 1) outer

def enterFrames (g : StackGraph) (infos : List FrameInfo) : List FrameEntry × StackGraph :=
  (g.advance infos.length).keepFrames (g.entriesFrom 0 infos)

theorem getElem?_entriesFrom (g : StackGraph) (level : UInt32) (infos : List FrameInfo) (i : Nat) :
    (g.entriesFrom level infos)[i]? = infos[i]?.map fun info =>
      { level := level + .ofNat i, frame := info.record (.ofNat (g.minted + i + 1)) } := by
  induction infos generalizing g level i with
  | nil => rfl
  | cons info outer ih =>
    cases i with
    | zero => simp [entriesFrom, enterFrame]
    | succ i =>
      have hlevel : level + 1 + .ofNat i = level + .ofNat (i + 1) := by
        rw [UInt32.add_assoc, UInt32.add_comm 1, UInt32.ofNat_add, UInt32.ofNat_one]
      have hnumber : g.minted + 1 + i + 1 = g.minted + (i + 1) + 1 := by omega
      rw [entriesFrom, List.getElem?_cons_succ, ih, hlevel, List.getElem?_cons_succ, enterFrame,
        hnumber]

theorem length_entriesFrom (g : StackGraph) (level : UInt32) (infos : List FrameInfo) :
    (g.entriesFrom level infos).length = infos.length := by
  induction infos generalizing g level with
  | nil => rfl
  | cons info outer ih => rw [entriesFrom, List.length_cons, List.length_cons, ih]

theorem getElem?_enterFrames (g : StackGraph) (infos : List FrameInfo) (i : Nat) :
    (g.enterFrames infos).1[i]? = infos[i]?.map fun info =>
      { level := .ofNat i, frame := info.record (.ofNat (g.minted + i + 1)) } := by
  rw [enterFrames, keepFrames, getElem?_entriesFrom, UInt32.zero_add]

theorem length_enterFrames (g : StackGraph) (infos : List FrameInfo) :
    (g.enterFrames infos).1.length = infos.length :=
  length_entriesFrom g 0 infos

theorem frames_enterFrames (g : StackGraph) (infos : List FrameInfo) :
    (g.enterFrames infos).2.frames = some (g.enterFrames infos).1 := rfl

theorem frame?_enterFrames {g : StackGraph} {infos : List FrameInfo} {x : UInt32}
    {f : FrameEntry} (h : (g.enterFrames infos).2.frame? x = some f) :
    ∃ i info, infos[i]? = some info ∧ x = .ofNat (g.minted + i + 1) ∧
      f = { level := .ofNat i, frame := info.record x } := by
  obtain ⟨entries, he, hf, rfl⟩ := mem_of_frame? h
  rw [frames_enterFrames] at he
  cases he
  obtain ⟨i, hi⟩ := List.mem_iff_getElem?.1 hf
  rw [getElem?_enterFrames] at hi
  obtain ⟨info, hinfo, rfl⟩ := Option.map_eq_some_iff.1 hi
  exact ⟨i, info, hinfo, rfl, rfl⟩

theorem WellFormed.enterFrames {g : StackGraph} (hg : g.WellFormed) {infos : List FrameInfo}
    (hn : g.frames = none) (hb : (g.enterFrames infos).2.minted < 2 ^ 32) :
    (g.enterFrames infos).2.WellFormed ∧ g.Extends (g.enterFrames infos).2 := by
  have hb' : g.minted + infos.length < 2 ^ 32 := hb
  have hnone (x : UInt32) : g.frame? x = none := by simp [frame?, hn]
  have harena : (g.enterFrames infos).2.arena = g.arena := rfl
  have hfresh (x : UInt32) (hx : x.toNat ≤ g.minted) :
      (g.enterFrames infos).2.frame? x = none := by
    rw [Option.eq_none_iff_forall_not_mem]
    intro f hf
    obtain ⟨i, info, hi, rfl, -⟩ := frame?_enterFrames hf
    have := (List.getElem?_eq_some_iff.1 hi).1
    rw [toNat_ofNat (by omega)] at hx
    omega
  refine ⟨⟨⟨hb, ?frames, ?numbers, ?linked, ?children, ?unresolved⟩, ?roots⟩,
    ⟨Nat.le_add_right _ _, ?frame, ?entry⟩⟩
  case frames =>
    intro entries he
    rw [frames_enterFrames] at he
    cases he
    refine ⟨g.minted, ?_, fun i f hi => ?_⟩
    · rw [length_enterFrames]
      exact Nat.le_refl _
    · rw [getElem?_enterFrames] at hi
      obtain ⟨info, -, rfl⟩ := Option.map_eq_some_iff.1 hi
      exact ⟨rfl, rfl⟩
  case numbers =>
    intro x e he
    obtain ⟨hpos, hle, -⟩ := hg.numbers x e he
    exact ⟨hpos, Nat.le_trans hle (Nat.le_add_right _ _), hfresh x hle⟩
  case linked =>
    intro x e he
    cases hg.linked x e he with
    | locals _ _ hf _ => simp [hnone] at hf
    | slot hk hp hlt hr hl hm => exact .slot hk hp hlt hr hl hm
    | entry hk hp hlt hr hl hm => exact .entry hk hp hlt hr hl hm
  case children => exact hg.children
  case unresolved => exact hg.unresolved
  case roots =>
    intro id f root hf hr
    obtain ⟨i, info, -, -, rfl⟩ := frame?_enterFrames hf
    simp at hr
  case frame => intro x f hf; simp [hnone] at hf
  case entry => exact fun x e he => ⟨e, he, rfl, rfl, fun _ hr => ⟨hr, rfl⟩⟩

theorem WellFormed.advance {g : StackGraph} (hg : g.WellFormed) {n : Nat}
    (hb : (g.advance n).minted < 2 ^ 32) : (g.advance n).WellFormed where
  bounded := hb
  frames entries he := by
    obtain ⟨base, hbase, hall⟩ := hg.frames entries he
    exact ⟨base, Nat.le_trans hbase (Nat.le_add_right _ _), hall⟩
  numbers x e he := by
    obtain ⟨hpos, hle, hframe⟩ := hg.numbers x e he
    exact ⟨hpos, Nat.le_trans hle (Nat.le_add_right _ _), hframe⟩
  linked x e he := by
    cases hg.linked x e he with
    | locals hk hp hf hl => exact .locals hk hp hf hl
    | slot hk hp hlt hr hl hm => exact .slot hk hp hlt hr hl hm
    | entry hk hp hlt hr hl hm => exact .entry hk hp hlt hr hl hm
  children := hg.children
  unresolved := hg.unresolved
  roots := hg.roots

-- ---------------------------------------------------------------------------
-- Entering a variable with its children
-- ---------------------------------------------------------------------------

@[simp] theorem frames_attach (g : StackGraph) (id : UInt32) (e : VariableEntry)
    (keys : List VariableKey) : (g.attach id e keys).frames = g.frames := rfl

@[simp] theorem minted_attach (g : StackGraph) (id : UInt32) (e : VariableEntry)
    (keys : List VariableKey) : (g.attach id e keys).minted = g.minted + keys.length := rfl

theorem getElem?_childIds (g : StackGraph) (id : UInt32) {keys : List VariableKey} {i : Nat}
    {key : VariableKey} (h : keys[i]? = some key) :
    (g.enterChildren id keys).1[i]? = some (.ofNat (g.minted + i + 1)) := by
  obtain ⟨hi, -⟩ := List.getElem?_eq_some_iff.1 h
  simp [enterChildren_ids, List.getElem?_range hi]

theorem nodup_childIds {g : StackGraph} (id : UInt32) {keys : List VariableKey}
    (hb : g.minted + keys.length < 2 ^ 32) : (g.enterChildren id keys).1.Nodup := by
  rw [enterChildren_ids]
  refine List.Nodup.map_on ?_ List.nodup_range
  intro i hi j hj h
  rw [List.mem_range] at hi hj
  have := congrArg UInt32.toNat h
  rw [toNat_ofNat (by omega), toNat_ofNat (by omega)] at this
  omega

theorem Sound.attach {g : StackGraph} (hg : g.Sound) {id : UInt32} {e : VariableEntry}
    {keys : List VariableKey} (hb : g.minted + keys.length < 2 ^ 32) (hpos : 0 < id.toNat)
    (hle : id.toNat ≤ g.minted) (hframe : g.frame? id = none) (hlinked : g.Linked id e)
    (hold : ∀ old, g.arena[id]? = some old →
      old.resolved = none ∧ old.key = e.key ∧ old.parent = e.parent)
    (hkeys : ∀ key ∈ keys, e.key.Fits key) (hresolved : e.resolved ≠ none) :
    (g.attach id e keys).Sound := by
  have hlook := getElem?_attach e hb (fun x e he => (hg.numbers x e he).2.1) hle
  have hframes (x : UInt32) : (g.attach id e keys).frame? x = g.frame? x := frame?_congr rfl x
  have hself := (hlook id _).2 (.inl ⟨rfl, rfl⟩)
  -- A link in the old graph is one in the new graph: no variable was linked to `id` before.
  have hkept (x : UInt32) (f : VariableEntry) (h : g.Linked x f) :
      (g.attach id e keys).Linked x f := by
    have hne (p : UInt32) (r : VariableEntry) (hr : g.arena[p]? = some r) (hx : x ∈ r.children) :
        p ≠ id := by
      rintro rfl
      have := (hg.unresolved p r hr (hold r hr).1).1
      simp [this] at hx
    cases h with
    | locals hk hp hf hl => exact .locals hk hp ((hframes _).trans hf) hl
    | slot hk hp hlt hr hl hm =>
      exact .slot hk hp hlt ((hlook _ _).2 (.inr (.inl ⟨hne _ _ hr hm, hr⟩))) hl hm
    | entry hk hp hlt hr hl hm =>
      exact .entry hk hp hlt ((hlook _ _).2 (.inr (.inl ⟨hne _ _ hr hm, hr⟩))) hl hm
  refine ⟨hb, ?frames, ?numbers, ?linked, ?children, ?unresolved⟩
  case frames =>
    intro entries he
    obtain ⟨base, hbase, hall⟩ := hg.frames entries he
    exact ⟨base, Nat.le_trans hbase (Nat.le_add_right _ _), hall⟩
  case numbers =>
    intro x f hx
    rw [minted_attach, hframes]
    obtain ⟨rfl, -⟩ | ⟨-, hx⟩ | ⟨i, key, hk, rfl, -⟩ := (hlook x f).1 hx
    · exact ⟨hpos, by omega, hframe⟩
    · obtain ⟨hp, hl, hn⟩ := hg.numbers x f hx
      exact ⟨hp, by omega, hn⟩
    · have hi := (List.getElem?_eq_some_iff.1 hk).1
      have hx : (UInt32.ofNat (g.minted + i + 1)).toNat = g.minted + i + 1 :=
        toNat_ofNat (by omega)
      refine ⟨by omega, by omega, ?_⟩
      rw [Option.eq_none_iff_forall_not_mem]
      intro f hf
      have := (hg.frame?_bounds hf).2
      omega
  case linked =>
    intro x f hx
    obtain ⟨rfl, rfl⟩ | ⟨-, hx⟩ | ⟨i, key, hk, rfl, rfl⟩ := (hlook x f).1 hx
    · cases hkept x e hlinked with
      | locals hk hp hf hl => exact .locals hk hp hf hl
      | slot hk hp hlt hr hl hm => exact .slot hk hp hlt hr hl hm
      | entry hk hp hlt hr hl hm => exact .entry hk hp hlt hr hl hm
    · exact hkept x f (hg.linked x f hx)
    · have hi := (List.getElem?_eq_some_iff.1 hk).1
      have hlt : id < .ofNat (g.minted + i + 1) := by
        rw [UInt32.lt_iff_toNat_lt, toNat_ofNat (by omega)]
        omega
      have hmem := List.mem_of_getElem? (getElem?_childIds g id hk)
      have hfits := hkeys key (List.mem_of_getElem? hk)
      cases key with
      | locals => exact hfits.elim
      | slot name n => exact .slot rfl rfl hlt hself hfits hmem
      | entry key => exact .entry rfl rfl hlt hself hfits hmem
  case children =>
    intro x f hx
    obtain ⟨rfl, rfl⟩ | ⟨hne, hx⟩ | ⟨i, key, hk, rfl, rfl⟩ := (hlook x f).1 hx
    · refine ⟨nodup_childIds x hb, fun c hc => ?_⟩
      obtain ⟨i, hi⟩ := List.mem_iff_getElem?.1 hc
      obtain ⟨key, hkey⟩ : ∃ key, keys[i]? = some key := by
        have hl : i < keys.length := by
          simpa [enterChildren_ids] using (List.getElem?_eq_some_iff.1 hi).1
        exact ⟨_, List.getElem?_eq_getElem hl⟩
      rw [getElem?_childIds _ _ hkey] at hi
      cases hi
      exact ⟨_, (hlook _ _).2 (.inr (.inr ⟨i, key, hkey, rfl, rfl⟩)), rfl⟩
    · obtain ⟨hnd, hall⟩ := hg.children x f hx
      refine ⟨hnd, fun c hc => ?_⟩
      obtain ⟨ce, hce, hp⟩ := hall c hc
      by_cases hcid : c = id
      · subst hcid
        exact ⟨_, hself, (hold ce hce).2.2 ▸ hp⟩
      · exact ⟨ce, (hlook c ce).2 (.inr (.inl ⟨hcid, hce⟩)), hp⟩
    · exact ⟨.nil, by simp⟩
  case unresolved =>
    intro x f hx hr
    obtain ⟨rfl, rfl⟩ | ⟨-, hx⟩ | ⟨i, key, hk, rfl, rfl⟩ := (hlook x f).1 hx
    · exact absurd hr hresolved
    · exact hg.unresolved x f hx hr
    · refine ⟨rfl, fun hl => ?_⟩
      have hl : key = .locals := hl
      subst hl
      exact hkeys _ (List.mem_of_getElem? hk)

-- ---------------------------------------------------------------------------
-- Entering locals
-- ---------------------------------------------------------------------------

def slots (names : List String) : List VariableKey :=
  names.mapIdx fun i name => .slot name (.ofNatClamp (i + 1))

def localsEntry (id root : UInt32) (names : List String) : VariableEntry where
  key := .locals
  parent := .frame id
  resolved := some
    { name := VariableKey.locals.text
      value := ""
      variablesReference := root
      namedVariables := some (.ofNatClamp names.length) }

def rootAt (g : StackGraph) (id root : UInt32) : StackGraph :=
  { g with
    minted := g.minted + 1
    frames := g.frames.map fun entries => entries.map fun e =>
      if e.frame.id = id then { e with locals := some root } else e }

theorem enterLocals_eq (g : StackGraph) (id : UInt32) (names : List String) :
    g.enterLocals id names = (.ofNat (g.minted + 1),
      (g.rootAt id (.ofNat (g.minted + 1))).attach (.ofNat (g.minted + 1))
        (localsEntry id (.ofNat (g.minted + 1)) names) (slots names)) := rfl

theorem frame?_rootAt (g : StackGraph) (id root x : UInt32) :
    (g.rootAt id root).frame? x = (g.frame? x).map fun f =>
      if f.frame.id = id then { f with locals := some root } else f := by
  obtain ⟨m, frames, vs⟩ := g
  cases frames with
  | none => rfl
  | some entries =>
    have hp : ((fun f : FrameEntry => f.frame.id == x) ∘ fun e : FrameEntry =>
        if e.frame.id = id then { e with locals := some root } else e) =
        fun f => f.frame.id == x := by
      funext f
      simp only [Function.comp]
      split <;> rfl
    show (entries.map _).find? _ = (entries.find? _).map _
    rw [List.find?_map, hp]

theorem frame?_enterLocals {g : StackGraph} {id : UInt32} {f : FrameEntry}
    (hf : g.frame? id = some f) (names : List String) :
    (g.enterLocals id names).2.frame? id =
      some { f with locals := some (.ofNat (g.minted + 1)) } := by
  obtain ⟨-, -, -, rfl⟩ := mem_of_frame? hf
  rw [enterLocals_eq, frame?_congr (frames_attach ..), frame?_rootAt, hf, Option.map_some,
    if_pos rfl]

theorem fits_slots {names : List String} {key : VariableKey} (h : key ∈ slots names) :
    VariableKey.locals.Fits key := by
  obtain ⟨i, hi, rfl⟩ := List.mem_mapIdx.1 h
  exact rfl

theorem Sound.rootAt {g : StackGraph} (hg : g.Sound) {id : UInt32} {f : FrameEntry}
    (hb : g.minted + 1 < 2 ^ 32) (hf : g.frame? id = some f) (hn : f.locals = none)
    (root : UInt32) : (g.rootAt id root).Sound := by
  have hframe (x : UInt32) (h : g.frame? x = none) : (g.rootAt id root).frame? x = none := by
    rw [frame?_rootAt, h]
    rfl
  refine ⟨hb, ?frames, ?numbers, ?linked, hg.children, hg.unresolved⟩
  case frames =>
    intro entries he
    obtain ⟨entries', he', rfl⟩ := Option.map_eq_some_iff.1 he
    obtain ⟨base, hbase, hall⟩ := hg.frames entries' he'
    refine ⟨base, ?_, fun i f' hi => ?_⟩
    · rw [List.length_map]
      exact Nat.le_succ_of_le hbase
    · rw [List.getElem?_map] at hi
      obtain ⟨f₀, hf₀, rfl⟩ := Option.map_eq_some_iff.1 hi
      have := hall i f₀ hf₀
      split <;> exact this
  case numbers =>
    intro x e he
    obtain ⟨hpos, hle, hnone⟩ := hg.numbers x e he
    exact ⟨hpos, Nat.le_succ_of_le hle, hframe x hnone⟩
  case linked =>
    intro x e he
    cases hg.linked x e he with
    | locals hk hp hf' hl =>
      rename_i id' f'
      -- The frame of a root has its locals already, so it is not the frame at hand.
      have hne : f'.frame.id ≠ id := by
        rintro rfl
        obtain ⟨-, -, -, rfl⟩ := mem_of_frame? hf'
        rw [hf'] at hf
        cases hf
        rw [hn] at hl
        cases hl
      refine .locals hk hp ?_ hl
      rw [frame?_rootAt, hf']
      simp [hne]
    | slot hk hp hlt hr hl hm => exact .slot hk hp hlt hr hl hm
    | entry hk hp hlt hr hl hm => exact .entry hk hp hlt hr hl hm

theorem WellFormed.enterLocals {g : StackGraph} (hg : g.WellFormed) {id : UInt32}
    {names : List String} {f : FrameEntry} (hf : g.frame? id = some f) (hn : f.locals = none)
    (hb : (g.enterLocals id names).2.minted < 2 ^ 32) :
    (g.enterLocals id names).2.WellFormed ∧ g.Extends (g.enterLocals id names).2 := by
  rw [enterLocals_eq] at hb ⊢
  generalize hroot : UInt32.ofNat (g.minted + 1) = root at hb ⊢
  have hlen : (slots names).length = names.length := by simp [slots]
  have hb : g.minted + 1 + (slots names).length < 2 ^ 32 := hb
  have hnum : root.toNat = g.minted + 1 := by rw [← hroot, toNat_ofNat (by omega)]
  have hid : f.frame.id = id := (mem_of_frame? hf).choose_spec.2.2
  have hnone : g.frame? root = none := by
    rw [Option.eq_none_iff_forall_not_mem]
    intro f' hf'
    have := (hg.frame?_bounds hf').2
    omega
  have hfresh : g.arena[root]? = none := by
    rw [Option.eq_none_iff_forall_not_mem]
    intro e he
    have := (hg.numbers root e he).2.1
    omega
  have hat : (g.rootAt id root).frame? id = some { f with locals := some root } := by
    rw [frame?_rootAt, hf]
    simp [hid]
  have h₀ : (g.rootAt id root).Sound := hg.toSound.rootAt (by omega) hf hn root
  have hs : ((g.rootAt id root).attach root (localsEntry id root names) (slots names)).Sound := by
    refine h₀.attach hb (by omega) (Nat.le_of_eq hnum) ?_ (.locals rfl rfl hat rfl) ?_
      (fun key => fits_slots) (by simp [localsEntry])
    · rw [frame?_rootAt, hnone]
      rfl
    · intro old hold
      rw [show (g.rootAt id root).arena = g.arena from rfl, hfresh] at hold
      cases hold
  have hlook := getElem?_attach (localsEntry id root names) hb
    (fun x e he => (h₀.numbers x e he).2.1) (Nat.le_of_eq hnum)
  have hkept (x : UInt32) (e : VariableEntry) (he : g.arena[x]? = some e) :
      ((g.rootAt id root).attach root (localsEntry id root names) (slots names)).arena[x]? =
        some e := by
    refine (hlook x e).2 (.inr (.inl ⟨?_, he⟩))
    rintro rfl
    rw [hfresh] at he
    cases he
  refine ⟨⟨hs, ?roots⟩, ⟨Nat.le_trans (Nat.le_succ _) (Nat.le_add_right _ _), ?frame, ?entry⟩⟩
  case roots =>
    intro x f' r hf' hr
    rw [frame?_congr (frames_attach ..), frame?_rootAt] at hf'
    obtain ⟨f₀, hf₀, rfl⟩ := Option.map_eq_some_iff.1 hf'
    obtain ⟨-, -, -, rfl⟩ := mem_of_frame? hf₀
    split at hr
    · rename_i hx
      cases hr
      exact ⟨_, (hlook _ _).2 (.inl ⟨rfl, rfl⟩), rfl, by rw [hx]; rfl⟩
    · obtain ⟨e, he, hk, hp⟩ := hg.roots _ f₀ r hf₀ hr
      exact ⟨e, hkept r e he, hk, hp⟩
  case frame =>
    intro x f' hf'
    rw [frame?_congr (frames_attach ..), frame?_rootAt, hf']
    refine ⟨_, rfl, ?_⟩
    dsimp only
    split
    · rename_i hx
      refine ⟨rfl, rfl, fun r hr => ?_⟩
      obtain ⟨-, -, -, rfl⟩ := mem_of_frame? hf'
      rw [hx, hf] at hf'
      cases hf'
      rw [hn] at hr
      cases hr
    · exact ⟨rfl, rfl, fun _ h => h⟩
  case entry => exact fun x e he => ⟨e, hkept x e he, rfl, rfl, fun _ h => ⟨h, rfl⟩⟩

-- ---------------------------------------------------------------------------
-- Entering what was read
-- ---------------------------------------------------------------------------

theorem settle_eq (g : StackGraph) (id : UInt32) {e : VariableEntry} (h : e.children = [])
    (reading : Reading) :
    g.settle id e reading = (reading.record e.key.text id,
      g.attach id { e with resolved := some (reading.record e.key.text id) }
        (reading.keys.map .entry)) := by
  obtain ⟨key, parent, resolved, children⟩ := e
  cases reading <;> simp_all [settle, attach, Reading.record, Reading.keys, enterChildren, numbered]

theorem WellFormed.settle {g : StackGraph} (hg : g.WellFormed) {id : UInt32} {e : VariableEntry}
    {reading : Reading} (he : g.arena[id]? = some e) (hr : e.resolved = none)
    (hb : (g.settle id e reading).2.minted < 2 ^ 32) :
    (g.settle id e reading).2.WellFormed ∧ g.Extends (g.settle id e reading).2 := by
  obtain ⟨hc, hne⟩ := hg.unresolved id e he hr
  obtain ⟨hpos, hle, hframe⟩ := hg.numbers id e he
  rw [settle_eq g id hc] at hb ⊢
  generalize hrec : reading.record e.key.text id = record at hb ⊢
  have hb : g.minted + (reading.keys.map VariableKey.entry).length < 2 ^ 32 := hb
  have hlook := getElem?_attach { e with resolved := some record } hb
    (fun x e he => (hg.numbers x e he).2.1) hle
  have hs : (g.attach id { e with resolved := some record } (reading.keys.map .entry)).Sound := by
    refine hg.attach hb hpos hle hframe ?_ ?_ ?_ (by simp)
    · cases hg.linked id e he with
      | locals hk => exact absurd hk hne
      | slot hk hp hlt hr hl hm => exact .slot hk hp hlt hr hl hm
      | entry hk hp hlt hr hl hm => exact .entry hk hp hlt hr hl hm
    · intro old hold
      rw [he] at hold
      cases hold
      exact ⟨hr, rfl, rfl⟩
    · intro key hkey
      obtain ⟨k, -, rfl⟩ := List.mem_map.1 hkey
      exact hne
  refine ⟨⟨hs, ?roots⟩, ⟨Nat.le_add_right _ _, ?frame, ?entry⟩⟩
  case roots =>
    intro x f root hf hroot
    rw [frame?_congr (frames_attach ..)] at hf
    obtain ⟨r, hr, hk, hp⟩ := hg.roots x f root hf hroot
    refine ⟨r, (hlook root r).2 (.inr (.inl ⟨?_, hr⟩)), hk, hp⟩
    rintro rfl
    rw [he] at hr
    cases hr
    exact hne hk
  case frame =>
    intro x f hf
    exact ⟨f, (frame?_congr (frames_attach ..) x).trans hf, rfl, rfl, fun _ h => h⟩
  case entry =>
    intro x f hx
    by_cases hxid : x = id
    · subst hxid
      rw [he] at hx
      cases hx
      refine ⟨_, (hlook x _).2 (.inl ⟨rfl, rfl⟩), rfl, rfl, fun r h => ?_⟩
      rw [hr] at h
      cases h
    · exact ⟨f, (hlook x f).2 (.inr (.inl ⟨hxid, hx⟩)), rfl, rfl, fun _ h => ⟨h, rfl⟩⟩

end StackGraph

end DebugAdapter
