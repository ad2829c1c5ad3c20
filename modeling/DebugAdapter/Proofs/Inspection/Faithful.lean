import DebugAdapter.Proofs.Inspection.Growth
import DebugAdapter.Proofs.Inspection.Places

/-!
# Graphs that tell the truth

`Answers.children` is what an interpreter whose answers stay the same would list at a location, were
it asked at once. `Faithful` compares a graph with it: the frames, the children of what was opened
and the records. An empty graph is faithful, and growth keeps it so.
-/

namespace DebugAdapter

open Protocol

variable {σ : Type} {it : Interpreter σ} {answers : Answers}

namespace Answers

def children (answers : Answers) : Location → List (VariableKey × Place)
  | .frame _ => []
  | .locals level => ((answers (.locals level)).getD []).mapIdx fun i name =>
      (.slot name (.ofNatClamp (i + 1)), ⟨level, .ofNatClamp (i + 1), []⟩)
  | .value place => (answers.reading place).keys.map fun key => (.entry key, place.extend key)

theorem slots_eq {level : UInt32} {names : List String}
    (h : answers (.locals level) = some names) :
    StackGraph.slots names = (answers.children (.locals level)).map Prod.fst := by
  apply List.ext_getElem?
  intro i
  simp [children, h, StackGraph.slots, List.getElem?_mapIdx, Function.comp_def]

theorem map_entry_eq (place : Place) :
    (answers.reading place).keys.map VariableKey.entry =
      (answers.children (.value place)).map Prod.fst := by
  simp [children]

end Answers

def leveled (infos : List FrameInfo) : List (UInt32 × FrameInfo) :=
  infos.mapIdx fun i info => (.ofNat i, info)

namespace StackGraph

variable {g g' : StackGraph}

-- ---------------------------------------------------------------------------
-- Children by their keys
-- ---------------------------------------------------------------------------

def Keyed (g : StackGraph) : List UInt32 → List VariableKey → Prop :=
  List.Forall₂ fun id key => ∃ e : VariableEntry, g.arena[id]? = some e ∧ e.key = key

theorem Keyed.mono (he : g.Extends g') {ids : List UInt32} {keys : List VariableKey}
    (h : g.Keyed ids keys) : g'.Keyed ids keys := by
  refine List.Forall₂.imp ?_ h
  rintro id key ⟨e, hid, rfl⟩
  obtain ⟨e', he', hk, -⟩ := he.entry id e hid
  exact ⟨e', he', hk⟩

theorem keyed_attach {id : UInt32} {e : VariableEntry} {keys : List VariableKey}
    (hvacant : g.Vacant keys.length) (hid : ∀ i < keys.length, id ≠ .ofNat (g.minted + i + 1)) :
    (g.attach id e keys).Keyed (g.enterChildren id keys).1 keys := by
  refine List.forall₂_iff_get.2 ⟨by simp [enterChildren_ids], fun i hi hk => ?_⟩
  have hkey : keys[i]? = some keys[i] := List.getElem?_eq_getElem hk
  have hget := getElem?_childIds g id hkey
  rw [List.getElem?_eq_getElem hi] at hget
  refine ⟨_, (getElem?_attach_of_vacant e hvacant hid _ _).2
    (.inr (.inr ⟨i, keys[i], hkey, ?_, rfl⟩)), rfl⟩
  simpa using hget

-- ---------------------------------------------------------------------------
-- Faithful graphs
-- ---------------------------------------------------------------------------

/-- What is recorded of a variable is what would be read of it. -/
inductive Recorded (answers : Answers) (g : StackGraph) (x : UInt32) (e : VariableEntry)
    (record : Variable) : Prop
  | locals {id : UInt32} {f : FrameEntry} {names : List String} : e.parent = .frame id →
      g.frame? id = some f → answers (.locals f.level) = some names →
      g.Keyed e.children ((answers.children (.locals f.level)).map Prod.fst) →
      Recorded answers g x e record
  | value {p : UInt32} {place : Place} : e.parent = .variable p → g.Denotes x (.value place) →
      record = (answers.reading place).record e.key.text x →
      g.Keyed e.children ((answers.children (.value place)).map Prod.fst) →
      Recorded answers g x e record

structure Faithful (answers : Answers) (g : StackGraph) : Prop where
  frames : ∀ entries, g.frames = some entries → ∃ infos, answers.Stack infos ∧
    List.Forall₂ (fun (p : UInt32 × FrameInfo) (f : FrameEntry) =>
      f.level = p.1 ∧ f.frame = p.2.record f.frame.id) (leveled infos) entries
  records : ∀ (x : UInt32) (e : VariableEntry) (record : Variable), g.arena[x]? = some e →
    e.resolved = some record → Recorded answers g x e record

theorem faithful_new {minted : Nat} : ({ minted := minted } : StackGraph).Faithful answers where
  frames := by simp
  records := by simp

theorem Recorded.mono (he : g.Extends g') {x : UInt32} {e : VariableEntry} {record : Variable}
    (h : Recorded answers g x e record) : Recorded answers g' x e record := by
  cases h with
  | locals hp hf hnames hk =>
    obtain ⟨f', hf', hl, -⟩ := he.frame _ _ hf
    rw [← hl] at hnames hk
    exact .locals hp hf' hnames (hk.mono he)
  | value hp hd hr hk => exact .value hp (hd.mono he) hr (hk.mono he)

theorem Faithful.frames_rootAt (h : g.Faithful answers) (id root : UInt32)
    {entries : List FrameEntry} (he : (g.rootAt id root).frames = some entries) :
    ∃ infos, answers.Stack infos ∧ List.Forall₂ (fun (p : UInt32 × FrameInfo) (f : FrameEntry) =>
      f.level = p.1 ∧ f.frame = p.2.record f.frame.id) (leveled infos) entries := by
  obtain ⟨entries', he', rfl⟩ := Option.map_eq_some_iff.1 he
  obtain ⟨infos, hs, hall⟩ := h.frames entries' he'
  refine ⟨infos, hs, List.forall₂_map_right_iff.2 (hall.imp fun p f hf => ?_)⟩
  split <;> exact hf

theorem Faithful.enterFrames (h : g.Faithful answers) {infos : List FrameInfo}
    (hs : answers.Stack infos) (he : g.Extends (g.enterFrames infos).2) :
    (g.enterFrames infos).2.Faithful answers := by
  refine ⟨fun entries hentries => ⟨infos, hs, ?frames⟩, ?records⟩
  case frames =>
    rw [frames_enterFrames] at hentries
    have hlen : entries.length = infos.length := by
      rw [← Option.some.inj hentries, length_enterFrames]
    refine List.forall₂_iff_get.2 ⟨by simp [leveled, hlen], fun i hi hk => ?_⟩
    have hinfo : i < infos.length := by omega
    have hget := getElem?_enterFrames g infos i
    rw [Option.some.inj hentries, List.getElem?_eq_getElem hk,
      List.getElem?_eq_getElem hinfo] at hget
    have hf := Option.some.inj hget
    simp only [List.get_eq_getElem, hf, leveled, List.getElem_mapIdx]
    exact ⟨trivial, rfl⟩
  case records => exact fun x e record hx hr => (h.records x e record hx hr).mono he

theorem Faithful.records_attach {g₀ : StackGraph} (h : g₀.Faithful answers) {id : UInt32}
    {e : VariableEntry} {keys : List VariableKey} (hb : g.minted + keys.length < 2 ^ 32)
    (hold : ∀ (x : UInt32) e, g.arena[x]? = some e → x.toNat ≤ g.minted)
    (hid : id.toNat ≤ g.minted) (harena : g.arena = g₀.arena)
    (he : g₀.Extends (g.attach id e keys))
    (hself : ∀ record, e.resolved = some record → (g.attach id e keys).Keyed
      (g.enterChildren id keys).1 keys → Recorded answers (g.attach id e keys) id
        { e with children := (g.enterChildren id keys).1 } record)
    (x : UInt32) (f : VariableEntry) (record : Variable)
    (hf : (g.attach id e keys).arena[x]? = some f) (hr : f.resolved = some record) :
    Recorded answers (g.attach id e keys) x f record := by
  obtain ⟨rfl, rfl⟩ | ⟨-, hx⟩ | ⟨i, key, -, -, rfl⟩ := (getElem?_attach e hb hold hid x f).1 hf
  · exact hself record hr (keyed_attach (vacant_of_bounded hb hold) (ne_of_bounded hb hid))
  · rw [harena] at hx
    exact (h.records x f record hx hr).mono he
  · cases hr

theorem Faithful.enterLocals (h : g.Faithful answers) (hg : g.WellFormed) {id : UInt32}
    {f : FrameEntry} {names : List String} (hf : g.frame? id = some f)
    (hnames : answers (.locals f.level) = some names)
    (hb : (g.enterLocals id names).2.minted < 2 ^ 32)
    (he : g.Extends (g.enterLocals id names).2) :
    (g.enterLocals id names).2.Faithful answers := by
  have hself := frame?_enterLocals hf names
  rw [enterLocals_eq] at hb he hself ⊢
  have hb : g.minted + 1 + (slots names).length < 2 ^ 32 := hb
  have hroot : (UInt32.ofNat (g.minted + 1)).toNat = g.minted + 1 := toNat_ofNat (by omega)
  refine ⟨fun entries hentries => h.frames_rootAt id _ hentries, ?_⟩
  refine h.records_attach hb ?_ (Nat.le_of_eq hroot) rfl he fun record _ hkeyed => ?_
  · exact fun x e hx => Nat.le_succ_of_le (hg.numbers x e hx).2.1
  · refine .locals rfl hself hnames ?_
    rw [← Answers.slots_eq hnames]
    exact hkeyed

theorem Faithful.settle (h : g.Faithful answers) (hg : g.WellFormed) {id : UInt32}
    {e : VariableEntry} {place : Place} (he : g.arena[id]? = some e) (hr : e.resolved = none)
    (hplace : g.place? id = some place)
    (hb : (g.settle id e (answers.reading place)).2.minted < 2 ^ 32)
    (hext : g.Extends (g.settle id e (answers.reading place)).2) :
    (g.settle id e (answers.reading place)).2.Faithful answers := by
  obtain ⟨hc, hne⟩ := hg.unresolved id e he hr
  obtain ⟨p, hp⟩ := hg.exists_parent he hne
  have hd := ((place?_eq_some hg.toSound he hp).1 hplace).mono hext
  rw [settle_eq g id hc] at hb hext hd ⊢
  refine ⟨h.frames, ?_⟩
  refine h.records_attach hb (fun x e hx => (hg.numbers x e hx).2.1) (hg.numbers id e he).2.1 rfl
    hext fun record hrec hkeyed => ?_
  cases hrec
  refine .value hp hd rfl ?_
  rw [← Answers.map_entry_eq]
  exact hkeyed

-- ---------------------------------------------------------------------------
-- Growth
-- ---------------------------------------------------------------------------

theorem Grow.steady {st st' : StackGraph × σ} (h : Grow it st st')
    (hs : it.Steady answers st.2) : it.Steady answers st'.2 := by
  cases h with
  | frames _ h => exact (Interpreter.ensures_frames_steady.of_ok hs h).1
  | locals _ _ h => exact ((Interpreter.ensures_ask_steady _).of_ok hs h).1
  | closed _ _ h => exact ((Interpreter.ensures_ask_steady _).of_ok hs h).1
  | value _ _ _ h => exact ((Interpreter.ensures_read_steady _).of_ok hs h).1
  | lost => exact hs

theorem Grow.faithful {st st' : StackGraph × σ} (h : Grow it st st')
    (hs : it.Steady answers st.2) (hg : st.1.WellFormed) (hf : st.1.Faithful answers)
    (hb : st'.1.minted < 2 ^ 32) : st'.1.Faithful answers := by
  have hext := (h.wellFormed hg hb).2
  cases h with
  | frames _ hask =>
    have hframes := (Interpreter.ensures_frames_steady.of_ok hs hask).2
    exact hf.enterFrames (hframes.stack (Nat.lt_of_le_of_lt (Nat.le_add_left _ _) hb)) hext
  | locals hid _ hask =>
    exact hf.enterLocals hg hid ((Interpreter.ensures_ask_steady _).of_ok hs hask).2.symm hb hext
  | closed => exact hf
  | value he hr hplace hask =>
    obtain rfl := ((Interpreter.ensures_read_steady _).of_ok hs hask).2
    exact hf.settle hg he hr hplace hb hext
  | lost he hr hplace =>
    -- Every variable that is not resolved has a place.
    obtain ⟨p, hp⟩ := hg.exists_parent he (hg.unresolved _ _ he hr).2
    obtain ⟨place, hd⟩ := hg.exists_place he hp
    rw [hd.place? hg.toSound] at hplace
    cases hplace

/-- A well-formed and faithful graph, and an interpreter whose answers stay the same. -/
structure Mirrors (it : Interpreter σ) (answers : Answers) (st : StackGraph × σ) : Prop where
  steady : it.Steady answers st.2
  wellFormed : st.1.WellFormed
  faithful : st.1.Faithful answers

theorem Grows.mirrors {st st' : StackGraph × σ} (h : Grows it st st')
    (hm : Mirrors it answers st) (hb : st'.1.minted < 2 ^ 32) : Mirrors it answers st' := by
  induction h with
  | refl => exact hm
  | tail _ h ih =>
    obtain ⟨hs, hg, hf⟩ := ih (Nat.lt_of_le_of_lt h.minted_le hb)
    exact ⟨h.steady hs, (h.wellFormed hg hb).1, h.faithful hs hg hf hb⟩

end StackGraph

end DebugAdapter
