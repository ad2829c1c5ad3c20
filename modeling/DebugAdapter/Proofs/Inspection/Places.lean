import DebugAdapter.Proofs.Inspection.WellFormed

/-!
# What numbers stand for

A number stands for a frame, for the locals of one, or for the value at a place; `Denotes` says
which, link by link. In a well-formed graph a number stands for one thing only, it stands for the
same thing in every later graph, and the walk along the links finds it.
-/

namespace DebugAdapter

def Place.extend (place : Place) (key : Key) : Place := { place with keys := place.keys ++ [key] }

inductive Location where
  | frame (level : UInt32)
  | locals (level : UInt32)
  | value (place : Place)
deriving DecidableEq, Repr

namespace StackGraph

variable {g g' : StackGraph} {x : UInt32} {l l' : Location} {place : Place}

inductive Denotes (g : StackGraph) : UInt32 → Location → Prop
  | frame {x : UInt32} {f : FrameEntry} : g.frame? x = some f → Denotes g x (.frame f.level)
  | locals {x id : UInt32} {e : VariableEntry} {f : FrameEntry} : g.arena[x]? = some e →
      e.parent = .frame id → g.frame? id = some f → Denotes g x (.locals f.level)
  | slot {x root level n : UInt32} {name : String} {e : VariableEntry} : g.arena[x]? = some e →
      e.key = .slot name n → e.parent = .variable root → Denotes g root (.locals level) →
      Denotes g x (.value ⟨level, n, []⟩)
  | entry {x p : UInt32} {key : Key} {place : Place} {e : VariableEntry} :
      g.arena[x]? = some e → e.key = .entry key → e.parent = .variable p →
      Denotes g p (.value place) → Denotes g x (.value (place.extend key))

theorem Denotes.mono (he : g.Extends g') (h : g.Denotes x l) : g'.Denotes x l := by
  induction h with
  | frame hf =>
    obtain ⟨f', hf', hl, -, -⟩ := he.frame _ _ hf
    rw [← hl]
    exact .frame hf'
  | locals hx hp hf =>
    obtain ⟨f', hf', hl, -, -⟩ := he.frame _ _ hf
    obtain ⟨e', he', -, hp', -⟩ := he.entry _ _ hx
    rw [← hl]
    exact .locals he' (hp'.trans hp) hf'
  | slot hx hk hp _ ih =>
    obtain ⟨e', he', hk', hp', -⟩ := he.entry _ _ hx
    exact .slot he' (hk'.trans hk) (hp'.trans hp) ih
  | entry hx hk hp _ ih =>
    obtain ⟨e', he', hk', hp', -⟩ := he.entry _ _ hx
    exact .entry he' (hk'.trans hk) (hp'.trans hp) ih

theorem Sound.parent_lt (hg : g.Sound) {e : VariableEntry} {p : UInt32}
    (he : g.arena[x]? = some e) (hp : e.parent = .variable p) : p < x := by
  cases hg.linked x e he with
  | locals _ hp' => cases hp.symm.trans hp'
  | slot _ hp' hlt => cases hp.symm.trans hp'; exact hlt
  | entry _ hp' hlt => cases hp.symm.trans hp'; exact hlt

theorem Sound.exists_parent (hg : g.Sound) {e : VariableEntry} (he : g.arena[x]? = some e)
    (hne : e.key ≠ .locals) : ∃ p, e.parent = .variable p := by
  cases hg.linked x e he with
  | locals hk => exact absurd hk hne
  | slot _ hp => exact ⟨_, hp⟩
  | entry _ hp => exact ⟨_, hp⟩

theorem Sound.exists_frame (hg : g.Sound) {e : VariableEntry} (he : g.arena[x]? = some e)
    (hk : e.key = .locals) : ∃ id f, e.parent = .frame id ∧ g.frame? id = some f := by
  cases hg.linked x e he with
  | locals _ hp hf => exact ⟨_, _, hp, hf⟩
  | slot hk' => cases hk.symm.trans hk'
  | entry hk' => cases hk.symm.trans hk'

theorem Denotes.unique (hg : g.Sound) (h : g.Denotes x l) (h' : g.Denotes x l') : l = l' := by
  have hvar {x : UInt32} {e : VariableEntry} {f : FrameEntry} (he : g.arena[x]? = some e)
      (hf : g.frame? x = some f) : False := by
    have := (hg.numbers x e he).2.2
    rw [hf] at this
    cases this
  induction h generalizing l' with
  | frame hf =>
    cases h' with
    | frame hf' => cases hf.symm.trans hf'; rfl
    | locals he => exact (hvar he hf).elim
    | slot he => exact (hvar he hf).elim
    | entry he => exact (hvar he hf).elim
  | locals he hp hf =>
    cases h' with
    | frame hf' => exact (hvar he hf').elim
    | locals he' hp' hf' =>
      cases he.symm.trans he'
      cases hp.symm.trans hp'
      cases hf.symm.trans hf'
      rfl
    | slot he' _ hp' => cases he.symm.trans he'; cases hp.symm.trans hp'
    | entry he' _ hp' => cases he.symm.trans he'; cases hp.symm.trans hp'
  | slot he hk hp _ ih =>
    cases h' with
    | frame hf' => exact (hvar he hf').elim
    | locals he' hp' => cases he.symm.trans he'; cases hp.symm.trans hp'
    | slot he' hk' hp' hd =>
      cases he.symm.trans he'
      cases hp.symm.trans hp'
      cases hk.symm.trans hk'
      cases ih hd
      rfl
    | entry he' hk' => cases he.symm.trans he'; cases hk.symm.trans hk'
  | entry he hk hp _ ih =>
    cases h' with
    | frame hf' => exact (hvar he hf').elim
    | locals he' hp' => cases he.symm.trans he'; cases hp.symm.trans hp'
    | slot he' hk' => cases he.symm.trans he'; cases hk.symm.trans hk'
    | entry he' hk' hp' hd =>
      cases he.symm.trans he'
      cases hp.symm.trans hp'
      cases hk.symm.trans hk'
      cases ih hd
      rfl

theorem exists_denotation (hg : g.Sound) :
    ∃ den : UInt32 → Option Location, ∀ x l, den x = some l ↔ g.Denotes x l := by
  classical
  refine ⟨fun x => if h : ∃ l, g.Denotes x l then some h.choose else none, fun x l => ?_⟩
  dsimp only
  split
  · rename_i h
    rw [Option.some.injEq]
    refine ⟨fun hl => hl ▸ h.choose_spec, fun hl => h.choose_spec.unique hg hl⟩
  · rename_i h
    exact ⟨nofun, fun hl => (h ⟨l, hl⟩).elim⟩

theorem Sound.exists_place (hg : g.Sound) {e : VariableEntry} {p : UInt32}
    (he : g.arena[x]? = some e) (hp : e.parent = .variable p) :
    ∃ place, g.Denotes x (.value place) := by
  -- Induction on the number: the link leads to a smaller one.
  induction hn : x.toNat using Nat.strongRecOn generalizing x e p with
  | ind n ih =>
    subst hn
    cases hg.linked x e he with
    | locals _ hp' => cases hp.symm.trans hp'
    | slot hk hp' _ hr hl =>
      obtain ⟨id, f, hpf, hf⟩ := hg.exists_frame hr hl
      exact ⟨_, .slot he hk hp' (.locals hr hpf hf)⟩
    | entry hk hp' hlt hr hne =>
      obtain ⟨p', hp''⟩ := hg.exists_parent hr hne
      obtain ⟨place, hd⟩ := ih _ (UInt32.lt_iff_toNat_lt.1 hlt) hr hp'' rfl
      exact ⟨_, .entry he hk hp' hd⟩

/-- The walk along the links, with enough steps for the number at which it begins, finds the place
and puts the keys that it passed behind it. -/
theorem Denotes.placeFrom (hg : g.Sound) (h : g.Denotes x (.value place)) {n : Nat}
    (hn : x.toNat ≤ n) (keys : List Key) :
    g.placeFrom n x keys = some { place with keys := place.keys ++ keys } := by
  generalize hl : Location.value place = l at h
  induction h generalizing place n keys with
  | frame | locals => cases hl
  | slot he hk hp hd ih =>
    cases hl
    have hpos := (hg.numbers _ _ he).1
    obtain ⟨n, rfl⟩ := Nat.exists_eq_add_one.2 (Nat.lt_of_lt_of_le hpos hn)
    cases hd with
    | locals hr hpf hf => simp [StackGraph.placeFrom, he, hk, hp, hr, hpf, hf]
  | entry he hk hp hd ih =>
    cases hl
    have hpos := (hg.numbers _ _ he).1
    have hlt := UInt32.lt_iff_toNat_lt.1 (hg.parent_lt he hp)
    obtain ⟨n, rfl⟩ := Nat.exists_eq_add_one.2 (Nat.lt_of_lt_of_le hpos hn)
    rename_i key _ _
    have hrest := ih (n := n) (by omega) (key :: keys) rfl
    simp [StackGraph.placeFrom, he, hk, hp, hrest, Place.extend]

theorem Denotes.place? (hg : g.Sound) (h : g.Denotes x (.value place)) :
    g.place? x = some place := by
  rw [StackGraph.place?, h.placeFrom hg (Nat.le_refl _), List.append_nil]

theorem place?_eq_some (hg : g.Sound) {e : VariableEntry} {p : UInt32}
    (he : g.arena[x]? = some e) (hp : e.parent = .variable p) :
    g.place? x = some place ↔ g.Denotes x (.value place) := by
  refine ⟨fun h => ?_, fun h => h.place? hg⟩
  obtain ⟨place', hd⟩ := hg.exists_place he hp
  cases h.symm.trans (hd.place? hg)
  exact hd

end StackGraph

end DebugAdapter
