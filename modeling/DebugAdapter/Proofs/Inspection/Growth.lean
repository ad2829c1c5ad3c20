import DebugAdapter.Inspection.Request
import DebugAdapter.Proofs.Inspection.WellFormed
import DebugAdapter.Proofs.Interpreter.Answers
import Mathlib.Data.List.Forall2
import Mathlib.Logic.Relation

/-!
# How requests make a graph grow

Whatever a request asks for, the graph of a stop changes in the few ways that `Grow` lists: the
frames are entered, the locals of a frame, or what was read of a variable. What one such step
keeps, a request keeps, and so does every sequence of requests. An interpreter that answers is
enough for a request to be answered, since no link in the graph dangles.
-/

namespace DebugAdapter

open Protocol

variable {σ : Type} {it : Interpreter σ}

theorem Inspect.probe_eq_ok {α : Type} {p : Probe σ α} {g : StackGraph} {s : σ} {a : α}
    {st' : StackGraph × σ} :
    Inspect.probe p (g, s) = (.ok a, st') ↔ ∃ s', p s = (.ok a, s') ∧ (g, s') = st' := by
  show ((p s).1, g, (p s).2) = (.ok a, st') ↔ _
  obtain ⟨r, s₁⟩ := p s
  constructor
  · intro h
    cases h
    exact ⟨s₁, rfl, rfl⟩
  · rintro ⟨s', h, rfl⟩
    cases h
    rfl

theorem Inspect.probe_eq_error {α : Type} {p : Probe σ α} {g : StackGraph} {s : σ} {fault : Fault}
    {st' : StackGraph × σ} (h : Inspect.probe p (g, s) = (.error fault, st')) : st'.1 = g := by
  have h : ((p s).1, g, (p s).2) = (.error fault, st') := h
  obtain rfl := congrArg Prod.snd h
  rfl

namespace StackGraph

-- ---------------------------------------------------------------------------
-- Steps
-- ---------------------------------------------------------------------------

/-- One step: what the interpreter was asked, and what was entered. -/
inductive Grow (it : Interpreter σ) : StackGraph × σ → StackGraph × σ → Prop
  | frames {g : StackGraph} {s s' : σ} {infos : List FrameInfo} : g.frames = none →
      it.frames s = (.ok infos, s') → Grow it (g, s) ((g.enterFrames infos).2, s')
  | locals {g : StackGraph} {s s' : σ} {id : UInt32} {f : FrameEntry} {names : List String} :
      g.frame? id = some f → f.locals = none → it.locals f.level s = (.ok (some names), s') →
      Grow it (g, s) ((g.enterLocals id names).2, s')
  | closed {g : StackGraph} {s s' : σ} {id : UInt32} {f : FrameEntry} : g.frame? id = some f →
      f.locals = none → it.locals f.level s = (.ok none, s') → Grow it (g, s) (g, s')
  | value {g : StackGraph} {s s' : σ} {id : UInt32} {e : VariableEntry} {place : Place}
      {reading : Reading} : g.arena[id]? = some e → e.resolved = none →
      g.place? id = some place → it.read place s = (.ok reading, s') →
      Grow it (g, s) ((g.settle id e reading).2, s')
  | lost {g : StackGraph} {s : σ} {id : UInt32} {e : VariableEntry} : g.arena[id]? = some e →
      e.resolved = none → g.place? id = none → Grow it (g, s) ((g.settle id e .nowhere).2, s)

abbrev Grows (it : Interpreter σ) : StackGraph × σ → StackGraph × σ → Prop :=
  Relation.ReflTransGen (Grow it)

theorem minted_settle_le (g : StackGraph) (id : UInt32) (e : VariableEntry) (reading : Reading) :
    g.minted ≤ (g.settle id e reading).2.minted := by
  cases reading with
  | nowhere => exact Nat.le_refl _
  | scalar v => exact Nat.le_refl _
  | table keys => exact Nat.le_add_right _ _

theorem Grow.minted_le {st st' : StackGraph × σ} (h : Grow it st st') :
    st.1.minted ≤ st'.1.minted := by
  cases h with
  | frames => exact Nat.le_add_right _ _
  | locals => exact Nat.le_trans (Nat.le_succ _) (Nat.le_add_right _ _)
  | closed => exact Nat.le_refl _
  | value => exact minted_settle_le ..
  | lost => exact Nat.le_refl _

theorem Grows.minted_le {st st' : StackGraph × σ} (h : Grows it st st') :
    st.1.minted ≤ st'.1.minted := by
  induction h with
  | refl => exact Nat.le_refl _
  | tail _ h ih => exact Nat.le_trans ih h.minted_le

theorem Grow.wellFormed {st st' : StackGraph × σ} (h : Grow it st st') (hg : st.1.WellFormed)
    (hb : st'.1.minted < 2 ^ 32) : st'.1.WellFormed ∧ st.1.Extends st'.1 := by
  cases h with
  | frames hn => exact hg.enterFrames hn hb
  | locals hf hn => exact hg.enterLocals hf hn hb
  | closed => exact ⟨hg, .refl _⟩
  | value he hr => exact hg.settle he hr hb
  | lost he hr => exact hg.settle he hr hb

theorem Grows.wellFormed {st st' : StackGraph × σ} (h : Grows it st st') (hg : st.1.WellFormed)
    (hb : st'.1.minted < 2 ^ 32) : st'.1.WellFormed ∧ st.1.Extends st'.1 := by
  induction h with
  | refl => exact ⟨hg, .refl _⟩
  | tail _ h ih =>
    obtain ⟨hg', he⟩ := ih (Nat.lt_of_le_of_lt h.minted_le hb)
    obtain ⟨hg'', he'⟩ := h.wellFormed hg' hb
    exact ⟨hg'', he.trans he'⟩

theorem Grow.returns {st st' : StackGraph × σ} (h : Grow it st st') (hs : it.Returns st.2) :
    it.Returns st'.2 := by
  cases h with
  | frames _ h => exact (Interpreter.ensures_frames.of_ok hs h).1
  | locals _ _ h => exact ((Interpreter.ensures_ask _).of_ok hs h).1
  | closed _ _ h => exact ((Interpreter.ensures_ask _).of_ok hs h).1
  | value _ _ _ h => exact ((Interpreter.ensures_read _).of_ok hs h).1
  | lost => exact hs

theorem Grows.returns {st st' : StackGraph × σ} (h : Grows it st st') (hs : it.Returns st.2) :
    it.Returns st'.2 := by
  induction h with
  | refl => exact hs
  | tail _ h ih => exact h.returns ih

-- ---------------------------------------------------------------------------
-- No link dangles
-- ---------------------------------------------------------------------------

/-- Every variable that is listed as a child is there, whether or not numbers are fresh. -/
structure Closed (g : StackGraph) : Prop where
  children : ∀ (x : UInt32) (e : VariableEntry), g.arena[x]? = some e →
    ∀ c ∈ e.children, (g.arena[c]?).isSome
  unresolved : ∀ (x : UInt32) (e : VariableEntry), g.arena[x]? = some e →
    e.resolved = none → e.children = []

theorem closed_new {minted : Nat} : ({ minted := minted } : StackGraph).Closed where
  children := by simp
  unresolved := by simp

def Retains (g g' : StackGraph) : Prop :=
  ∀ x : UInt32, (g.arena[x]?).isSome → (g'.arena[x]?).isSome

theorem getElem?_enterChildren_cases (g : StackGraph) (parent : UInt32) (keys : List VariableKey)
    (x : UInt32) :
    ((g.enterChildren parent keys).2.arena[x]? = g.arena[x]? ∧
      x ∉ (g.enterChildren parent keys).1) ∨
    ∃ key, (g.enterChildren parent keys).2.arena[x]? =
      some { key := key, parent := .variable parent } := by
  obtain ⟨m, frames, vs⟩ := g
  simp only [enterChildren]
  induction keys generalizing m vs with
  | nil => exact .inl ⟨rfl, by simp [numbered]⟩
  | cons key keys ih =>
    rw [numbered, List.foldl_cons]
    obtain ⟨h, hx⟩ | h := ih (m + 1)
      (vs.insert (UInt32.ofNat (m + 1)) { key := key, parent := .variable parent })
    · rw [h, getElem?_insert]
      split
      · exact .inr ⟨key, rfl⟩
      · rename_i hne
        refine .inl ⟨rfl, ?_⟩
        rw [List.map_cons, List.mem_cons, not_or]
        exact ⟨hne, hx⟩
    · exact .inr h

theorem retains_enterChildren (g : StackGraph) (parent : UInt32) (keys : List VariableKey) :
    g.Retains (g.enterChildren parent keys).2 := by
  intro x hx
  obtain ⟨h, -⟩ | ⟨key, h⟩ := g.getElem?_enterChildren_cases parent keys x
  · rwa [h]
  · rw [h]
    rfl

theorem retains_put (g : StackGraph) (id : UInt32) (e : VariableEntry) :
    g.Retains (g.put id e) := by
  intro x hx
  rw [getElem?_put]
  split
  · rfl
  · exact hx

theorem retains_attach (g : StackGraph) (id : UInt32) (e : VariableEntry)
    (keys : List VariableKey) : g.Retains (g.attach id e keys) :=
  fun x hx => retains_put _ id _ x (g.retains_enterChildren id keys x hx)

theorem Closed.attach {g : StackGraph} (hg : g.Closed) (id : UInt32) {e : VariableEntry}
    (he : e.resolved ≠ none) (keys : List VariableKey) : (g.attach id e keys).Closed := by
  refine ⟨?children, ?unresolved⟩
  case children =>
    intro x f hf c hc
    rw [StackGraph.attach, getElem?_put] at hf
    refine retains_put _ id _ c ?_
    split at hf
    · cases hf
      obtain ⟨-, h⟩ | ⟨key, h⟩ := g.getElem?_enterChildren_cases id keys c
      · exact absurd hc h
      · rw [h]
        rfl
    · obtain ⟨h, -⟩ | ⟨key, h⟩ := g.getElem?_enterChildren_cases id keys x
      · rw [h] at hf
        exact g.retains_enterChildren id keys c (hg.children x f hf c hc)
      · rw [h] at hf
        cases hf
        simp at hc
  case unresolved =>
    intro x f hf hr
    rw [StackGraph.attach, getElem?_put] at hf
    split at hf
    · cases hf
      exact absurd hr he
    · obtain ⟨h, -⟩ | ⟨key, h⟩ := g.getElem?_enterChildren_cases id keys x
      · rw [h] at hf
        exact hg.unresolved x f hf hr
      · rw [h] at hf
        cases hf
        rfl

theorem Closed.enterLocals {g : StackGraph} (hg : g.Closed) (id : UInt32) (names : List String) :
    (g.enterLocals id names).2.Closed ∧ g.Retains (g.enterLocals id names).2 := by
  rw [enterLocals_eq]
  have hr : (g.rootAt id (.ofNat (g.minted + 1))).Closed := ⟨hg.children, hg.unresolved⟩
  exact ⟨hr.attach _ (by simp [localsEntry]) _, retains_attach (g.rootAt id _) _ _ _⟩

theorem Closed.settle {g : StackGraph} (hg : g.Closed) {id : UInt32} {e : VariableEntry}
    (he : g.arena[id]? = some e) (hr : e.resolved = none) (reading : Reading) :
    (g.settle id e reading).2.Closed ∧ g.Retains (g.settle id e reading).2 := by
  rw [settle_eq g id (hg.unresolved id e he hr)]
  exact ⟨hg.attach id (by simp) _, g.retains_attach id _ _⟩

theorem Grow.closed_retains {st st' : StackGraph × σ} (h : Grow it st st') (hg : st.1.Closed) :
    st'.1.Closed ∧ st.1.Retains st'.1 := by
  cases h with
  | frames => exact ⟨⟨hg.children, hg.unresolved⟩, fun _ => id⟩
  | locals => exact hg.enterLocals _ _
  | closed => exact ⟨hg, fun _ => id⟩
  | value he hr => exact hg.settle he hr _
  | lost he hr => exact hg.settle he hr _

theorem Grows.closed_retains {st st' : StackGraph × σ} (h : Grows it st st')
    (hg : st.1.Closed) : st'.1.Closed ∧ st.1.Retains st'.1 := by
  induction h with
  | refl => exact ⟨hg, fun _ => id⟩
  | tail _ h ih =>
    obtain ⟨hc, hr⟩ := ih
    obtain ⟨hc', hr'⟩ := h.closed_retains hc
    exact ⟨hc', fun x hx => hr' x (hr x hx)⟩

-- ---------------------------------------------------------------------------
-- Numbers that have not come round
-- ---------------------------------------------------------------------------

/-- What stays as it is of the variables: the keys for good, and a record with its children once it
is there. -/
def Keeps (g g' : StackGraph) : Prop :=
  ∀ (x : UInt32) (e : VariableEntry), g.arena[x]? = some e →
    ∃ e' : VariableEntry, g'.arena[x]? = some e' ∧ e'.key = e.key ∧
      ∀ r, e.resolved = some r → e'.resolved = some r ∧ e'.children = e.children

theorem Keeps.refl (g : StackGraph) : g.Keeps g := fun _ e he => ⟨e, he, rfl, fun _ hr => ⟨hr, rfl⟩⟩

theorem Keeps.trans {g g' g'' : StackGraph} (h : g.Keeps g') (h' : g'.Keeps g'') :
    g.Keeps g'' := by
  intro x e he
  obtain ⟨e', he', hk, hr⟩ := h x e he
  obtain ⟨e'', he'', hk', hr'⟩ := h' x e' he'
  refine ⟨e'', he'', hk'.trans hk, fun r h => ?_⟩
  obtain ⟨h, hc⟩ := hr r h
  obtain ⟨h', hc'⟩ := hr' r h
  exact ⟨h', hc'.trans hc⟩

theorem Extends.keeps {g g' : StackGraph} (h : g.Extends g') : g.Keeps g' := by
  intro x e he
  obtain ⟨e', he', hk, -, hr⟩ := h.entry x e he
  exact ⟨e', he', hk, hr⟩

def Spans (base : Nat) (g : StackGraph) (x : UInt32) : Prop :=
  ∃ n, base < n ∧ n ≤ g.minted ∧ x = .ofNat n

/-- In this stop numbers were given out behind the first `base` ones. They may have gone beyond 32
bits, and then a child may have a smaller number than its parent. -/
structure Since (base : Nat) (g : StackGraph) : Prop extends g.Closed where
  minted : base ≤ g.minted
  numbers : ∀ (x : UInt32) (e : VariableEntry), g.arena[x]? = some e → g.Spans base x

theorem since_new {minted : Nat} : ({ minted := minted } : StackGraph).Since minted where
  toClosed := closed_new
  minted := Nat.le_refl _
  numbers := by simp

theorem WellFormed.closed {g : StackGraph} (hg : g.WellFormed) : g.Closed where
  children x e he c hc := by
    obtain ⟨ce, hce, -⟩ := (hg.children x e he).2 c hc
    rw [hce]
    rfl
  unresolved x e he hr := (hg.unresolved x e he hr).1

theorem WellFormed.since {g : StackGraph} (hg : g.WellFormed) : g.Since 0 where
  toClosed := hg.closed
  minted := Nat.zero_le _
  numbers x e he := by
    obtain ⟨hpos, hle, -⟩ := hg.numbers x e he
    exact ⟨x.toNat, hpos, hle, UInt32.ofNat_toNat.symm⟩

theorem Since.vacant {g : StackGraph} {base n : Nat} (hg : g.Since base)
    (hb : g.minted + n ≤ base + 2 ^ 32) : g.Vacant n where
  few := by
    have := hg.minted
    omega
  unused i hi := Option.eq_none_iff_forall_not_mem.2 fun e he => by
    obtain ⟨n, hn, hle, heq⟩ := hg.numbers _ _ he
    exact ofNat_ne (by omega) (by omega) heq.symm

theorem Spans.ne {g : StackGraph} {base n : Nat} {x : UInt32} (h : g.Spans base x)
    (hb : g.minted + n ≤ base + 2 ^ 32) (i : Nat) (hi : i < n) :
    x ≠ .ofNat (g.minted + i + 1) := by
  obtain ⟨m, hm, hle, rfl⟩ := h
  exact ofNat_ne (by omega) (by omega)

section Attach

variable {g : StackGraph} {base : Nat} {id : UInt32} {e : VariableEntry}
  {keys : List VariableKey} (hg : g.Since base) (hid : g.Spans base id)
  (hb : (g.attach id e keys).minted ≤ base + 2 ^ 32)

include hg hid hb

theorem Since.getElem?_attach (x : UInt32) (f : VariableEntry) :
    (g.attach id e keys).arena[x]? = some f ↔
      (x = id ∧ f = { e with children := (g.enterChildren id keys).1 }) ∨
      (x ≠ id ∧ g.arena[x]? = some f) ∨
      ∃ i key, keys[i]? = some key ∧ x = .ofNat (g.minted + i + 1) ∧
        f = { key := key, parent := .variable id } :=
  getElem?_attach_of_vacant e (hg.vacant hb) (hid.ne hb) x f

theorem Since.attach (hresolved : e.resolved ≠ none) : (g.attach id e keys).Since base where
  toClosed := hg.toClosed.attach id hresolved keys
  minted := Nat.le_trans hg.minted (Nat.le_add_right _ _)
  numbers x f hf := by
    have hlater : ∀ {y}, g.Spans base y → (g.attach id e keys).Spans base y :=
      fun ⟨n, hn, hle, hy⟩ => ⟨n, hn, Nat.le_trans hle (Nat.le_add_right _ _), hy⟩
    obtain ⟨rfl, -⟩ | ⟨-, hx⟩ | ⟨i, key, hk, rfl, -⟩ := (hg.getElem?_attach hid hb x f).1 hf
    · exact hlater hid
    · exact hlater (hg.numbers x f hx)
    · have hi := (List.getElem?_eq_some_iff.1 hk).1
      have hminted := hg.minted
      exact ⟨g.minted + i + 1, by omega, by rw [minted_attach]; omega, rfl⟩

theorem Since.keeps_attach
    (hold : ∀ old, g.arena[id]? = some old → old.resolved = none ∧ old.key = e.key) :
    g.Keeps (g.attach id e keys) := by
  intro x f hx
  by_cases hxid : x = id
  · subst hxid
    obtain ⟨hr, hk⟩ := hold f hx
    refine ⟨_, (hg.getElem?_attach hid hb x _).2 (.inl ⟨rfl, rfl⟩), hk.symm, fun r h => ?_⟩
    cases hr.symm.trans h
  · exact ⟨f, (hg.getElem?_attach hid hb x f).2 (.inr (.inl ⟨hxid, hx⟩)), rfl,
      fun _ hr => ⟨hr, rfl⟩⟩

end Attach

theorem Since.rootAt {g : StackGraph} {base : Nat} (hg : g.Since base) (id root : UInt32) :
    (g.rootAt id root).Since base where
  children := hg.children
  unresolved := hg.unresolved
  minted := Nat.le_succ_of_le hg.minted
  numbers x e he := by
    obtain ⟨n, hn, hle, rfl⟩ := hg.numbers x e he
    exact ⟨n, hn, Nat.le_succ_of_le hle, rfl⟩

theorem Since.spans_rootAt {g : StackGraph} {base : Nat} (hg : g.Since base) (id root : UInt32) :
    (g.rootAt id root).Spans base (.ofNat (g.minted + 1)) :=
  ⟨g.minted + 1, Nat.lt_succ_of_le hg.minted, Nat.le_refl _, rfl⟩

theorem Since.enterLocals {g : StackGraph} {base : Nat} (hg : g.Since base) (id : UInt32)
    (names : List String) (hb : (g.enterLocals id names).2.minted ≤ base + 2 ^ 32) :
    (g.enterLocals id names).2.Since base ∧ g.Keeps (g.enterLocals id names).2 := by
  rw [enterLocals_eq] at hb ⊢
  have hroot := hg.spans_rootAt id (.ofNat (g.minted + 1))
  have hg' := hg.rootAt id (.ofNat (g.minted + 1))
  refine ⟨hg'.attach hroot hb (by simp [localsEntry]), ?_⟩
  refine hg'.keeps_attach hroot hb fun old hold => ?_
  have hone : g.minted + 1 ≤ base + 2 ^ 32 := Nat.le_trans (Nat.le_add_right _ _) hb
  cases ((hg.vacant hone).unused 0 Nat.one_pos).symm.trans hold

theorem Since.settle {g : StackGraph} {base : Nat} (hg : g.Since base) {id : UInt32}
    {e : VariableEntry} {reading : Reading} (he : g.arena[id]? = some e) (hr : e.resolved = none)
    (hb : (g.settle id e reading).2.minted ≤ base + 2 ^ 32) :
    (g.settle id e reading).2.Since base ∧ g.Keeps (g.settle id e reading).2 := by
  rw [settle_eq g id (hg.unresolved id e he hr)] at hb ⊢
  have hid := hg.numbers id e he
  refine ⟨hg.attach hid hb (by simp), hg.keeps_attach hid hb fun old hold => ?_⟩
  cases he.symm.trans hold
  exact ⟨hr, rfl⟩

theorem Grow.since {st st' : StackGraph × σ} {base : Nat} (h : Grow it st st')
    (hg : st.1.Since base) (hb : st'.1.minted ≤ base + 2 ^ 32) :
    st'.1.Since base ∧ st.1.Keeps st'.1 := by
  cases h with
  | frames =>
    refine ⟨⟨⟨hg.children, hg.unresolved⟩, Nat.le_trans hg.minted (Nat.le_add_right _ _), ?_⟩,
      .refl _⟩
    intro x e he
    obtain ⟨n, hn, hle, rfl⟩ := hg.numbers x e he
    exact ⟨n, hn, Nat.le_trans hle (Nat.le_add_right _ _), rfl⟩
  | locals => exact hg.enterLocals _ _ hb
  | closed => exact ⟨hg, .refl _⟩
  | value he hr => exact hg.settle he hr hb
  | lost he hr => exact hg.settle he hr hb

theorem Grows.since {st st' : StackGraph × σ} {base : Nat} (h : Grows it st st')
    (hg : st.1.Since base) (hb : st'.1.minted ≤ base + 2 ^ 32) :
    st'.1.Since base ∧ st.1.Keeps st'.1 := by
  induction h with
  | refl => exact ⟨hg, .refl _⟩
  | tail _ h ih =>
    obtain ⟨hg', hk⟩ := ih (Nat.le_trans h.minted_le hb)
    obtain ⟨hg'', hk'⟩ := h.since hg' hb
    exact ⟨hg'', hk.trans hk'⟩

-- ---------------------------------------------------------------------------
-- Requests
-- ---------------------------------------------------------------------------

def Settled (g : StackGraph) (id : UInt32) (record : Variable) : Prop :=
  ∃ e, g.arena[id]? = some e ∧ e.resolved = some record

theorem Settled.mono {g g' : StackGraph} (hk : g.Keeps g') {id : UInt32} {record : Variable}
    (h : g.Settled id record) : g'.Settled id record := by
  obtain ⟨e, he, hr⟩ := h
  obtain ⟨e', he', -, hrec⟩ := hk id e he
  exact ⟨e', he', (hrec record hr).1⟩

theorem settled_settle (g : StackGraph) (id : UInt32) (e : VariableEntry) (reading : Reading) :
    (g.settle id e reading).2.Settled id (g.settle id e reading).1 := by
  cases reading with
  | nowhere => exact ⟨_, (getElem?_put ..).trans (if_pos rfl), rfl⟩
  | scalar v => exact ⟨_, (getElem?_put ..).trans (if_pos rfl), rfl⟩
  | table keys => exact ⟨_, (getElem?_put ..).trans (if_pos rfl), rfl⟩

/-- A walk numbers the frames that it finds. Where it comes to a fault, the numbers that it has
given out are lost. -/
theorem enumerate_run (it : Interpreter σ) (steps : Nat) (level : UInt32) (g : StackGraph)
    (s : σ) :
    ∃ lost, enumerate it steps level (g, s) = match it.framesFrom steps level s with
      | (.ok infos, s') => (.ok (g.entriesFrom level infos), g.advance infos.length, s')
      | (.error fault, s') => (.error fault, g.advance lost, s') := by
  induction steps generalizing level g s with
  | zero => exact ⟨0, rfl⟩
  | succ steps ih =>
    have hprobe : Inspect.probe (it.frame level) (g, s) =
      ((it.frame level s).1, g, (it.frame level s).2) := rfl
    rw [enumerate, bind_run, hprobe, Interpreter.framesFrom, bind_run]
    obtain ⟨r, s₁⟩ := it.frame level s
    cases r with
    | error fault => exact ⟨0, rfl⟩
    | ok found =>
      cases found with
      | none => exact ⟨0, rfl⟩
      | some info =>
        have hrevise : Inspect.revise (·.enterFrame level info) (g, s₁) =
          (.ok (g.enterFrame level info).1, (g.enterFrame level info).2, s₁) := rfl
        obtain ⟨lost, hrest⟩ := ih (level + 1) (g.enterFrame level info).2 s₁
        refine ⟨lost + 1, ?_⟩
        dsimp only
        rw [bind_run, hrevise]
        dsimp only
        rw [bind_run, hrest, bind_run]
        obtain ⟨r, s₂⟩ := it.framesFrom steps (level + 1) s₁
        cases r <;> exact Prod.ext rfl (Prod.ext (advance_enterFrame ..) rfl)

theorem ensureFrames_run (it : Interpreter σ) {g : StackGraph} (hn : g.frames = none) (s : σ) :
    ∃ lost, ensureFrames it (g, s) = match it.frames s with
      | (.ok infos, s') => (.ok (g.enterFrames infos).1, (g.enterFrames infos).2, s')
      | (.error fault, s') => (.error fault, g.advance lost, s') := by
  have hgraph : Inspect.graph (g, s) = (.ok g, g, s) := rfl
  obtain ⟨lost, hwalk⟩ := enumerate_run it Interpreter.maxLevels 0 g s
  refine ⟨lost, ?_⟩
  rw [ensureFrames, bind_run, hgraph]
  simp only [hn]
  rw [bind_run, hwalk, ← Interpreter.frames]
  obtain ⟨r, s'⟩ := it.frames s
  cases r <;> rfl

theorem ensureFrames_known (it : Interpreter σ) {g : StackGraph} {entries : List FrameEntry}
    (hentries : g.frames = some entries) (s : σ) :
    ensureFrames it (g, s) = (.ok entries, g, s) := by
  refine bind_eq_ok.2 ⟨g, (g, s), rfl, ?_⟩
  rw [hentries]
  rfl

theorem ensureFrames_ok {st st' : StackGraph × σ} {entries : List FrameEntry}
    (h : ensureFrames it st = (.ok entries, st')) :
    Grows it st st' ∧ st'.1.frames = some entries := by
  obtain ⟨g, s⟩ := st
  cases hn : g.frames with
  | some known =>
    cases (ensureFrames_known it hn s).symm.trans h
    exact ⟨.refl, hn⟩
  | none =>
    obtain ⟨lost, hrun⟩ := ensureFrames_run it hn s
    rw [hrun] at h
    cases hask : it.frames s with
    | mk r s' =>
      rw [hask] at h
      cases r with
      | error fault => cases h
      | ok infos =>
        cases h
        exact ⟨.single (.frames hn hask), rfl⟩

theorem scopes_ok {st st' : StackGraph × σ} {id : UInt32} {r : Except AdapterError (List Scope)}
    (h : scopes it id st = (.ok r, st')) :
    Grows it st st' ∧
      (st.1.frame? id = none ∧ r = .error (.unknownFrame id) ∨
        (∃ f, st.1.frame? id = some f ∧ it.locals f.level st.2 = (.ok none, st'.2) ∧
          r = .ok []) ∨
        ∃ f root, st'.1.frame? id = some f ∧ f.locals = some root ∧
          r = .ok [localScope root]) := by
  obtain ⟨g, s⟩ := st
  obtain ⟨_, _, hg, h⟩ := bind_eq_ok.1 h
  cases hg
  cases hf : g.frame? id with
  | none =>
    rw [hf] at h
    cases h
    exact ⟨.refl, .inl ⟨rfl, rfl⟩⟩
  | some f =>
    simp only [hf] at h
    cases hn : f.locals with
    | some root =>
      rw [hn] at h
      cases h
      exact ⟨.refl, .inr (.inr ⟨f, root, hf, hn, rfl⟩)⟩
    | none =>
      simp only [hn] at h
      obtain ⟨names, _, hlocals, h⟩ := bind_eq_ok.1 h
      obtain ⟨s', hask, rfl⟩ := Inspect.probe_eq_ok.1 hlocals
      cases names with
      | none =>
        cases h
        exact ⟨.single (.closed hf hn hask), .inr (.inl ⟨f, rfl, hask, rfl⟩)⟩
      | some names =>
        cases h
        exact ⟨.single (.locals hf hn hask),
          .inr (.inr ⟨_, _, frame?_enterLocals hf names, rfl, rfl⟩)⟩

theorem resolve_ok {st st' : StackGraph × σ} {id : UInt32} {record : Variable}
    (h : resolve it id st = (.ok record, st')) :
    Grows it st st' ∧ st'.1.Settled id record := by
  obtain ⟨g, s⟩ := st
  obtain ⟨_, _, hg, h⟩ := bind_eq_ok.1 h
  cases hg
  cases he : g.arena[id]? with
  | none =>
    rw [he] at h
    cases h
  | some e =>
    simp only [he] at h
    cases hr : e.resolved with
    | some known =>
      rw [hr] at h
      cases h
      exact ⟨.refl, e, he, hr⟩
    | none =>
      simp only [hr] at h
      cases hp : g.place? id with
      | none =>
        simp only [hp] at h
        cases h
        exact ⟨.single (.lost he hr hp), settled_settle g id e .nowhere⟩
      | some place =>
        simp only [hp] at h
        obtain ⟨reading, _, hread, h⟩ := bind_eq_ok.1 h
        obtain ⟨s', hask, rfl⟩ := Inspect.probe_eq_ok.1 hread
        cases h
        exact ⟨.single (.value he hr hp hask), settled_settle g id e reading⟩

theorem resolveAll_ok {st st' : StackGraph × σ} {ids : List UInt32} {records : List Variable}
    (h : resolveAll it ids st = (.ok records, st')) :
    Grows it st st' ∧ ∀ base, st.1.Since base → st'.1.minted ≤ base + 2 ^ 32 →
      List.Forall₂ st'.1.Settled ids records := by
  induction ids generalizing st records with
  | nil =>
    cases h
    exact ⟨.refl, fun _ _ _ => .nil⟩
  | cons id ids ih =>
    obtain ⟨record, st₁, hid, h⟩ := bind_eq_ok.1 h
    obtain ⟨rest, st₂, hids, h⟩ := bind_eq_ok.1 h
    cases h
    obtain ⟨hgrow, hset⟩ := resolve_ok hid
    obtain ⟨hgrow', hset'⟩ := ih hids
    refine ⟨hgrow.trans hgrow', fun base hg hb => ?_⟩
    obtain ⟨hg₁, -⟩ := hgrow.since hg (Nat.le_trans hgrow'.minted_le hb)
    obtain ⟨-, hk⟩ := hgrow'.since hg₁ hb
    exact .cons (hset.mono hk) (hset' base hg₁ hb)

theorem Keeps.filter_children {g g' : StackGraph} (hk : g.Keeps g') (hg : g.Closed)
    {id : UInt32} {e : VariableEntry} (he : g.arena[id]? = some e) (hr : e.resolved ≠ none)
    (filter : Option VariablesFilter) :
    ∃ e' : VariableEntry, g'.arena[id]? = some e' ∧ e'.resolved ≠ none ∧
      e'.children.filter (g'.passes filter) = e.children.filter (g.passes filter) := by
  obtain ⟨record, hrecord⟩ := Option.ne_none_iff_exists'.1 hr
  obtain ⟨e', he', -, hkept⟩ := hk id e he
  obtain ⟨hrecord', hchildren⟩ := hkept record hrecord
  refine ⟨e', he', by simp [hrecord'], ?_⟩
  rw [hchildren]
  refine List.filter_congr fun c hc => ?_
  obtain ⟨ce, hce⟩ := Option.isSome_iff_exists.1 (hg.children id e he c hc)
  obtain ⟨ce', hce', hkey, -⟩ := hk c ce hce
  cases filter with
  | none => rfl
  | some wanted => cases wanted <;> simp only [passes, hce, hce', hkey]

def Lists (g : StackGraph) (args : VariablesArguments) (records : List Variable) : Prop :=
  ∃ e : VariableEntry, g.arena[args.variablesReference]? = some e ∧ e.resolved ≠ none ∧
    List.Forall₂ g.Settled
      (page args.start args.count (e.children.filter (g.passes args.filter))) records

theorem Lists.mono {g g' : StackGraph} (hk : g.Keeps g') (hg : g.Closed)
    {args : VariablesArguments} {records : List Variable} (h : g.Lists args records) :
    g'.Lists args records := by
  obtain ⟨e, he, hr, hrecords⟩ := h
  obtain ⟨e', he', hr', hsame⟩ := hk.filter_children hg he hr args.filter
  exact ⟨e', he', hr', hsame ▸ hrecords.imp fun id record => .mono hk⟩

theorem variablesOf_ok {st st' : StackGraph × σ} {args : VariablesArguments}
    {r : Except AdapterError (List Variable)} (h : variablesOf it args st = (.ok r, st')) :
    Grows it st st' ∧
      (st.1.arena[args.variablesReference]? = none ∧
          r = .error (.unknownVariable args.variablesReference) ∨
        (st.1.arena[args.variablesReference]?).isSome ∧ ∃ records, r = .ok records ∧
          ∀ base, st.1.Since base → st'.1.minted ≤ base + 2 ^ 32 →
            st'.1.Lists args records) := by
  obtain ⟨g, s⟩ := st
  obtain ⟨_, _, hg, h⟩ := bind_eq_ok.1 h
  cases hg
  cases he₀ : g.arena[args.variablesReference]? with
  | none =>
    rw [he₀] at h
    cases h
    exact ⟨.refl, .inl ⟨rfl, rfl⟩⟩
  | some e₀ =>
    simp only [he₀] at h
    obtain ⟨record, ⟨g₁, s₁⟩, hid, h⟩ := bind_eq_ok.1 h
    obtain ⟨_, _, hg, h⟩ := bind_eq_ok.1 h
    cases hg
    obtain ⟨records, _, hall, h⟩ := bind_eq_ok.1 h
    cases h
    obtain ⟨hgrow, e, he, hrec⟩ := resolve_ok hid
    obtain ⟨hgrow', hset⟩ := resolveAll_ok hall
    refine ⟨hgrow.trans hgrow', .inr ⟨rfl, records, rfl, fun base hg hb => ?_⟩⟩
    obtain ⟨hg₁, -⟩ := hgrow.since hg (Nat.le_trans hgrow'.minted_le hb)
    obtain ⟨-, hk⟩ := hgrow'.since hg₁ hb
    obtain ⟨e', he', hr', hpass⟩ :=
      hk.filter_children hg₁.toClosed he (by simp [hrec]) args.filter
    refine ⟨e', he', hr', ?_⟩
    have := hset base hg₁ hb
    rwa [he, Option.map_some, Option.getD_some, ← hpass] at this

-- ---------------------------------------------------------------------------
-- Every request is answered
-- ---------------------------------------------------------------------------

theorem ensureFrames_returns {st : StackGraph × σ} (hs : it.Returns st.2) :
    ∃ entries st', ensureFrames it st = (.ok entries, st') := by
  obtain ⟨g, s⟩ := st
  cases hn : g.frames with
  | some entries => exact ⟨entries, (g, s), ensureFrames_known it hn s⟩
  | none =>
    obtain ⟨infos, s', hask, -, -⟩ := Interpreter.ensures_frames s hs
    obtain ⟨lost, hrun⟩ := ensureFrames_run it hn s
    rw [hask] at hrun
    exact ⟨(g.enterFrames infos).1, ((g.enterFrames infos).2, s'), hrun⟩

theorem stackTrace_returns {st : StackGraph × σ} (hs : it.Returns st.2)
    (args : StackTraceArguments) : ∃ body st', stackTrace it args st = (.ok body, st') := by
  obtain ⟨entries, st', h⟩ := ensureFrames_returns hs
  exact ⟨_, _, bind_eq_ok.2 ⟨entries, st', h, rfl⟩⟩

theorem scopes_returns {st : StackGraph × σ} (hs : it.Returns st.2) (id : UInt32) :
    ∃ r st', scopes it id st = (.ok r, st') := by
  obtain ⟨g, s⟩ := st
  cases hf : g.frame? id with
  | none =>
    refine ⟨.error (.unknownFrame id), (g, s), bind_eq_ok.2 ⟨g, (g, s), rfl, ?_⟩⟩
    rw [hf]
    rfl
  | some f =>
    cases hn : f.locals with
    | some root =>
      refine ⟨.ok [localScope root], (g, s), bind_eq_ok.2 ⟨g, (g, s), rfl, ?_⟩⟩
      simp only [hf, hn]
      rfl
    | none =>
      obtain ⟨names, s', hask, -, -⟩ := Interpreter.ensures_ask (.locals f.level) s hs
      have hask := Inspect.probe_eq_ok.2 ⟨s', hask, (rfl : (g, s') = (g, s'))⟩
      cases names with
      | none =>
        refine ⟨.ok [], (g, s'), bind_eq_ok.2 ⟨g, (g, s), rfl, ?_⟩⟩
        simp only [hf, hn]
        exact bind_eq_ok.2 ⟨none, (g, s'), hask, rfl⟩
      | some names =>
        refine ⟨.ok [localScope (g.enterLocals id names).1], ((g.enterLocals id names).2, s'),
          bind_eq_ok.2 ⟨g, (g, s), rfl, ?_⟩⟩
        simp only [hf, hn]
        exact bind_eq_ok.2 ⟨some names, (g, s'), hask, rfl⟩

theorem resolve_returns (st : StackGraph × σ) (hs : it.Returns st.2) {id : UInt32}
    (hid : (st.1.arena[id]?).isSome) : ∃ record st', resolve it id st = (.ok record, st') := by
  obtain ⟨g, s⟩ := st
  obtain ⟨e, he⟩ := Option.isSome_iff_exists.1 hid
  cases hr : e.resolved with
  | some record =>
    refine ⟨record, (g, s), bind_eq_ok.2 ⟨g, (g, s), rfl, ?_⟩⟩
    simp only [he, hr]
    rfl
  | none =>
    cases hp : g.place? id with
    | none =>
      refine ⟨(g.settle id e .nowhere).1, ((g.settle id e .nowhere).2, s),
        bind_eq_ok.2 ⟨g, (g, s), rfl, ?_⟩⟩
      simp only [he, hr, hp]
      rfl
    | some place =>
      obtain ⟨reading, s', hask, -, -⟩ := Interpreter.ensures_read place s hs
      refine ⟨(g.settle id e reading).1, ((g.settle id e reading).2, s'),
        bind_eq_ok.2 ⟨g, (g, s), rfl, ?_⟩⟩
      simp only [he, hr, hp]
      exact bind_eq_ok.2 ⟨reading, (g, s'), Inspect.probe_eq_ok.2 ⟨s', hask, rfl⟩, rfl⟩

theorem resolveAll_returns (st : StackGraph × σ) (hs : it.Returns st.2) (hg : st.1.Closed)
    (ids : List UInt32) (hids : ∀ id ∈ ids, (st.1.arena[id]?).isSome) :
    ∃ records st', resolveAll it ids st = (.ok records, st') := by
  induction ids generalizing st with
  | nil => exact ⟨[], st, rfl⟩
  | cons id ids ih =>
    obtain ⟨record, st₁, h⟩ := resolve_returns st hs (hids id (by simp))
    obtain ⟨hgrow, -⟩ := resolve_ok h
    obtain ⟨hg₁, hkept⟩ := hgrow.closed_retains hg
    obtain ⟨records, st₂, hall⟩ := ih st₁ (hgrow.returns hs) hg₁
      fun id hid => hkept id (hids id (by simp [hid]))
    exact ⟨record :: records, st₂,
      bind_eq_ok.2 ⟨record, st₁, h, bind_eq_ok.2 ⟨records, st₂, hall, rfl⟩⟩⟩

theorem mem_of_mem_page {α : Type} {start count : Option UInt32} {items : List α} {a : α}
    (h : a ∈ page start count items) : a ∈ items := by
  unfold page at h
  split at h
  · split at h
    · exact List.mem_of_mem_drop h
    · exact List.mem_of_mem_drop (List.mem_of_mem_take h)
  · exact List.mem_of_mem_drop h

theorem variablesOf_returns {st : StackGraph × σ} (hs : it.Returns st.2) (hg : st.1.Closed)
    (args : VariablesArguments) : ∃ r st', variablesOf it args st = (.ok r, st') := by
  obtain ⟨g, s⟩ := st
  cases he : g.arena[args.variablesReference]? with
  | none =>
    refine ⟨.error (.unknownVariable args.variablesReference), (g, s),
      bind_eq_ok.2 ⟨g, (g, s), rfl, ?_⟩⟩
    rw [he]
    rfl
  | some e =>
    obtain ⟨record, ⟨g₁, s₁⟩, h⟩ := resolve_returns (g, s) hs (by rw [he]; rfl)
    obtain ⟨hgrow, e₁, he₁, -⟩ := resolve_ok h
    have hg₁ := (hgrow.closed_retains hg).1
    obtain ⟨records, st₂, hall⟩ := resolveAll_returns (g₁, s₁) (hgrow.returns hs) hg₁
      (page args.start args.count (e₁.children.filter (g₁.passes args.filter)))
      fun id hid => hg₁.children _ e₁ he₁ id (List.mem_filter.1 (mem_of_mem_page hid)).1
    refine ⟨.ok records, st₂, bind_eq_ok.2 ⟨g, (g, s), rfl, ?_⟩⟩
    simp only [he]
    refine bind_eq_ok.2 ⟨record, (g₁, s₁), h, bind_eq_ok.2 ⟨g₁, (g₁, s₁), rfl, ?_⟩⟩
    have he₁ : g₁.arena[args.variablesReference]? = some e₁ := he₁
    rw [he₁, Option.map_some, Option.getD_some]
    exact bind_eq_ok.2 ⟨records, st₂, hall, rfl⟩

end StackGraph

end DebugAdapter
