import DebugAdapter.Proofs.Inspection.Eager

/-!
# No number is given out twice

The frames and variables of all stops are numbered by one counter, which goes on where the stop
before left it. `Enters` says which numbers a step gives out and in which order, `Mints` and
`Recounts` put the steps of a stop and the stops of a session one after the other. A number is then
known by the stop that gave it out and by what it stands for, and every other use of it is refused
without asking the interpreter. Where a fault cuts the walk along the frames short, the numbers of
the frames found so far are lost: nobody is told of them, and they are not given out again.
-/

namespace DebugAdapter

open Protocol

variable {σ : Type} {it : Interpreter σ}

-- ---------------------------------------------------------------------------
-- Consecutive numbers
-- ---------------------------------------------------------------------------

def consecutive (n k : Nat) : List UInt32 := (List.range k).map fun i => .ofNat (n + i + 1)

@[simp] theorem length_consecutive (n k : Nat) : (consecutive n k).length = k := by
  simp [consecutive]

theorem consecutive_add (n k l : Nat) :
    consecutive n (k + l) = consecutive n k ++ consecutive (n + k) l := by
  simp only [consecutive, List.range_add, List.map_append, List.map_map, Function.comp_def,
    Nat.add_assoc]

theorem consecutive_succ (n k : Nat) :
    consecutive n (k + 1) = .ofNat (n + 1) :: consecutive (n + 1) k := by
  rw [Nat.add_comm, consecutive_add]
  rfl

theorem pairwise_consecutive {n k : Nat} (hb : n + k < 2 ^ 32) :
    (consecutive n k).Pairwise (· < ·) := by
  refine List.pairwise_map.2 (List.pairwise_lt_range.imp_of_mem fun {i j} hi hj hlt => ?_)
  rw [List.mem_range] at hi hj
  rw [UInt32.lt_iff_toNat_lt, StackGraph.toNat_ofNat (by omega), StackGraph.toNat_ofNat (by omega)]
  omega

theorem ne_zero_of_mem_consecutive {n k : Nat} (hb : n + k < 2 ^ 32) {x : UInt32}
    (hx : x ∈ consecutive n k) : x ≠ 0 := by
  obtain ⟨i, hi, rfl⟩ := List.mem_map.1 hx
  rw [List.mem_range] at hi
  intro h
  have := congrArg UInt32.toNat h
  rw [StackGraph.toNat_ofNat (by omega), UInt32.toNat_zero] at this
  omega

-- ---------------------------------------------------------------------------
-- What is given out
-- ---------------------------------------------------------------------------

/-- A number and what it was given to. -/
inductive Minted where
  | frame (id : UInt32)
  | variable (id : UInt32)
  /-- A frame that is not kept, since the call for the next one has killed the thread. -/
  | lost (id : UInt32)
deriving DecidableEq, Repr

def Minted.number : Minted → UInt32
  | .frame id | .variable id | .lost id => id

namespace StackGraph

def listed (g : StackGraph) (id : UInt32) : List Minted :=
  (((g.arena[id]?).map (·.children)).getD []).map .variable

/-- What one step enters under new numbers, in the order in which they are given out. -/
inductive Enters (g : StackGraph) : List Minted → StackGraph → Prop
  | frames {infos : List FrameInfo} : g.frames = none →
      Enters g ((g.enterFrames infos).1.map fun f => .frame f.frame.id) (g.enterFrames infos).2
  | cut {n : Nat} : g.frames = none →
      Enters g ((consecutive g.minted n).map .lost) (g.advance n)
  | locals {id : UInt32} {f : FrameEntry} {names : List String} : g.frame? id = some f →
      f.locals = none →
      Enters g (.variable (g.enterLocals id names).1 ::
        (g.enterLocals id names).2.listed (g.enterLocals id names).1) (g.enterLocals id names).2
  | value {id : UInt32} {e : VariableEntry} {reading : Reading} : g.arena[id]? = some e →
      e.resolved = none → Enters g ((g.settle id e reading).2.listed id) (g.settle id e reading).2

inductive Mints (g₀ : StackGraph) : List Minted → StackGraph → Prop
  | refl : Mints g₀ [] g₀
  | tail {log fresh : List Minted} {g g' : StackGraph} : Mints g₀ log g → Enters g fresh g' →
      Mints g₀ (log ++ fresh) g'

def Reaches (g g' : StackGraph) : Prop := ∃ log, g.Mints log g'

theorem Reaches.of_eq {g g' : StackGraph} (h : g' = g) : g.Reaches g' := by
  subst h
  exact ⟨[], .refl⟩

theorem Reaches.trans {g g' g'' : StackGraph} (h : g.Reaches g') (h' : g'.Reaches g'') :
    g.Reaches g'' := by
  obtain ⟨_, h'⟩ := h'
  induction h' with
  | refl => exact h
  | tail _ hfresh ih =>
    obtain ⟨log, hlog⟩ := ih
    exact ⟨_, hlog.tail hfresh⟩

theorem Grow.enters {st st' : StackGraph × σ} (h : Grow it st st') :
    st'.1 = st.1 ∨ ∃ fresh, Enters st.1 fresh st'.1 := by
  cases h with
  | frames hn _ => exact .inr ⟨_, .frames hn⟩
  | locals hf hn _ => exact .inr ⟨_, .locals hf hn⟩
  | closed => exact .inl rfl
  | value he hr _ _ => exact .inr ⟨_, .value he hr⟩
  | lost he hr _ => exact .inr ⟨_, .value he hr⟩

theorem Grows.reaches {st st' : StackGraph × σ} (h : Grows it st st') : st.1.Reaches st'.1 := by
  induction h with
  | refl => exact .of_eq rfl
  | tail _ h ih =>
    obtain hsame | ⟨fresh, hfresh⟩ := h.enters
    · exact hsame ▸ ih
    · exact ih.trans ⟨fresh, .tail .refl hfresh⟩

-- ---------------------------------------------------------------------------
-- Numbers, frames and variables of one step
-- ---------------------------------------------------------------------------

theorem Enters.minted_le {g g' : StackGraph} {fresh : List Minted} (h : Enters g fresh g') :
    g.minted ≤ g'.minted := by
  cases h with
  | frames | cut => exact Nat.le_add_right _ _
  | locals => exact Nat.le_trans (Nat.le_succ _) (Nat.le_add_right _ _)
  | value => exact minted_settle_le ..

theorem Mints.minted_le {g g' : StackGraph} {log : List Minted} (h : Mints g log g') :
    g.minted ≤ g'.minted := by
  induction h with
  | refl => exact Nat.le_refl _
  | tail _ h ih => exact Nat.le_trans ih h.minted_le

theorem Reaches.minted_le {g g' : StackGraph} (h : g.Reaches g') : g.minted ≤ g'.minted :=
  h.elim fun _ => Mints.minted_le

theorem Enters.wellFormed {g g' : StackGraph} {fresh : List Minted} (h : Enters g fresh g')
    (hg : g.WellFormed) (hb : g'.minted < 2 ^ 32) : g'.WellFormed := by
  cases h with
  | frames hn => exact (hg.enterFrames hn hb).1
  | cut => exact hg.advance hb
  | locals hf hn => exact (hg.enterLocals hf hn hb).1
  | value he hr => exact (hg.settle he hr hb).1

theorem listed_attach (g : StackGraph) (id : UInt32) (e : VariableEntry)
    (keys : List VariableKey) :
    (g.attach id e keys).listed id = (consecutive g.minted keys.length).map .variable := by
  rw [listed, attach, getElem?_put, if_pos rfl, consecutive, ← enterChildren_ids g id keys]
  rfl

theorem isSome_attach {g : StackGraph} {id : UInt32} (e : VariableEntry) {keys : List VariableKey}
    (hb : g.minted + keys.length < 2 ^ 32)
    (hold : ∀ (x : UInt32) e, g.arena[x]? = some e → x.toNat ≤ g.minted)
    (hid : id.toNat ≤ g.minted) (x : UInt32) :
    ((g.attach id e keys).arena[x]?).isSome ↔
      x = id ∨ (g.arena[x]?).isSome ∨ .variable x ∈ (g.attach id e keys).listed id := by
  have hlook := getElem?_attach e hb hold hid x
  rw [listed_attach, Option.isSome_iff_exists]
  constructor
  · rintro ⟨f, hf⟩
    obtain ⟨hx, -⟩ | ⟨-, hx⟩ | ⟨i, key, hk, rfl, -⟩ := (hlook f).1 hf
    · exact .inl hx
    · exact .inr (.inl (Option.isSome_iff_exists.2 ⟨f, hx⟩))
    · have hi := (List.getElem?_eq_some_iff.1 hk).1
      exact .inr (.inr (List.mem_map.2 ⟨_, List.mem_map.2 ⟨i, List.mem_range.2 hi, rfl⟩, rfl⟩))
  · rintro (hx | hx | hx)
    · exact ⟨_, (hlook _).2 (.inl ⟨hx, rfl⟩)⟩
    · obtain ⟨f, hf⟩ := Option.isSome_iff_exists.1 hx
      by_cases hxid : x = id
      · exact ⟨_, (hlook _).2 (.inl ⟨hxid, rfl⟩)⟩
      · exact ⟨f, (hlook f).2 (.inr (.inl ⟨hxid, hf⟩))⟩
    · obtain ⟨y, hy, hxy⟩ := List.mem_map.1 hx
      cases hxy
      obtain ⟨i, hi, rfl⟩ := List.mem_map.1 hy
      rw [List.mem_range] at hi
      exact ⟨_, (hlook _).2 (.inr (.inr ⟨i, keys[i], List.getElem?_eq_getElem hi, rfl, rfl⟩))⟩

/-- The log of a stop: all numbers that were given out since there were `n`, one after the other,
and nothing else is in the graph. -/
structure Recounted (n : Nat) (log : List Minted) (g : StackGraph) : Prop where
  minted : g.minted = n + log.length
  numbers : log.map Minted.number = consecutive n log.length
  frames : ∀ x, (g.frame? x).isSome ↔ .frame x ∈ log
  arena : ∀ x : UInt32, (g.arena[x]?).isSome ↔ .variable x ∈ log

theorem recounted_new {n : Nat} : Recounted n [] { minted := n } where
  minted := rfl
  numbers := rfl
  frames := by simp [frame?]
  arena := by simp

theorem Recounted.append {n : Nat} {log fresh : List Minted} {g g' : StackGraph}
    (h : Recounted n log g) (hm : g'.minted = g.minted + fresh.length)
    (hnum : fresh.map Minted.number = consecutive g.minted fresh.length)
    (hframes : ∀ x, (g'.frame? x).isSome ↔ (g.frame? x).isSome ∨ .frame x ∈ fresh)
    (hvars : ∀ x : UInt32, (g'.arena[x]?).isSome ↔ (g.arena[x]?).isSome ∨ .variable x ∈ fresh) :
    Recounted n (log ++ fresh) g' where
  minted := by rw [hm, h.minted, List.length_append, Nat.add_assoc]
  numbers := by
    rw [List.map_append, h.numbers, hnum, List.length_append, consecutive_add, h.minted]
  frames x := by rw [hframes, h.frames, List.mem_append]
  arena x := by rw [hvars, h.arena, List.mem_append]

theorem map_number_variable (ids : List UInt32) :
    (ids.map Minted.variable).map Minted.number = ids := by
  rw [List.map_map]
  exact List.map_id ids

theorem Recounted.enterFrames {n : Nat} {log : List Minted} {g : StackGraph}
    (h : Recounted n log g) (hn : g.frames = none) (infos : List FrameInfo) :
    Recounted n (log ++ (g.enterFrames infos).1.map fun f => .frame f.frame.id)
      (g.enterFrames infos).2 := by
  have hlen := length_enterFrames g infos
  refine h.append ?minted ?numbers ?frames ?arena
  case minted =>
    rw [List.length_map, hlen]
    rfl
  case numbers =>
    apply List.ext_getElem?
    intro i
    rw [List.length_map, hlen, consecutive, List.map_map, List.getElem?_map, getElem?_enterFrames,
      List.getElem?_map]
    by_cases hi : i < infos.length
    · rw [List.getElem?_eq_getElem hi, List.getElem?_range hi]
      rfl
    · rw [List.getElem?_eq_none (Nat.le_of_not_lt hi),
        List.getElem?_eq_none (by simpa using hi)]
      rfl
  case frames =>
    intro x
    have hold : g.frame? x = none := by simp [frame?, hn]
    show ((g.enterFrames infos).1.find? _).isSome ↔ _
    rw [hold, List.find?_isSome]
    simp
  case arena =>
    intro x
    have harena : (g.enterFrames infos).2.arena = g.arena := rfl
    simp [harena]

theorem Recounted.advance {n : Nat} {log : List Minted} {g : StackGraph}
    (h : Recounted n log g) (k : Nat) :
    Recounted n (log ++ (consecutive g.minted k).map .lost) (g.advance k) := by
  refine h.append ?minted ?numbers ?frames ?arena
  case minted =>
    rw [List.length_map, length_consecutive]
    rfl
  case numbers =>
    rw [List.map_map, List.length_map, length_consecutive]
    exact List.map_id _
  case frames =>
    intro x
    have hkept : (g.advance k).frame? x = g.frame? x := rfl
    simp [hkept]
  case arena =>
    intro x
    have harena : (g.advance k).arena = g.arena := rfl
    simp [harena]

theorem Recounted.enterLocals {n : Nat} {log : List Minted} {g : StackGraph}
    (h : Recounted n log g) (hg : g.WellFormed) (id : UInt32) (names : List String)
    (hb : (g.enterLocals id names).2.minted < 2 ^ 32) :
    Recounted n (log ++ .variable (g.enterLocals id names).1 ::
      (g.enterLocals id names).2.listed (g.enterLocals id names).1) (g.enterLocals id names).2 := by
  rw [enterLocals_eq] at hb ⊢
  have hlen : (slots names).length = names.length := by simp [slots]
  have hb : g.minted + 1 + (slots names).length < 2 ^ 32 := hb
  have hroot : (UInt32.ofNat (g.minted + 1)).toNat = g.minted + 1 := toNat_ofNat (by omega)
  have hlisted := listed_attach (g.rootAt id (.ofNat (g.minted + 1))) (.ofNat (g.minted + 1))
    (localsEntry id (.ofNat (g.minted + 1)) names) (slots names)
  have hm : (g.rootAt id (.ofNat (g.minted + 1))).minted = g.minted + 1 := rfl
  refine h.append ?minted ?numbers ?frames ?arena
  case minted =>
    rw [hlisted, List.length_cons, List.length_map, length_consecutive, minted_attach, hm]
    omega
  case numbers =>
    rw [hlisted, hm, List.map_cons, map_number_variable, List.length_cons, List.length_map,
      length_consecutive, consecutive_succ]
    rfl
  case frames =>
    intro x
    rw [frame?_congr (frames_attach ..), frame?_rootAt, Option.isSome_map, hlisted]
    simp
  case arena =>
    intro x
    have hold (x : UInt32) (e : VariableEntry)
        (he : (g.rootAt id (.ofNat (g.minted + 1))).arena[x]? = some e) :
        x.toNat ≤ (g.rootAt id (.ofNat (g.minted + 1))).minted :=
      Nat.le_succ_of_le (hg.numbers x e he).2.1
    rw [isSome_attach _ hb hold (Nat.le_of_eq hroot), List.mem_cons, Minted.variable.injEq]
    exact or_left_comm

theorem Recounted.settle {n : Nat} {log : List Minted} {g : StackGraph} (h : Recounted n log g)
    (hg : g.WellFormed) {id : UInt32} {e : VariableEntry} (he : g.arena[id]? = some e)
    (hr : e.resolved = none) (reading : Reading)
    (hb : (g.settle id e reading).2.minted < 2 ^ 32) :
    Recounted n (log ++ (g.settle id e reading).2.listed id) (g.settle id e reading).2 := by
  rw [settle_eq g id (hg.unresolved id e he hr).1] at hb ⊢
  have hlisted := listed_attach g id
    { e with resolved := some (reading.record e.key.text id) } (reading.keys.map .entry)
  refine h.append ?minted ?numbers ?frames ?arena
  case minted =>
    rw [hlisted, List.length_map, length_consecutive, minted_attach]
  case numbers =>
    simp only [hlisted, map_number_variable, List.length_map, length_consecutive]
  case frames =>
    intro x
    rw [frame?_congr (frames_attach ..), hlisted]
    simp
  case arena =>
    intro x
    rw [isSome_attach _ hb (fun x e he => (hg.numbers x e he).2.1) (hg.numbers id e he).2.1]
    constructor
    · rintro (rfl | hx)
      · exact .inl (Option.isSome_iff_exists.2 ⟨e, he⟩)
      · exact hx
    · exact .inr

theorem Recounted.enters {n : Nat} {log fresh : List Minted} {g g' : StackGraph}
    (h : Recounted n log g) (hg : g.WellFormed) (hs : Enters g fresh g')
    (hb : g'.minted < 2 ^ 32) : Recounted n (log ++ fresh) g' := by
  cases hs with
  | frames hn => exact h.enterFrames hn _
  | cut => exact h.advance _
  | locals => exact h.enterLocals hg _ _ hb
  | value he hr => exact h.settle hg he hr _ hb

theorem Mints.recounted {n : Nat} {log : List Minted} {g : StackGraph}
    (h : Mints { minted := n } log g) (hb : g.minted < 2 ^ 32) :
    Recounted n log g ∧ g.WellFormed := by
  induction h with
  | refl => exact ⟨recounted_new, wellFormed_new hb⟩
  | tail _ hs ih =>
    obtain ⟨hr, hg⟩ := ih (Nat.lt_of_le_of_lt hs.minted_le hb)
    exact ⟨hr.enters hg hs hb, hs.wellFormed hg hb⟩

-- ---------------------------------------------------------------------------
-- Questions, whatever they come to
-- ---------------------------------------------------------------------------

variable {st st' : StackGraph × σ} {fault : Fault}

/-- Frames that were numbered before the thread died have used up their numbers. -/
theorem ensureFrames_error (h : ensureFrames it st = (.error fault, st')) :
    st.1.Reaches st'.1 := by
  obtain ⟨g, s⟩ := st
  cases hn : g.frames with
  | some entries => cases (ensureFrames_known it hn s).symm.trans h
  | none =>
    obtain ⟨lost, hrun⟩ := ensureFrames_run it hn s
    rw [hrun] at h
    cases hask : it.frames s with
    | mk r s' =>
      rw [hask] at h
      cases r with
      | ok infos => cases h
      | error fault' =>
        cases h
        exact ⟨_, .tail .refl (.cut hn)⟩

theorem scopes_error {id : UInt32} (h : scopes it id st = (.error fault, st')) :
    st'.1 = st.1 := by
  obtain ⟨g, s⟩ := st
  obtain h | ⟨_, _, hg, h⟩ := bind_eq_error.1 h
  · cases h
  cases hg
  cases hf : g.frame? id with
  | none =>
    rw [hf] at h
    cases h
  | some f =>
    simp only [hf] at h
    cases hn : f.locals with
    | some root =>
      rw [hn] at h
      cases h
    | none =>
      simp only [hn] at h
      obtain h | ⟨names, _, -, h⟩ := bind_eq_error.1 h
      · exact Inspect.probe_eq_error h
      · cases names <;> cases h

theorem resolve_error {id : UInt32} (h : resolve it id st = (.error fault, st')) :
    st'.1 = st.1 := by
  obtain ⟨g, s⟩ := st
  obtain h | ⟨_, _, hg, h⟩ := bind_eq_error.1 h
  · cases h
  cases hg
  cases he : g.arena[id]? with
  | none =>
    rw [he] at h
    cases h
    rfl
  | some e =>
    simp only [he] at h
    cases hr : e.resolved with
    | some record =>
      rw [hr] at h
      cases h
    | none =>
      simp only [hr] at h
      cases hp : g.place? id with
      | none =>
        simp only [hp] at h
        cases h
      | some place =>
        simp only [hp] at h
        obtain h | ⟨reading, _, -, h⟩ := bind_eq_error.1 h
        · exact Inspect.probe_eq_error h
        · cases h

theorem resolveAll_error {ids : List UInt32} (h : resolveAll it ids st = (.error fault, st')) :
    st.1.Reaches st'.1 := by
  induction ids generalizing st with
  | nil => cases h
  | cons id ids ih =>
    obtain h | ⟨record, st₁, hid, h⟩ := bind_eq_error.1 h
    · exact .of_eq (resolve_error h)
    · obtain h | ⟨rest, st₂, -, h⟩ := bind_eq_error.1 h
      · exact (resolve_ok hid).1.reaches.trans (ih h)
      · cases h

theorem variablesOf_error {args : VariablesArguments}
    (h : variablesOf it args st = (.error fault, st')) : st.1.Reaches st'.1 := by
  obtain ⟨g, s⟩ := st
  obtain h | ⟨_, _, hg, h⟩ := bind_eq_error.1 h
  · cases h
  cases hg
  cases he : g.arena[args.variablesReference]? with
  | none =>
    rw [he] at h
    cases h
  | some e =>
    simp only [he] at h
    obtain h | ⟨record, ⟨g₁, s₁⟩, hid, h⟩ := bind_eq_error.1 h
    · exact .of_eq (resolve_error h)
    · obtain h | ⟨_, _, hg, h⟩ := bind_eq_error.1 h
      · cases h
      cases hg
      obtain h | ⟨records, _, -, h⟩ := bind_eq_error.1 h
      · exact (resolve_ok hid).1.reaches.trans (resolveAll_error h)
      · cases h

end StackGraph

theorem Question.consult_error {st st' : StackGraph × σ} {fault : Fault} {question : Question}
    (h : question.consult it st = (.error fault, st')) : st.1.Reaches st'.1 := by
  cases question with
  | stackTrace args =>
    obtain h | ⟨body, _, -, h⟩ := bind_eq_error.1 h
    · obtain h | ⟨entries, _, -, h⟩ := bind_eq_error.1 h
      · exact StackGraph.ensureFrames_error h
      · cases h
    · cases h
  | scopes args =>
    obtain h | ⟨r, _, -, h⟩ := bind_eq_error.1 h
    · exact .of_eq (StackGraph.scopes_error h)
    · cases h
  | values args =>
    obtain h | ⟨r, _, -, h⟩ := bind_eq_error.1 h
    · exact StackGraph.variablesOf_error h
    · cases h

theorem converse_error {st st' : StackGraph × σ} {fault : Fault} {questions : List Question}
    (h : converse it questions st = (.error fault, st')) : st.1.Reaches st'.1 := by
  induction questions generalizing st with
  | nil => cases h
  | cons question rest ih =>
    obtain h | ⟨shown, st₁, hq, h⟩ := bind_eq_error.1 h
    · exact Question.consult_error h
    · obtain h | ⟨others, _, -, h⟩ := bind_eq_error.1 h
      · exact (Question.consult_grows hq).reaches.trans (ih h)
      · cases h

theorem converse_mints (it : Interpreter σ) (questions : List Question) (g : StackGraph)
    (s : σ) :
    ∃ log, g.Mints log (converse it questions (g, s)).2.1 := by
  cases hrun : converse it questions (g, s) with
  | mk r st' =>
    cases r with
    | ok shown => exact (converse_grows hrun).reaches
    | error fault => exact converse_error hrun

-- ---------------------------------------------------------------------------
-- Stops one after the other
-- ---------------------------------------------------------------------------

/-- A stop: the interpreter that is parked in it, in some state, and what it was asked so far. -/
structure Visit where
  {State : Type}
  interpreter : Interpreter State
  state : State
  questions : List Question

namespace Visit

def leave (v : Visit) (g : StackGraph) : StackGraph :=
  (converse v.interpreter v.questions (g.next, v.state)).2.1

def leaveAll (g : StackGraph) (visits : List Visit) : StackGraph :=
  visits.foldl (fun g v => v.leave g) g

end Visit

inductive Recounts : StackGraph → List Visit → List Minted → Prop
  | nil {g : StackGraph} : Recounts g [] []
  | cons {g : StackGraph} {v : Visit} {visits : List Visit} {own rest : List Minted} :
      g.next.Mints own (v.leave g) → Recounts (v.leave g) visits rest →
      Recounts g (v :: visits) (own ++ rest)

theorem exists_recounts (g : StackGraph) (visits : List Visit) : ∃ log, Recounts g visits log := by
  induction visits generalizing g with
  | nil => exact ⟨[], .nil⟩
  | cons v visits ih =>
    obtain ⟨own, hown⟩ := converse_mints v.interpreter v.questions g.next v.state
    obtain ⟨rest, hrest⟩ := ih (v.leave g)
    exact ⟨own ++ rest, .cons hown hrest⟩

theorem Recounts.minted_le {g : StackGraph} {visits : List Visit} {log : List Minted}
    (h : Recounts g visits log) : g.minted ≤ (Visit.leaveAll g visits).minted := by
  induction h with
  | nil => exact Nat.le_refl _
  | cons hown _ ih => exact Nat.le_trans hown.minted_le ih

theorem Recounts.consecutive {g : StackGraph} {visits : List Visit} {log : List Minted}
    (h : Recounts g visits log) (hb : (Visit.leaveAll g visits).minted < 2 ^ 32) :
    (Visit.leaveAll g visits).minted = g.minted + log.length ∧
      log.map Minted.number = consecutive g.minted log.length := by
  induction h with
  | nil => exact ⟨rfl, rfl⟩
  | @cons g v visits own rest hown hrest ih =>
    have hv := (hown.recounted (Nat.lt_of_le_of_lt hrest.minted_le hb)).1
    obtain ⟨hm, hnum⟩ := ih hb
    rw [hv.minted] at hm hnum
    constructor
    · show (Visit.leaveAll (v.leave g) visits).minted = _
      rw [hm, List.length_append, Nat.add_assoc]
    · rw [List.map_append, hv.numbers, hnum, List.length_append, consecutive_add]

-- ---------------------------------------------------------------------------
-- Numbers that are refused
-- ---------------------------------------------------------------------------

namespace StackGraph

/-- Whichever interpreter is there to be asked, one that records its calls among them, a look at the
scopes of `x` fails and leaves everything as it was. -/
def RefusesFrame (g : StackGraph) (x : UInt32) : Prop :=
  ∀ (τ : Type) (it : Interpreter τ) (s : τ),
    scopes it x (g, s) = (.ok (.error (.unknownFrame x)), g, s)

/-- The same of a request for the children of `x`. -/
def RefusesVariable (g : StackGraph) (x : UInt32) : Prop :=
  ∀ (τ : Type) (it : Interpreter τ) (s : τ) (args : VariablesArguments),
    args.variablesReference = x →
      variablesOf it args (g, s) = (.ok (.error (.unknownVariable x)), g, s)

theorem refusesFrame_of_eq_none {g : StackGraph} {x : UInt32} (h : g.frame? x = none) :
    g.RefusesFrame x := by
  intro τ it s
  refine bind_eq_ok.2 ⟨g, (g, s), rfl, ?_⟩
  rw [h]
  rfl

theorem refusesVariable_of_eq_none {g : StackGraph} {x : UInt32} (h : g.arena[x]? = none) :
    g.RefusesVariable x := by
  rintro τ it s args rfl
  refine bind_eq_ok.2 ⟨g, (g, s), rfl, ?_⟩
  rw [h]
  rfl

end StackGraph

structure Apart (earlier : List Visit) (v : Visit) (old own : List Minted) : Prop where
  before : Recounts {} earlier old
  present : (Visit.leaveAll {} earlier).next.Mints own (v.leave (Visit.leaveAll {} earlier))
  complete : (v.leave (Visit.leaveAll {} earlier)).minted = (old ++ own).length
  frames : ∀ x, ((v.leave (Visit.leaveAll {} earlier)).frame? x).isSome ↔ .frame x ∈ own
  arena : ∀ x : UInt32, ((v.leave (Visit.leaveAll {} earlier)).arena[x]?).isSome ↔
    .variable x ∈ own
  nonzero : ∀ m ∈ old ++ own, m.number ≠ 0
  increasing : ((old ++ own).map Minted.number).Pairwise (· < ·)
  refusedFrame : ∀ x,
    x ∈ old.map Minted.number ∨ .variable x ∈ old ++ own ∨ .lost x ∈ old ++ own →
      (v.leave (Visit.leaveAll {} earlier)).RefusesFrame x
  refusedVariable : ∀ x,
    x ∈ old.map Minted.number ∨ .frame x ∈ old ++ own ∨ .lost x ∈ old ++ own →
      (v.leave (Visit.leaveAll {} earlier)).RefusesVariable x

theorem not_mem_of_pairwise {old own : List Minted} {x : UInt32} {m : Minted} (m' : Minted)
    (h : ((old ++ own).map Minted.number).Pairwise (· < ·)) (hm : m ∈ own) (hx : m.number = x)
    (hx' : m'.number = x) (hne : m' ≠ m) : x ∉ old.map Minted.number ∧ m' ∉ old ++ own := by
  have hnodup : ((old ++ own).map Minted.number).Nodup := h.imp fun hlt => UInt32.ne_of_lt hlt
  constructor
  · intro hold
    rw [List.map_append, List.nodup_append] at hnodup
    exact hnodup.2.2 x hold x (List.mem_map.2 ⟨m, hm, hx⟩) rfl
  · intro hm'
    exact hne (List.inj_on_of_nodup_map hnodup hm' (List.mem_append_right _ hm)
      (hx'.trans hx.symm))

/-- However many stops there are and whatever is asked in them, as long as the counter has numbers
left they are all different and ascend, and none is good for a later stop or for a thing of another
kind. -/
theorem numbers_never_alias (earlier : List Visit) (v : Visit)
    (hb : (v.leave (Visit.leaveAll {} earlier)).minted < 2 ^ 32) :
    ∃ old own, Apart earlier v old own := by
  obtain ⟨old, hold⟩ := exists_recounts {} earlier
  obtain ⟨own, hown⟩ := converse_mints v.interpreter v.questions
    (Visit.leaveAll {} earlier).next v.state
  obtain ⟨hown', -⟩ := hown.recounted hb
  obtain ⟨hm, hnum⟩ := hold.consecutive (Nat.lt_of_le_of_lt hown.minted_le hb)
  have hzero : ({} : StackGraph).minted = 0 := rfl
  rw [hzero, Nat.zero_add] at hm
  rw [hzero] at hnum
  have hcomplete : (v.leave (Visit.leaveAll {} earlier)).minted = (old ++ own).length := by
    rw [List.length_append, ← hm]
    exact hown'.minted
  have hall : (old ++ own).map Minted.number = consecutive 0 (old ++ own).length := by
    rw [List.map_append, hnum, hown'.numbers, List.length_append, consecutive_add, hm,
      Nat.zero_add]
  have hbound : 0 + (old ++ own).length < 2 ^ 32 := by
    rwa [Nat.zero_add, ← hcomplete]
  have hinc : ((old ++ own).map Minted.number).Pairwise (· < ·) := by
    rw [hall]
    exact pairwise_consecutive hbound
  refine ⟨old, own, hold, hown, hcomplete, hown'.frames, hown'.arena, ?nonzero, hinc, ?frames,
    ?arena⟩
  case nonzero =>
    intro m hmem
    refine ne_zero_of_mem_consecutive hbound ?_
    rw [← hall]
    exact List.mem_map_of_mem hmem
  case frames =>
    intro x hx
    apply StackGraph.refusesFrame_of_eq_none
    rw [← Option.not_isSome_iff_eq_none]
    intro hsome
    have hnot (m : Minted) := not_mem_of_pairwise m hinc ((hown'.frames x).1 hsome) rfl
    obtain ⟨h₁, h₂⟩ := hnot (.variable x) rfl (by simp)
    exact hx.elim h₁ fun hx => hx.elim h₂ (hnot (.lost x) rfl (by simp)).2
  case arena =>
    intro x hx
    apply StackGraph.refusesVariable_of_eq_none
    rw [← Option.not_isSome_iff_eq_none]
    intro hsome
    have hnot (m : Minted) := not_mem_of_pairwise m hinc ((hown'.arena x).1 hsome) rfl
    obtain ⟨h₁, h₂⟩ := hnot (.frame x) rfl (by simp)
    exact hx.elim h₁ fun hx => hx.elim h₂ (hnot (.lost x) rfl (by simp)).2

def tableVisit : Visit := ⟨Scripted.interpreter, tableStack, tableFirst⟩

theorem numbers_never_alias_table :
    (tableVisit.leave (Visit.leaveAll {} [tableVisit])).minted < 2 ^ 32 ∧
      ∃ old own, Apart [tableVisit] tableVisit old own :=
  ⟨by decide +kernel, numbers_never_alias [tableVisit] tableVisit (by decide +kernel)⟩

end DebugAdapter
