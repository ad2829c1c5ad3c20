import DebugAdapter.Proofs.Inspection.Covers
import DebugAdapter.Proofs.Inspection.Numbers

/-!
# Who asks the interpreter

The interpreter is asked for the list of frames, for the locals of one frame or for the value of one
variable. In the log that is kept here every call stands with the frame or variable it was made for.
Keeping it changes nothing (`converse_noting`), and it shows that nothing is read twice: whatever
the interpreter answers, no asker comes back with a call that was answered (`Accounted`).
-/

namespace DebugAdapter

open Protocol

variable {σ τ : Type}

-- ---------------------------------------------------------------------------
-- Calls with their askers
-- ---------------------------------------------------------------------------

inductive Asker where
  | stack
  | frame (id : UInt32)
  | value (id : UInt32)
deriving DecidableEq

/-- A call, on whose behalf it was made, and what came back. -/
structure Lookup where
  asker : Asker
  call : Call
  answer : Except Fault call.Answer

/-- The locals of a frame were asked for and could be read. -/
def Lookup.opened : Lookup → Bool
  | ⟨_, .locals _, .ok (some _)⟩ => true
  | _ => false

/-- The same interpreter, which also keeps a log of what it was asked and for whom. -/
def Interpreter.noting (it : Interpreter σ) (asker : Asker) : Interpreter (σ × List Lookup) where
  answer call := fun (s, log) =>
    let (a, s) := it.answer call s
    (a, s, log ++ [⟨asker, call, a⟩])

-- ---------------------------------------------------------------------------
-- An interpreter for each asker
-- ---------------------------------------------------------------------------

namespace StackGraph

/-- `resolveAll` with an interpreter for each variable. -/
def resolveAllBy (its : UInt32 → Interpreter τ) : List UInt32 → Inspect τ (List Variable)
  | [] => pure []
  | id :: rest => do
    let record ← resolve (its id) id
    let records ← resolveAllBy its rest
    pure (record :: records)

def variablesOfBy (its : UInt32 → Interpreter τ) (args : VariablesArguments) :
    Inspect τ (Except AdapterError (List Variable)) := do
  let id := args.variablesReference
  match (← Inspect.graph).arena[id]? with
  | none => pure (.error (.unknownVariable id))
  | some _ =>
    let _ ← resolve (its id) id
    let g ← Inspect.graph
    let children := ((g.arena[id]?).map (·.children)).getD []
    let chosen := page args.start args.count (children.filter (g.passes args.filter))
    let records ← resolveAllBy its chosen
    pure (.ok records)

end StackGraph

def Question.consultBy (its : Asker → Interpreter τ) : Question → Inspect τ Shown
  | .stackTrace args => do
    let body ← StackGraph.stackTrace (its .stack) args
    pure (.frames body)
  | .scopes args => do
    let r ← StackGraph.scopes (its (.frame args.frameId)) args.frameId
    pure (.scopes r)
  | .values args => do
    let r ← StackGraph.variablesOfBy (fun id => its (.value id)) args
    pure (.values r)

def converseBy (its : Asker → Interpreter τ) : List Question → Inspect τ (List Shown)
  | [] => pure []
  | question :: rest => do
    let shown ← question.consultBy its
    let others ← converseBy its rest
    pure (shown :: others)

-- Interpreters that answer like one and the same make no difference.

section Covers

variable {π : τ → σ} {its : Asker → Interpreter τ} {it : Interpreter σ}

theorem StackGraph.covers_resolveAllBy {its : UInt32 → Interpreter τ}
    (h : ∀ id, (its id).Covers π it) (ids : List UInt32) :
    Covers (beneath π) (resolveAllBy its ids) (resolveAll it ids) := by
  induction ids with
  | nil => exact .pure []
  | cons id ids ih =>
    exact (covers_resolve (h id) id).bind fun record =>
      ih.bind fun records => .pure (record :: records)

theorem StackGraph.covers_variablesOfBy {its : UInt32 → Interpreter τ}
    (h : ∀ id, (its id).Covers π it) (args : VariablesArguments) :
    Covers (beneath π) (variablesOfBy its args) (variablesOf it args) := by
  refine covers_graph.bind fun g => ?_
  cases g.arena[args.variablesReference]? with
  | none => exact .pure _
  | some entry =>
    refine (covers_resolve (h _) _).bind fun _ => covers_graph.bind fun g => ?_
    exact (covers_resolveAllBy h _).bind fun _ => .pure _

theorem Question.covers_consultBy (h : ∀ asker, (its asker).Covers π it) (question : Question) :
    Covers (beneath π) (question.consultBy its) (question.consult it) := by
  cases question with
  | stackTrace args => exact (StackGraph.covers_stackTrace (h _) args).bind fun _ => .pure _
  | scopes args => exact (StackGraph.covers_scopes (h _) args.frameId).bind fun _ => .pure _
  | values args =>
    exact (StackGraph.covers_variablesOfBy (fun id => h (.value id)) args).bind fun _ => .pure _

theorem covers_converseBy (h : ∀ asker, (its asker).Covers π it) (questions : List Question) :
    Covers (beneath π) (converseBy its questions) (converse it questions) := by
  induction questions with
  | nil => exact .pure []
  | cons question rest ih =>
    exact (question.covers_consultBy h).bind fun shown => ih.bind fun others =>
      .pure (shown :: others)

end Covers

theorem Interpreter.covers_noting (it : Interpreter σ) (asker : Asker) :
    (it.noting asker).Covers Prod.fst it :=
  fun _ _ => rfl

/-- A log without the askers. -/
def unattributed : σ × List Lookup → σ × List Call := Prod.map id (List.map Lookup.call)

theorem Interpreter.covers_noting_recording (it : Interpreter σ) (asker : Asker) :
    (it.noting asker).Covers unattributed it.recording := by
  rintro call ⟨s, log⟩
  show _ = (_, _, List.map Lookup.call (log ++ [_]))
  rw [List.map_append]
  rfl

section

variable (it : Interpreter σ) (questions : List Question) (g : StackGraph) (s : σ)

/-- Noting the askers changes nothing. -/
theorem converse_noting :
    converse it questions (g, s) =
      ((converseBy it.noting questions (g, s, [])).1,
        (converseBy it.noting questions (g, s, [])).2.1,
        (converseBy it.noting questions (g, s, [])).2.2.1) :=
  covers_converseBy it.covers_noting questions (g, s, [])

theorem converse_recording_noting :
    converse it.recording questions (g, s, []) =
      ((converseBy it.noting questions (g, s, [])).1,
        (converseBy it.noting questions (g, s, [])).2.1,
        (converseBy it.noting questions (g, s, [])).2.2.1,
        (converseBy it.noting questions (g, s, [])).2.2.2.map Lookup.call) :=
  covers_converseBy it.covers_noting_recording questions (g, s, [])

end

-- ---------------------------------------------------------------------------
-- What one asker may ask
-- ---------------------------------------------------------------------------

def askedBy (asker : Asker) (log : List Lookup) : List Lookup := log.filter (·.asker = asker)

namespace Asker

/-- Each level once from the innermost on; the locals of one level until they could be read; the
value at one place and then its keys. -/
def ReadsOnce : Asker → List Lookup → Prop
  | .stack, asked => ∃ n ≤ UInt32.size,
    asked.map Lookup.call = (List.range n).map fun i => .frame (.ofNat i)
  | .frame _, asked => ∃ level, (∀ a ∈ asked, a.call = .locals level) ∧
    asked.countP Lookup.opened ≤ 1
  | .value _, asked => ∃ place, asked.map Lookup.call <+: [.resolve place, .entries place]

def Lacks (g : StackGraph) : Asker → Prop
  | .stack => g.frames = none
  | .frame id => ∀ f, g.frame? id = some f → f.locals = none
  | .value id => ∀ record, ¬ g.Settled id record

/-- What an asker has asked who still lacks the answer: nothing, unless a frame could not be
entered. -/
def Pending (g : StackGraph) : Asker → List Lookup → Prop
  | .stack, asked | .value _, asked => asked = []
  | .frame id, asked => ∀ a ∈ asked, a.opened = false ∧
    ∃ f, g.frame? id = some f ∧ a.call = .locals f.level

end Asker

/-- Nobody has asked anything twice. -/
def ReadOnce (log : List Lookup) : Prop := ∀ asker : Asker, asker.ReadsOnce (askedBy asker log)

/-- Nobody has asked anything twice, and what is not in the graph was not read. -/
def Accounts (g : StackGraph) (log : List Lookup) : Prop :=
  ∀ asker : Asker, asker.ReadsOnce (askedBy asker log) ∧
    (asker.Lacks g → asker.Pending g (askedBy asker log))

-- ---------------------------------------------------------------------------
-- What a look at the interpreter adds to the log
-- ---------------------------------------------------------------------------

section Adds

variable {α β : Type} {asker : Asker}

/-- A computation adds calls of one asker to the log, and those are as promised for its result. -/
def Adds (asker : Asker) (m : Probe (σ × List Lookup) α)
    (P : Except Fault α → List Lookup → Prop) : Prop :=
  ∀ s log, ∃ added, (m (s, log)).2.2 = log ++ added ∧ (∀ a ∈ added, a.asker = asker) ∧
    P (m (s, log)).1 added

theorem Adds.pure {a : α} {P : Except Fault α → List Lookup → Prop} (h : P (.ok a) []) :
    Adds asker (Pure.pure a : Probe (σ × List Lookup) α) P :=
  fun _ log => ⟨[], (List.append_nil log).symm, List.forall_mem_nil _, h⟩

theorem Adds.ask {it : Interpreter σ} {call : Call}
    {P : Except Fault call.Answer → List Lookup → Prop} (h : ∀ r, P r [⟨asker, call, r⟩]) :
    Adds asker ((it.noting asker).ask call) P :=
  fun _ _ => ⟨_, rfl, by simp, h _⟩

theorem Adds.bind {m : Probe (σ × List Lookup) α} {f : α → Probe (σ × List Lookup) β}
    {P : Except Fault α → List Lookup → Prop} {Q : Except Fault β → List Lookup → Prop}
    (hm : Adds asker m P) (hfault : ∀ fault added, P (.error fault) added → Q (.error fault) added)
    (hf : ∀ a added, P (.ok a) added → Adds asker (f a) fun r more => Q r (added ++ more)) :
    Adds asker (m >>= f) Q := by
  intro s log
  obtain ⟨added, hlog, hadded, hp⟩ := hm s log
  rw [bind_run]
  obtain ⟨r, ⟨s', log'⟩, hrun⟩ : ∃ r st', m (s, log) = (r, st') := ⟨_, _, rfl⟩
  rw [hrun] at hlog hp ⊢
  obtain rfl : log' = log ++ added := hlog
  cases r with
  | error fault => exact ⟨added, rfl, hadded, hfault fault added hp⟩
  | ok a =>
    obtain ⟨more, hlog, hmore, hq⟩ := hf a added hp s' (log ++ added)
    refine ⟨added ++ more, hlog.trans (List.append_assoc ..), fun b hb => ?_, hq⟩
    exact (List.mem_append.1 hb).elim (hadded b) (hmore b)

variable (it : Interpreter σ)

theorem adds_framesFrom (steps : Nat) (level : UInt32) :
    Adds asker ((it.noting asker).framesFrom steps level) fun _ added =>
      ∃ n ≤ steps, added.map Lookup.call =
        (List.range n).map fun i => .frame (level + .ofNat i) := by
  induction steps generalizing level with
  | zero => exact .pure ⟨0, Nat.le_refl 0, rfl⟩
  | succ steps ih =>
    have hfirst : level + .ofNat 0 = level := UInt32.add_zero level
    refine Adds.bind (P := fun _ added => added.map Lookup.call = [.frame level])
      (.ask fun _ => rfl) ?fault ?more
    case fault => exact fun _ added h => ⟨1, by omega, by simpa [hfirst] using h⟩
    case more =>
      intro info added h
      cases info with
      | none => exact .pure ⟨1, by omega, by simpa [hfirst] using h⟩
      | some info =>
        have hmore {more : List Lookup} {n : Nat}
            (hn : more.map Lookup.call =
              (List.range n).map fun i => .frame (level + 1 + .ofNat i)) :
            (added ++ more).map Lookup.call =
              (List.range (n + 1)).map fun i => .frame (level + .ofNat i) := by
          rw [List.map_append, h, hn, List.range_succ_eq_map, List.map_cons, List.map_map, hfirst]
          refine congrArg (_ :: ·) (List.map_congr_left fun i _ => ?_)
          rw [Function.comp_apply, UInt32.add_assoc, UInt32.add_comm 1, ← UInt32.ofNat_one,
            ← UInt32.ofNat_add]
        refine (ih (level + 1)).bind ?fault ?more
        case fault => exact fun _ more ⟨n, hn, hcalls⟩ => ⟨n + 1, by omega, hmore hcalls⟩
        case more =>
          rintro outer more ⟨n, hn, hcalls⟩
          refine .pure ⟨n + 1, by omega, ?_⟩
          rw [List.append_nil]
          exact hmore hcalls

theorem adds_frames :
    Adds asker (it.noting asker).frames fun _ added => ∃ n ≤ UInt32.size,
      added.map Lookup.call = (List.range n).map fun i => .frame (.ofNat i) := by
  intro s log
  obtain ⟨added, hlog, hadded, n, hn, hcalls⟩ := adds_framesFrom it Interpreter.maxLevels 0 s log
  exact ⟨added, hlog, hadded, n, hn, by simpa using hcalls⟩

theorem adds_read (place : Place) :
    Adds asker ((it.noting asker).read place) fun _ added =>
      added.map Lookup.call <+: [.resolve place, .entries place] := by
  have hfirst {added : List Lookup} (h : added.map Lookup.call = [.resolve place]) :
      added.map Lookup.call <+: [.resolve place, .entries place] := by
    rw [h]
    exact ⟨[.entries place], rfl⟩
  refine Adds.bind (P := fun _ added => added.map Lookup.call = [.resolve place])
    (.ask fun _ => rfl) (fun _ _ => hfirst) fun value added h => ?_
  split
  · exact .pure (by simpa using hfirst h)
  · refine Adds.bind (P := fun _ more => more.map Lookup.call = [.entries place])
      (.ask fun _ => rfl) ?fault ?keys
    case fault =>
      intro _ more hmore
      rw [List.map_append, h, hmore]
      exact List.prefix_rfl
    case keys =>
      intro keys more hmore
      refine .pure ?_
      rw [List.append_nil, List.map_append, h, hmore]
      exact List.prefix_rfl
  · exact .pure (by simpa using hfirst h)

end Adds

-- ---------------------------------------------------------------------------
-- Looking once
-- ---------------------------------------------------------------------------

section

variable {asker : Asker} {log added : List Lookup}

theorem askedBy_append_self (h : ∀ a ∈ added, a.asker = asker) :
    askedBy asker (log ++ added) = askedBy asker log ++ added := by
  have hadded : added.filter (·.asker = asker) = added :=
    List.filter_eq_self.2 fun a ha => by simpa using h a ha
  rw [askedBy, List.filter_append, hadded, askedBy]

theorem askedBy_append_of_ne {other : Asker} (h : ∀ a ∈ added, a.asker = asker)
    (hne : other ≠ asker) : askedBy other (log ++ added) = askedBy other log := by
  have hadded : added.filter (·.asker = other) = [] :=
    List.filter_eq_nil_iff.2 fun a ha => by simpa [h a ha] using hne.symm
  rw [askedBy, List.filter_append, hadded, List.append_nil, askedBy]

end

namespace StackGraph

variable {it : Interpreter σ} {st st' : StackGraph × σ}

theorem Grow.frames_kept (h : Grow it st st') {entries : List FrameEntry}
    (hentries : st.1.frames = some entries) : ∃ entries', st'.1.frames = some entries' ∧
      entries'.map (·.frame) = entries.map (·.frame) := by
  cases h with
  | frames hn =>
    rw [hn] at hentries
    cases hentries
  | @locals _ _ _ id _ names =>
    refine ⟨_, (congrArg (Option.map _) hentries).trans (Option.map_some ..), ?_⟩
    rw [List.map_map]
    refine List.map_congr_left fun f _ => ?_
    rw [Function.comp_apply]
    split <;> rfl
  | closed => exact ⟨entries, hentries, rfl⟩
  | @value _ _ _ _ _ _ reading => cases reading <;> exact ⟨entries, hentries, rfl⟩
  | lost => exact ⟨entries, hentries, rfl⟩

theorem Grows.frames_kept (h : Grows it st st') {entries : List FrameEntry}
    (hentries : st.1.frames = some entries) : ∃ entries', st'.1.frames = some entries' ∧
      entries'.map (·.frame) = entries.map (·.frame) := by
  induction h with
  | refl => exact ⟨entries, hentries, rfl⟩
  | tail _ h ih =>
    obtain ⟨mid, hmid, hsame⟩ := ih
    obtain ⟨entries', hentries', hsame'⟩ := h.frames_kept hmid
    exact ⟨entries', hentries', hsame'.trans hsame⟩

theorem Grows.lacks (h : Grows it st st') (hext : st.1.Extends st'.1) {asker : Asker}
    (hlacks : asker.Lacks st'.1) : asker.Lacks st.1 := by
  cases asker with
  | stack =>
    refine Option.eq_none_iff_forall_ne_some.2 fun entries hentries => ?_
    obtain ⟨entries', hentries', -⟩ := h.frames_kept hentries
    cases hentries'.symm.trans hlacks
  | frame id =>
    intro f hf
    obtain ⟨f', hf', -, -, hlocals⟩ := hext.frame id f hf
    refine Option.eq_none_iff_forall_ne_some.2 fun root hroot => ?_
    cases (hlocals root hroot).symm.trans (hlacks f' hf')
  | value id => exact fun record hsettled => hlacks record (hsettled.mono hext.keeps)

theorem Extends.pending {g g' : StackGraph} (hext : g.Extends g') {asker : Asker}
    {asked : List Lookup} (h : asker.Pending g asked) : asker.Pending g' asked := by
  cases asker with
  | stack => exact h
  | frame id =>
    intro a ha
    obtain ⟨hopened, f, hf, hcall⟩ := h a ha
    obtain ⟨f', hf', hlevel, -⟩ := hext.frame id f hf
    exact ⟨hopened, f', hf', hlevel ▸ hcall⟩
  | value id => exact h

end StackGraph

section Accounted

variable {α β : Type}

def Accounted (m : Inspect (σ × List Lookup) α) : Prop :=
  ∀ st, st.1.minted ≤ (m st).2.1.minted ∧
    (st.1.WellFormed → Accounts st.1 st.2.2 → (m st).2.1.minted < 2 ^ 32 →
      ReadOnce (m st).2.2.2 ∧
      ∀ a, (m st).1 = .ok a → (m st).2.1.WellFormed ∧ Accounts (m st).2.1 (m st).2.2.2)

theorem Accounted.pure (a : α) : Accounted (Pure.pure a : Inspect (σ × List Lookup) α) :=
  fun _ => ⟨Nat.le_refl _, fun hg h _ => ⟨fun asker => (h asker).1, fun _ _ => ⟨hg, h⟩⟩⟩

theorem Accounted.bind {m : Inspect (σ × List Lookup) α} {f : α → Inspect (σ × List Lookup) β}
    (hm : Accounted m) (hf : ∀ a, Accounted (f a)) : Accounted (m >>= f) := by
  intro st
  obtain ⟨hle, hrun⟩ := hm st
  rw [bind_run]
  obtain ⟨r, st', hr⟩ : ∃ r st', m st = (r, st') := ⟨_, _, rfl⟩
  rw [hr] at hle hrun ⊢
  cases r with
  | error fault =>
    refine ⟨hle, fun hg h hb => ⟨(hrun hg h hb).1, nofun⟩⟩
  | ok a =>
    obtain ⟨hle', hrest⟩ := hf a st'
    refine ⟨Nat.le_trans hle hle', fun hg h hb => ?_⟩
    obtain ⟨hg', h'⟩ := (hrun hg h (Nat.lt_of_le_of_lt hle' hb)).2 a rfl
    exact hrest hg' h' hb

theorem Accounted.graph : Accounted (Inspect.graph : Inspect (σ × List Lookup) StackGraph) :=
  fun _ => ⟨Nat.le_refl _, fun hg h _ => ⟨fun asker => (h asker).1, fun _ _ => ⟨hg, h⟩⟩⟩

/-- A look on behalf of one asker, from a state to a result and another state. Whatever the asker
has asked before, with what is added now nothing was asked twice. -/
def LooksOnce (asker : Asker) (st : StackGraph × σ × List Lookup)
    (out : Except Fault α × StackGraph × σ × List Lookup) : Prop :=
  ∃ added, out.2.2.2 = st.2.2 ++ added ∧ (∀ a ∈ added, a.asker = asker) ∧
    ∀ asked, asker.ReadsOnce asked → (asker.Lacks st.1 → asker.Pending st.1 asked) →
      asker.ReadsOnce (asked ++ added) ∧
      ∀ a, out.1 = .ok a → asker.Lacks out.2.1 → asker.Pending out.2.1 (asked ++ added)

theorem LooksOnce.idle {asker : Asker} {g g' : StackGraph} {s : σ} {log : List Lookup}
    {r : Except Fault α} (h : g' = g ∨ ¬ asker.Lacks g') :
    LooksOnce asker (g, s, log) (r, g', s, log) := by
  refine ⟨[], (List.append_nil log).symm, List.forall_mem_nil _, fun asked honce hpending => ?_⟩
  rw [List.append_nil]
  refine ⟨honce, fun _ _ hlacks => ?_⟩
  obtain rfl | hnot := h
  · exact hpending hlacks
  · exact absurd hlacks hnot

theorem Accounted.of_look {m : Inspect (σ × List Lookup) α} {it : Interpreter (σ × List Lookup)}
    (asker : Asker)
    (hok : ∀ st a st', m st = (.ok a, st') → StackGraph.Grows it st st')
    (herror : ∀ st fault st', m st = (.error fault, st') → st.1.minted ≤ st'.1.minted)
    (hlook : ∀ st, LooksOnce asker st (m st)) : Accounted m := by
  intro st
  obtain ⟨added, hlog, hadded, hself⟩ := hlook st
  obtain ⟨r, st', hr⟩ : ∃ r st', m st = (r, st') := ⟨_, _, rfl⟩
  rw [hr] at hlog hself ⊢
  have honce (h : Accounts st.1 st.2.2) : ReadOnce st'.2.2 := by
    intro other
    rw [show st'.2.2 = st.2.2 ++ added from hlog]
    by_cases hother : other = asker
    · subst hother
      rw [askedBy_append_self hadded]
      exact (hself _ (h other).1 (h other).2).1
    · rw [askedBy_append_of_ne hadded hother]
      exact (h other).1
  cases r with
  | error fault =>
    exact ⟨herror st fault st' hr, fun _ h _ => ⟨honce h, nofun⟩⟩
  | ok a =>
    have hgrows := hok st a st' hr
    refine ⟨hgrows.minted_le, fun hg h hb => ⟨honce h, fun _ _ => ?_⟩⟩
    obtain ⟨hg', hext⟩ := hgrows.wellFormed hg hb
    refine ⟨hg', fun other => ⟨honce h other, fun hlacks => ?_⟩⟩
    rw [show st'.2.2 = st.2.2 ++ added from hlog]
    by_cases hother : other = asker
    · subst hother
      rw [askedBy_append_self hadded]
      exact (hself _ (h other).1 (h other).2).2 a rfl hlacks
    · rw [askedBy_append_of_ne hadded hother]
      exact hext.pending ((h other).2 (hgrows.lacks hext hlacks))

end Accounted

-- ---------------------------------------------------------------------------
-- Requests
-- ---------------------------------------------------------------------------

namespace StackGraph

variable (it : Interpreter σ)

theorem scopes_unknown {g : StackGraph} {id : UInt32} (hf : g.frame? id = none) (s : σ) :
    scopes it id (g, s) = (.ok (.error (.unknownFrame id)), g, s) := by
  refine bind_eq_ok.2 ⟨g, (g, s), rfl, ?_⟩
  rw [hf]
  rfl

theorem scopes_known {g : StackGraph} {id root : UInt32} {f : FrameEntry}
    (hf : g.frame? id = some f) (hroot : f.locals = some root) (s : σ) :
    scopes it id (g, s) = (.ok (.ok [localScope root]), g, s) := by
  refine bind_eq_ok.2 ⟨g, (g, s), rfl, ?_⟩
  simp only [hf, hroot]
  rfl

theorem scopes_run {g : StackGraph} {id : UInt32} {f : FrameEntry} (hf : g.frame? id = some f)
    (hn : f.locals = none) (s : σ) :
    scopes it id (g, s) = match it.locals f.level s with
      | (.ok none, s') => (.ok (.ok []), g, s')
      | (.ok (some names), s') =>
        (.ok (.ok [localScope (g.enterLocals id names).1]), (g.enterLocals id names).2, s')
      | (.error fault, s') => (.error fault, g, s') := by
  have hgraph : Inspect.graph (g, s) = (.ok g, g, s) := rfl
  have hprobe : Inspect.probe (it.locals f.level) (g, s) =
      ((it.locals f.level s).1, g, (it.locals f.level s).2) := rfl
  rw [scopes, bind_run, hgraph]
  simp only [hf, hn]
  rw [bind_run, hprobe]
  obtain ⟨r, s'⟩ := it.locals f.level s
  cases r with
  | error fault => rfl
  | ok names => cases names <;> rfl

theorem resolve_unknown {g : StackGraph} {id : UInt32} (he : g.arena[id]? = none) (s : σ) :
    resolve it id (g, s) = (.error (.dangling id), g, s) := by
  have hgraph : Inspect.graph (g, s) = (.ok g, g, s) := rfl
  rw [resolve, bind_run, hgraph]
  simp only [he]
  rfl

theorem resolve_known {g : StackGraph} {id : UInt32} {record : Variable}
    (hsettled : g.Settled id record) (s : σ) : resolve it id (g, s) = (.ok record, g, s) := by
  obtain ⟨e, he, hr⟩ := hsettled
  refine bind_eq_ok.2 ⟨g, (g, s), rfl, ?_⟩
  simp only [he, hr]
  rfl

theorem resolve_lost {g : StackGraph} {id : UInt32} {e : VariableEntry}
    (he : g.arena[id]? = some e) (hr : e.resolved = none) (hp : g.place? id = none) (s : σ) :
    resolve it id (g, s) = (.ok (g.settle id e .nowhere).1, (g.settle id e .nowhere).2, s) := by
  refine bind_eq_ok.2 ⟨g, (g, s), rfl, ?_⟩
  simp only [he, hr, hp]
  rfl

theorem resolve_run {g : StackGraph} {id : UInt32} {e : VariableEntry} {place : Place}
    (he : g.arena[id]? = some e) (hr : e.resolved = none) (hp : g.place? id = some place) (s : σ) :
    resolve it id (g, s) = match it.read place s with
      | (.ok reading, s') => (.ok (g.settle id e reading).1, (g.settle id e reading).2, s')
      | (.error fault, s') => (.error fault, g, s') := by
  have hgraph : Inspect.graph (g, s) = (.ok g, g, s) := rfl
  have hprobe : Inspect.probe (it.read place) (g, s) =
      ((it.read place s).1, g, (it.read place s).2) := rfl
  rw [resolve, bind_run, hgraph]
  simp only [he, hr, hp]
  rw [bind_run, hprobe]
  obtain ⟨r, s'⟩ := it.read place s
  cases r <;> rfl

theorem accounted_ensureFrames : Accounted (ensureFrames (it.noting .stack)) := by
  refine .of_look .stack (fun _ _ _ h => (ensureFrames_ok h).1)
    (fun _ _ _ h => (ensureFrames_error h).minted_le) ?_
  rintro ⟨g, s, log⟩
  cases hn : g.frames with
  | some entries =>
    rw [ensureFrames_known _ hn]
    exact .idle (.inl rfl)
  | none =>
    obtain ⟨added, hlog, hadded, hcalls⟩ := adds_frames it s log
    obtain ⟨lost, hensure⟩ := ensureFrames_run (it.noting .stack) hn (s, log)
    rw [hensure]
    obtain ⟨r, s', hrun⟩ : ∃ r s', (it.noting .stack).frames (s, log) = (r, s') := ⟨_, _, rfl⟩
    rw [hrun] at hlog ⊢
    refine ⟨added, ?log, hadded, fun asked _ hpending => ?calls⟩
    case log => cases r <;> exact hlog
    case calls =>
      obtain rfl : asked = [] := hpending hn
      refine ⟨hcalls, fun entries h hlacks => ?_⟩
      cases r with
      | error fault => cases h
      | ok infos => cases hlacks

theorem accounted_scopes (id : UInt32) : Accounted (scopes (it.noting (.frame id)) id) := by
  refine .of_look (.frame id) (fun _ _ _ h => (scopes_ok h).1)
    (fun _ _ _ h => (Reaches.of_eq (scopes_error h)).minted_le) ?_
  rintro ⟨g, s, log⟩
  cases hf : g.frame? id with
  | none =>
    rw [scopes_unknown _ hf]
    exact .idle (.inl rfl)
  | some f =>
    cases hlocals : f.locals with
    | some root =>
      rw [scopes_known _ hf hlocals]
      exact .idle (.inl rfl)
    | none =>
      have hlacks : (Asker.frame id).Lacks g := by
        intro f' hf'
        cases hf.symm.trans hf'
        exact hlocals
      rw [scopes_run _ hf hlocals]
      obtain ⟨r, s', hask⟩ : ∃ r s', it.answer (.locals f.level) s = (r, s') := ⟨_, _, rfl⟩
      have hnote : (it.noting (.frame id)).locals f.level (s, log) =
          (r, s', log ++ [⟨.frame id, .locals f.level, r⟩]) := by
        show ((it.answer _ s).1, (it.answer _ s).2, log ++ [Lookup.mk _ _ (it.answer _ s).1]) = _
        rw [hask]
      rw [hnote]
      refine ⟨[⟨.frame id, .locals f.level, r⟩], ?log, by simp, fun asked _ hpending => ?calls⟩
      case log =>
        cases r with
        | error fault => rfl
        | ok names => cases names <;> rfl
      case calls =>
        have hclosed := hpending hlacks
        have hcalls : ∀ a ∈ asked ++ [⟨.frame id, .locals f.level, r⟩],
            a.call = .locals f.level := by
          intro a ha
          obtain ha | ha := List.mem_append.1 ha
          · obtain ⟨-, f', hf', hcall⟩ := hclosed a ha
            cases hf.symm.trans hf'
            exact hcall
          · rw [List.mem_singleton.1 ha]
        refine ⟨⟨f.level, hcalls, ?_⟩, fun found h hlacks' => ?_⟩
        · have hzero : asked.countP Lookup.opened = 0 :=
            List.countP_eq_zero.2 fun a ha => by simp [(hclosed a ha).1]
          rw [List.countP_append, hzero, Nat.zero_add]
          exact List.countP_le_length
        · cases r with
          | error fault => cases h
          | ok names =>
            cases names with
            | none =>
              intro a ha
              refine ⟨?_, f, hf, hcalls a ha⟩
              obtain ha | ha := List.mem_append.1 ha
              · exact (hclosed a ha).1
              · rw [List.mem_singleton.1 ha]
                rfl
            | some names => cases hlacks' _ (frame?_enterLocals hf names)

theorem accounted_resolve (id : UInt32) : Accounted (resolve (it.noting (.value id)) id) := by
  refine .of_look (.value id) (fun _ _ _ h => (resolve_ok h).1)
    (fun _ _ _ h => (Reaches.of_eq (resolve_error h)).minted_le) ?_
  rintro ⟨g, s, log⟩
  cases he : g.arena[id]? with
  | none =>
    rw [resolve_unknown _ he]
    exact .idle (.inl rfl)
  | some e =>
    cases hr : e.resolved with
    | some record =>
      rw [resolve_known _ ⟨e, he, hr⟩]
      exact .idle (.inl rfl)
    | none =>
      cases hp : g.place? id with
      | none =>
        rw [resolve_lost _ he hr hp]
        exact .idle (.inr fun h => h _ (settled_settle g id e .nowhere))
      | some place =>
        obtain ⟨added, hlog, hadded, hcalls⟩ := adds_read it place s log
        have hlacks : (Asker.value id).Lacks g := by
          rintro record ⟨e', he', hrecord⟩
          cases he.symm.trans he'
          cases hr.symm.trans hrecord
        rw [resolve_run _ he hr hp]
        obtain ⟨r, s', hrun⟩ : ∃ r s', (it.noting (.value id)).read place (s, log) = (r, s') :=
          ⟨_, _, rfl⟩
        rw [hrun] at hlog ⊢
        refine ⟨added, ?log, hadded, fun asked _ hpending => ?calls⟩
        case log => cases r <;> exact hlog
        case calls =>
          obtain rfl : asked = [] := hpending hlacks
          refine ⟨⟨place, hcalls⟩, fun record h hlacks => ?_⟩
          cases r with
          | error fault => cases h
          | ok reading => exact absurd (settled_settle g id e reading) (hlacks _)

theorem accounted_resolveAllBy (ids : List UInt32) :
    Accounted (resolveAllBy (fun id => it.noting (.value id)) ids) := by
  induction ids with
  | nil => exact .pure []
  | cons id ids ih =>
    exact (accounted_resolve it id).bind fun record => ih.bind fun records =>
      .pure (record :: records)

theorem accounted_variablesOfBy (args : VariablesArguments) :
    Accounted (variablesOfBy (fun id => it.noting (.value id)) args) := by
  refine Accounted.graph.bind fun g => ?_
  cases g.arena[args.variablesReference]? with
  | none => exact .pure _
  | some e =>
    refine (accounted_resolve it _).bind fun _ => Accounted.graph.bind fun g => ?_
    exact (accounted_resolveAllBy it _).bind fun records => .pure _

end StackGraph

theorem Question.accounted_consultBy (it : Interpreter σ) (question : Question) :
    Accounted (question.consultBy it.noting) := by
  cases question with
  | stackTrace args =>
    refine Accounted.bind ?_ fun body => .pure _
    exact (StackGraph.accounted_ensureFrames it).bind fun entries => .pure _
  | scopes args => exact (StackGraph.accounted_scopes it _).bind fun r => .pure _
  | values args => exact (StackGraph.accounted_variablesOfBy it args).bind fun r => .pure _

theorem accounted_converseBy (it : Interpreter σ) (questions : List Question) :
    Accounted (converseBy it.noting questions) := by
  induction questions with
  | nil => exact .pure []
  | cons question rest ih =>
    exact (question.accounted_consultBy it).bind fun shown => ih.bind fun others =>
      .pure (shown :: others)

theorem accounts_new (minted : Nat) : Accounts { minted := minted } [] := by
  intro asker
  cases asker with
  | stack => exact ⟨⟨0, Nat.zero_le _, rfl⟩, fun _ => rfl⟩
  | frame id => exact ⟨⟨0, List.forall_mem_nil _, Nat.zero_le _⟩, fun _ => List.forall_mem_nil _⟩
  | value id => exact ⟨⟨⟨0, 0, []⟩, List.nil_prefix⟩, fun _ => rfl⟩

theorem readOnce_converseBy (it : Interpreter σ) (questions : List Question) (minted : Nat) (s : σ)
    (hb : (converseBy it.noting questions ({ minted := minted }, s, [])).2.1.minted < 2 ^ 32) :
    ReadOnce (converseBy it.noting questions ({ minted := minted }, s, [])).2.2.2 := by
  obtain ⟨hle, hrun⟩ := accounted_converseBy it questions ({ minted := minted }, s, [])
  exact (hrun (StackGraph.wellFormed_new (Nat.lt_of_le_of_lt hle hb)) (accounts_new minted) hb).1

end DebugAdapter
