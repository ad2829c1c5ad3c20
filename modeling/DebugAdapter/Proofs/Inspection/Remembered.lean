import DebugAdapter.Proofs.Inspection.Askers

/-!
# Answers are remembered

What a question came to can be read off the graph for the rest of the stop (`Holds`), whatever else
is asked in between. So when it is asked again it gets the same answer, and the interpreter is not
needed. The one exception is a frame whose locals could not be read: its answer was empty, and until
the locals are read each look at its scopes asks for them once more. With the log of who asked, this
is `answers_last`.
-/

namespace DebugAdapter

open Protocol

variable {σ : Type} {it : Interpreter σ}

theorem map_page {α β : Type} (f : α → β) (start count : Option UInt32) (items : List α) :
    page start count (items.map f) = (page start count items).map f := by
  unfold page
  split
  · split
    · rw [List.map_drop]
    · rw [List.map_take, List.map_drop]
  · rw [List.map_drop]

-- ---------------------------------------------------------------------------
-- Answers that the graph holds
-- ---------------------------------------------------------------------------

/-- The answer to a question can be read off the graph. -/
inductive StackGraph.Holds (g : StackGraph) : Question → Shown → Prop
  | frames {args : StackTraceArguments} {entries : List FrameEntry} : g.frames = some entries →
      Holds g (.stackTrace args) (.frames
        { stackFrames := (page args.startFrame args.levels entries).map (·.frame)
          totalFrames := some (.ofNatClamp entries.length) })
  | scope {args : ScopesArguments} {f : FrameEntry} {root : UInt32} :
      g.frame? args.frameId = some f → f.locals = some root →
      Holds g (.scopes args) (.scopes (.ok [localScope root]))
  | values {args : VariablesArguments} {e : VariableEntry} {records : List Variable} :
      g.arena[args.variablesReference]? = some e → e.resolved ≠ none →
      List.Forall₂ g.Settled
        (page args.start args.count (e.children.filter (g.passes args.filter))) records →
      Holds g (.values args) (.values (.ok records))

/-- Asked about this graph, a question is answered so, and neither the graph nor any interpreter
takes notice. -/
def StackGraph.Recalls (g : StackGraph) (question : Question) (shown : Shown) : Prop :=
  ∀ (τ : Type) (it : Interpreter τ) (t : τ), question.consult it (g, t) = (.ok shown, g, t)

namespace StackGraph

variable {st st' : StackGraph × σ} {g g' : StackGraph}

theorem resolveAll_known (it : Interpreter σ) {ids : List UInt32} {records : List Variable}
    (h : List.Forall₂ g.Settled ids records) (s : σ) :
    resolveAll it ids (g, s) = (.ok records, g, s) := by
  induction h with
  | nil => rfl
  | cons hid _ ih =>
    exact bind_eq_ok.2 ⟨_, (g, s), resolve_known it hid s, bind_eq_ok.2 ⟨_, (g, s), ih, rfl⟩⟩

theorem Holds.recalls {question : Question} {shown : Shown} (h : g.Holds question shown) :
    g.Recalls question shown := by
  intro τ it t
  cases h with
  | frames hentries =>
    refine bind_eq_ok.2 ⟨_, (g, t), bind_eq_ok.2 ⟨_, (g, t), ?_, rfl⟩, rfl⟩
    exact ensureFrames_known it hentries t
  | scope hf hroot => exact bind_eq_ok.2 ⟨_, (g, t), scopes_known it hf hroot t, rfl⟩
  | @values args e records he hr hrecords =>
    obtain ⟨record, hrecord⟩ := Option.ne_none_iff_exists'.1 hr
    refine bind_eq_ok.2 ⟨_, (g, t), bind_eq_ok.2 ⟨g, (g, t), rfl, ?_⟩, rfl⟩
    simp only [he]
    refine bind_eq_ok.2 ⟨record, (g, t), resolve_known it ⟨e, he, hrecord⟩ t, ?_⟩
    refine bind_eq_ok.2 ⟨g, (g, t), rfl, bind_eq_ok.2 ⟨records, (g, t), ?_, rfl⟩⟩
    rw [he, Option.map_some, Option.getD_some]
    exact resolveAll_known it hrecords t

theorem Holds.grows (h : Grows it st st') (hg : st.1.WellFormed) (hb : st'.1.minted < 2 ^ 32)
    {question : Question} {shown : Shown} (hholds : st.1.Holds question shown) :
    st'.1.Holds question shown := by
  obtain ⟨-, hext⟩ := h.wellFormed hg hb
  cases hholds with
  | @frames args entries hentries =>
    obtain ⟨entries', hentries', hsame⟩ := h.frames_kept hentries
    have hlength : entries'.length = entries.length := by
      simpa using congrArg List.length hsame
    rw [← map_page, ← hsame, map_page, ← hlength]
    exact .frames hentries'
  | @scope args f root hf hroot =>
    obtain ⟨f', hf', -, -, hlocals⟩ := hext.frame _ f hf
    exact .scope hf' (hlocals root hroot)
  | @values args e records he hr hrecords =>
    obtain ⟨e', he', hr', hrecords'⟩ := Lists.mono hext.keeps hg.closed ⟨e, he, hr, hrecords⟩
    exact .values he' hr' hrecords'

end StackGraph

-- ---------------------------------------------------------------------------
-- Answers of a conversation
-- ---------------------------------------------------------------------------

/-- What becomes of an answer when the same is asked again. -/
inductive Remembered (g : StackGraph) : Question → Shown → Prop
  | same {question : Question} {shown : Shown} : g.Recalls question shown →
      Remembered g question shown
  /-- Locals that could not be read, and were not read since: they are asked for again. -/
  | unread {args : ScopesArguments} {f : FrameEntry} : g.frame? args.frameId = some f →
      f.locals = none →
      (∀ (τ : Type) (it : Interpreter τ) (t : τ),
        ((Question.scopes args).consult it.recording (g, t, [])).2.2.2 = [.locals f.level]) →
      Remembered g (.scopes args) (.scopes (.ok []))
  /-- Locals that could not be read at first and were read since. -/
  | since {args : ScopesArguments} {f : FrameEntry} {root : UInt32} :
      g.frame? args.frameId = some f → f.locals = some root →
      g.Recalls (.scopes args) (.scopes (.ok [StackGraph.localScope root])) →
      Remembered g (.scopes args) (.scopes (.ok []))

namespace StackGraph

variable {st st' : StackGraph × σ} {g : StackGraph}

theorem remembered_unread {args : ScopesArguments} {f : FrameEntry}
    (hf : g.frame? args.frameId = some f) :
    Remembered g (.scopes args) (.scopes (.ok [])) := by
  cases hlocals : f.locals with
  | some root => exact .since hf hlocals (Holds.scope hf hlocals).recalls
  | none =>
    refine .unread hf hlocals fun τ it t => ?_
    obtain ⟨r, t', hask⟩ : ∃ r t', it.answer (.locals f.level) t = (r, t') := ⟨_, _, rfl⟩
    have hrecord : it.recording.locals f.level (t, []) = (r, t', [.locals f.level]) := by
      show ((it.answer _ t).1, (it.answer _ t).2, _) = _
      rw [hask]
      rfl
    rw [Question.consult, bind_run, scopes_run _ hf hlocals, hrecord]
    cases r with
    | error fault => rfl
    | ok names => cases names <;> rfl

end StackGraph

/-- Right after it was given, an answer can be read off the graph, unless it is a failure or the
empty answer for locals that could not be read. -/
theorem Question.holds_of_consult {st st' : StackGraph × σ} {question : Question} {shown : Shown}
    (h : question.consult it st = (.ok shown, st')) (hg : st.1.WellFormed)
    (hb : st'.1.minted < 2 ^ 32) {j : Json} (hj : shown.encode = .ok j) :
    st'.1.Holds question shown ∨
      ∃ args f, question = .scopes args ∧ shown = .scopes (.ok []) ∧
        st'.1.frame? args.frameId = some f := by
  cases question with
  | stackTrace args =>
    obtain ⟨body, _, hrun, h⟩ := bind_eq_ok.1 h
    cases h
    obtain ⟨entries, _, hframes, hrun⟩ := bind_eq_ok.1 hrun
    cases hrun
    exact .inl (.frames (StackGraph.ensureFrames_ok hframes).2)
  | scopes args =>
    obtain ⟨r, _, hrun, h⟩ := bind_eq_ok.1 h
    cases h
    obtain ⟨hgrows, ⟨-, rfl⟩ | ⟨f, hf, -, rfl⟩ | ⟨f, root, hf, hroot, rfl⟩⟩ :=
      StackGraph.scopes_ok hrun
    · cases hj
    · obtain ⟨f', hf', -⟩ := (hgrows.wellFormed hg hb).2.frame _ f hf
      exact .inr ⟨args, f', rfl, rfl, hf'⟩
    · exact .inl (.scope hf hroot)
  | values args =>
    obtain ⟨r, _, hrun, h⟩ := bind_eq_ok.1 h
    cases h
    obtain ⟨-, ⟨-, rfl⟩ | ⟨-, records, rfl, hrecords⟩⟩ := StackGraph.variablesOf_ok hrun
    · cases hj
    · obtain ⟨e, he, hr, hsettled⟩ := hrecords 0 hg.since (by omega)
      exact .inl (.values he hr hsettled)

theorem converse_remembered {st st' : StackGraph × σ} {questions : List Question}
    {shown : List Shown} (h : converse it questions st = (.ok shown, st')) (hg : st.1.WellFormed)
    (hb : st'.1.minted < 2 ^ 32) {question : Question} {answer : Shown}
    (hmem : (question, answer) ∈ questions.zip shown) {j : Json} (hj : answer.encode = .ok j) :
    Remembered st'.1 question answer := by
  have hkept := converse_keeps (I := StackGraph.WellFormed) (n := 2 ^ 32 - 1)
    (P := fun g question answer => ∀ j, answer.encode = .ok j → g.Holds question answer ∨
      ∃ args f, question = .scopes args ∧ answer = .scopes (.ok []) ∧
        g.frame? args.frameId = some f) ?told ?kept h hg (Nat.le_pred_of_lt hb) hmem j hj
  · obtain hholds | ⟨args, f, rfl, rfl, hf⟩ := hkept
    · exact .same hholds.recalls
    · exact StackGraph.remembered_unread hf
  case told =>
    intro st st' question answer h hg hb
    have hb : st'.1.minted < 2 ^ 32 := by omega
    exact ⟨((Question.consult_grows h).wellFormed hg hb).1,
      fun j hj => Question.holds_of_consult h hg hb hj⟩
  case kept =>
    intro st st' question answer h hg hb hP j hj
    have hb : st'.1.minted < 2 ^ 32 := by omega
    obtain hholds | ⟨args, f, rfl, rfl, hf⟩ := hP j hj
    · exact .inl (hholds.grows h hg hb)
    · obtain ⟨f', hf', -⟩ := (h.wellFormed hg hb).2.frame _ f hf
      exact .inr ⟨args, f', rfl, rfl, hf'⟩

/-- Within a stop answers last and nothing is read twice, even if the interpreter changes its
answers from call to call. Noting who asks changes neither the answers nor the calls. In the log
that comes of it the frames are enumerated once, the value of each variable and its keys are read
once, and the locals of each frame once they could be read. After any conversation each question
that was not refused is answered again as it was, without a call. Only locals that could not be
read are asked for again. -/
theorem answers_last (it : Interpreter σ) (questions : List Question) (minted : Nat) (s : σ)
    (hb : (converse it questions ({ minted := minted }, s)).2.1.minted < 2 ^ 32) :
    let noted := converseBy it.noting questions ({ minted := minted }, s, [])
    converse it questions ({ minted := minted }, s) = (noted.1, noted.2.1, noted.2.2.1) ∧
    converse it.recording questions ({ minted := minted }, s, []) =
      (noted.1, noted.2.1, noted.2.2.1, noted.2.2.2.map Lookup.call) ∧
    ReadOnce noted.2.2.2 ∧
    ∀ shown, noted.1 = .ok shown → ∀ question answer, (question, answer) ∈ questions.zip shown →
      (∃ j, answer.encode = .ok j) → Remembered noted.2.1 question answer := by
  intro noted
  have hsame := converse_noting it questions { minted := minted } s
  have hb' : noted.2.1.minted < 2 ^ 32 := by
    rwa [hsame] at hb
  have hle := (accounted_converseBy it questions ({ minted := minted }, s, [])).1
  refine ⟨hsame, converse_recording_noting .., readOnce_converseBy it questions minted s hb', ?_⟩
  rintro shown hshown question answer hmem ⟨j, hj⟩
  have hrun : converse it questions ({ minted := minted }, s) =
      (.ok shown, noted.2.1, noted.2.2.1) := by
    rw [hsame]
    exact congrArg (·, _) hshown
  have hg := StackGraph.wellFormed_new (Nat.lt_of_le_of_lt hle hb')
  exact converse_remembered hrun hg hb' hmem hj

/-- Every answer depends on the number of calls before it. The locals can be read at the second try,
and every table has more keys than the one before, all alike. -/
def fickle : Interpreter Nat where
  answer call n := (.ok (match call with
    | .frame level => if level = 0 then some { kind := .main, line := some (.ofNat n) } else none
    | .locals _ => if n = 2 then none else some ["t"]
    | .resolve _ => some .table
    | .entries _ => some (List.replicate n (.name "x"))), n + 1)

/-- Two entries of one table stand at one place, and each of them is read. -/
def fickleTalk : List Question :=
  [.stackTrace {}, .scopes ⟨1⟩, .scopes ⟨1⟩, .values { variablesReference := 2 },
    .values { variablesReference := 3, count := some 2 }, .stackTrace {}]

theorem answers_last_fickle :
    (converse fickle fickleTalk ({ minted := 0 }, 0)).2.1.minted < 2 ^ 32 ∧
    let noted := converseBy fickle.noting fickleTalk ({ minted := 0 }, 0, [])
    converse fickle fickleTalk ({ minted := 0 }, 0) = (noted.1, noted.2.1, noted.2.2.1) ∧
    converse fickle.recording fickleTalk ({ minted := 0 }, 0, []) =
      (noted.1, noted.2.1, noted.2.2.1, noted.2.2.2.map Lookup.call) ∧
    ReadOnce noted.2.2.2 ∧
    ∀ shown, noted.1 = .ok shown →
      ∀ question answer, (question, answer) ∈ fickleTalk.zip shown →
        (∃ j, answer.encode = .ok j) → Remembered noted.2.1 question answer :=
  ⟨by decide +kernel, answers_last fickle fickleTalk 0 0 (by decide +kernel)⟩

end DebugAdapter
