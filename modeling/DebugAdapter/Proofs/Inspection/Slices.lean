import DebugAdapter.Proofs.Inspection.Pages
import DebugAdapter.Proofs.Inspection.Remembered
import DebugAdapter.Proofs.Interpreter.Scripted

/-!
# One list of frames

The client may ask for the stack in pieces, as often as it likes and from anywhere. All pieces come
from one list, which the first of these requests fixes: a frame has its number and its level from
its place in that list, whatever piece it was shown in. `traces_of_one_list` says so of a stop, for
any interpreter and any questions. What a question asked of the interpreter is kept beside its
answer, so that it can be said whose locals were read.
-/

namespace DebugAdapter

open Protocol

variable {σ : Type}

-- ---------------------------------------------------------------------------
-- Answers with their calls
-- ---------------------------------------------------------------------------

structure Exchange where
  question : Question
  answer : Shown
  calls : List Call

def Question.exchange (it : Interpreter σ) (question : Question) : Inspect σ Exchange :=
  ExceptT.mk fun (g, s) =>
    match question.consult it.recording (g, s, []) with
    | (r, g', s', calls) => (r.map fun answer => ⟨question, answer, calls⟩, g', s')

/-- A conversation, with the calls that each of its questions takes. -/
def exchanges (it : Interpreter σ) : List Question → Inspect σ (List Exchange)
  | [] => pure []
  | question :: rest => do
    let e ← question.exchange it
    let others ← exchanges it rest
    pure (e :: others)

theorem Question.covers_consult {τ : Type} {π : τ → σ} {it' : Interpreter τ} {it : Interpreter σ}
    (h : it'.Covers π it) (question : Question) :
    Covers (beneath π) (question.consult it') (question.consult it) := by
  cases question with
  | stackTrace args => exact (StackGraph.covers_stackTrace h args).bind fun _ => .pure _
  | scopes args => exact (StackGraph.covers_scopes h args.frameId).bind fun _ => .pure _
  | values args => exact (StackGraph.covers_variablesOf h args).bind fun _ => .pure _

section Exchanges

variable (it : Interpreter σ) (question : Question) (questions : List Question)
  (st : StackGraph × σ)

theorem Question.exchange_eq :
    question.exchange it st =
      ((question.consult it.recording (st.1, st.2, [])).1.map fun answer =>
          ⟨question, answer, (question.consult it.recording (st.1, st.2, [])).2.2.2⟩,
        (question.consult it st).2) := by
  rw [show question.consult it st = _ from
    Question.covers_consult it.covers_recording question (st.1, st.2, [])]
  rfl

theorem Question.consult_exchange :
    question.consult it st =
      ((question.exchange it st).1.map Exchange.answer, (question.exchange it st).2) := by
  rw [Question.exchange_eq]
  refine Prod.ext ?_ rfl
  have h := congrArg Prod.fst
    (Question.covers_consult it.covers_recording question (st.1, st.2, []))
  refine (show (question.consult it st).1 = _ from h).trans ?_
  dsimp only
  cases (question.consult it.recording (st.1, st.2, [])).1 <;> rfl

theorem converse_exchanges :
    converse it questions st =
      ((exchanges it questions st).1.map (List.map Exchange.answer),
        (exchanges it questions st).2) := by
  induction questions generalizing st with
  | nil => rfl
  | cons question rest ih =>
    rw [converse, exchanges, bind_run, bind_run, Question.consult_exchange]
    obtain ⟨r, st'⟩ := question.exchange it st
    cases r with
    | error fault => rfl
    | ok e =>
      simp only [Except.map]
      rw [bind_run, bind_run, ih]
      obtain ⟨r, st''⟩ := exchanges it rest st'
      cases r <;> rfl

end Exchanges

-- ---------------------------------------------------------------------------
-- The list and its pieces
-- ---------------------------------------------------------------------------

/-- The frames of a stop, innermost first, each under the next number. -/
def stackOf (minted : Nat) (infos : List FrameInfo) : List StackFrame :=
  (numbered minted infos).map fun (id, info) => info.record id

/-- The frames from `start` on, at most `levels` of them; none or zero is no limit. -/
def piece (start levels : Option UInt32) (frames : List StackFrame) : List StackFrame :=
  let rest := frames.drop (min (start.getD 0).toNat frames.length)
  if levels.getD 0 = 0 then rest else rest.take (levels.getD 0).toNat

theorem getElem?_stackOf (minted : Nat) (infos : List FrameInfo) (level : Nat) :
    (stackOf minted infos)[level]? =
      infos[level]?.map fun info => info.record (.ofNat (minted + level + 1)) := by
  simp [stackOf, getElem?_numbered, Function.comp_def]

@[simp] theorem length_stackOf (minted : Nat) (infos : List FrameInfo) :
    (stackOf minted infos).length = infos.length := by simp [stackOf]

theorem map_id_stackOf (minted : Nat) (infos : List FrameInfo) :
    (stackOf minted infos).map (·.id) =
      (List.range infos.length).map fun level => .ofNat (minted + level + 1) := by
  apply List.ext_getElem?
  intro level
  simp only [List.getElem?_map, getElem?_stackOf]
  by_cases h : level < infos.length
  · simp [h, FrameInfo.record]
  · simp [Nat.le_of_not_lt h]

theorem nodup_stackOf (minted : Nat) {infos : List FrameInfo} (hfew : infos.length ≤ 2 ^ 32) :
    ((stackOf minted infos).map (·.id)).Nodup := by
  rw [map_id_stackOf]
  refine List.Nodup.map_on ?_ List.nodup_range
  intro i hi j hj hij
  rw [List.mem_range] at hi hj
  rcases Nat.lt_trichotomy i j with hlt | heq | hlt
  · exact absurd hij (StackGraph.ofNat_ne (by omega) (by omega))
  · exact heq
  · exact absurd hij.symm (StackGraph.ofNat_ne (by omega) (by omega))

theorem drop_min_length {α : Type} (n : Nat) (items : List α) :
    items.drop (min n items.length) = items.drop n := by
  rcases Nat.le_total n items.length with h | h
  · rw [Nat.min_eq_left h]
  · rw [Nat.min_eq_right h, List.drop_length, List.drop_eq_nil_of_le h]

theorem page_eq_piece (start levels : Option UInt32) (frames : List StackFrame) :
    page start levels frames = piece start levels frames := by
  simp only [page, piece, drop_min_length]
  cases levels with
  | none => rfl
  | some n => rfl

def Traced (told : List Exchange) : Prop := ∃ e ∈ told, ∃ args, e.question = .stackTrace args

/-- An answer about frames is given from a list. `earlier` is what was asked before. -/
inductive FromList (minted : Nat) (infos : List FrameInfo) (earlier : List Exchange) :
    Exchange → Prop
  /-- Only the first stack trace asks for frames. -/
  | trace {args : StackTraceArguments} {calls : List Call} : (Traced earlier → calls = []) →
      FromList minted infos earlier ⟨.stackTrace args, .frames
        { stackFrames := piece args.startFrame args.levels (stackOf minted infos)
          totalFrames := some (.ofNatClamp infos.length) }, calls⟩
  /-- A number that is not in the list, or before there is one. -/
  | refused {args : ScopesArguments} :
      (Traced earlier → args.frameId ∉ (stackOf minted infos).map (·.id)) →
      FromList minted infos earlier
        ⟨.scopes args, .scopes (.error (.unknownFrame args.frameId)), []⟩
  | read {args : ScopesArguments} {level : Nat} {frame : StackFrame} {found : List Scope} :
      Traced earlier → (stackOf minted infos)[level]? = some frame → frame.id = args.frameId →
      FromList minted infos earlier ⟨.scopes args, .scopes (.ok found), [.locals (.ofNat level)]⟩
  /-- They were read there before. -/
  | known {args : ScopesArguments} {level : Nat} {frame : StackFrame} {found : List Scope} :
      Traced earlier → (stackOf minted infos)[level]? = some frame → frame.id = args.frameId →
      ⟨.scopes args, .scopes (.ok found), [.locals (.ofNat level)]⟩ ∈ earlier →
      FromList minted infos earlier ⟨.scopes args, .scopes (.ok found), []⟩
  /-- Variables are another matter, and there are none before there are frames. -/
  | values {args : VariablesArguments} {r : Except AdapterError (List Variable)}
      {calls : List Call} : (¬ Traced earlier → calls = []) →
      FromList minted infos earlier ⟨.values args, .values r, calls⟩

-- ---------------------------------------------------------------------------
-- What leaves the frames alone
-- ---------------------------------------------------------------------------

def KeepsFrames {α : Type} (m : Inspect σ α) : Prop := ∀ st, (m st).2.1.frames = st.1.frames

namespace KeepsFrames

variable {α β : Type}

theorem pure (a : α) : KeepsFrames (Pure.pure a : Inspect σ α) := fun _ => rfl

theorem bind {m : Inspect σ α} {f : α → Inspect σ β} (hm : KeepsFrames m)
    (hf : ∀ a, KeepsFrames (f a)) : KeepsFrames (m >>= f) := by
  intro st
  have h := hm st
  obtain ⟨r, st', hr⟩ : ∃ r st', m st = (r, st') := ⟨_, _, rfl⟩
  rw [hr] at h
  rw [bind_run, hr]
  cases r with
  | error fault => exact h
  | ok a => exact (hf a st').trans h

theorem graph : KeepsFrames (Inspect.graph : Inspect σ StackGraph) := fun _ => rfl

theorem probe (p : Probe σ α) : KeepsFrames (Inspect.probe p) := fun _ => rfl

theorem revise {f : StackGraph → α × StackGraph} (h : ∀ g, (f g).2.frames = g.frames) :
    KeepsFrames (Inspect.revise f : Inspect σ α) :=
  fun st => h st.1

end KeepsFrames

namespace StackGraph

theorem frames_settle (g : StackGraph) (id : UInt32) (e : VariableEntry) (reading : Reading) :
    (g.settle id e reading).2.frames = g.frames := by
  cases reading <;> rfl

variable (it : Interpreter σ)

theorem stackTrace_known {g : StackGraph} {entries : List FrameEntry}
    (hentries : g.frames = some entries) (args : StackTraceArguments) (s : σ) :
    stackTrace it args (g, s) =
      (.ok
        { stackFrames := (page args.startFrame args.levels entries).map (·.frame)
          totalFrames := some (.ofNatClamp entries.length) }, g, s) :=
  bind_eq_ok.2 ⟨entries, (g, s), ensureFrames_known it hentries s, rfl⟩

theorem variablesOf_unknown {g : StackGraph} {args : VariablesArguments}
    (harena : g.arena[args.variablesReference]? = none) (s : σ) :
    variablesOf it args (g, s) =
      (.ok (.error (.unknownVariable args.variablesReference)), g, s) := by
  refine bind_eq_ok.2 ⟨g, (g, s), rfl, ?_⟩
  rw [harena]
  rfl

theorem keepsFrames_resolve (id : UInt32) : KeepsFrames (resolve it id) := by
  refine KeepsFrames.graph.bind fun g => ?_
  cases g.arena[id]? with
  | none => exact fun _ => rfl
  | some e =>
    cases hr : e.resolved with
    | some record =>
      simp only [hr]
      exact .pure _
    | none =>
      simp only [hr]
      have hsettle (reading : Reading) :
          KeepsFrames (Inspect.revise (·.settle id e reading) : Inspect σ Variable) :=
        .revise fun g => frames_settle g id e reading
      cases g.place? id with
      | none => exact (KeepsFrames.pure Reading.nowhere).bind hsettle
      | some place => exact (KeepsFrames.probe _).bind hsettle

theorem keepsFrames_resolveAll (ids : List UInt32) : KeepsFrames (resolveAll it ids) := by
  induction ids with
  | nil => exact .pure []
  | cons id ids ih =>
    exact (keepsFrames_resolve it id).bind fun record => ih.bind fun records =>
      .pure (record :: records)

theorem keepsFrames_variablesOf (args : VariablesArguments) :
    KeepsFrames (variablesOf it args) := by
  refine KeepsFrames.graph.bind fun g => ?_
  cases g.arena[args.variablesReference]? with
  | none => exact .pure _
  | some e =>
    refine (keepsFrames_resolve it _).bind fun _ => KeepsFrames.graph.bind fun g => ?_
    exact (keepsFrames_resolveAll it _).bind fun records => .pure _

end StackGraph

theorem Interpreter.length_framesFrom_le {it : Interpreter σ} {steps : Nat} {level : UInt32}
    {infos : List FrameInfo} {s s' : σ}
    (h : it.framesFrom steps level s = (.ok infos, s')) : infos.length ≤ steps := by
  induction steps generalizing level infos s with
  | zero =>
    cases h
    exact Nat.le_refl 0
  | succ steps ih =>
    obtain ⟨info, s₁, -, h⟩ := bind_eq_ok.1 h
    cases info with
    | none =>
      cases h
      exact Nat.zero_le _
    | some info =>
      obtain ⟨outer, s₂, houter, h⟩ := bind_eq_ok.1 h
      cases h
      exact Nat.succ_le_succ (ih houter)

theorem Interpreter.length_frames_le {it : Interpreter σ} {infos : List FrameInfo} {s s' : σ}
    (h : it.frames s = (.ok infos, s')) : infos.length ≤ 2 ^ 32 :=
  it.length_framesFrom_le h

theorem Interpreter.depth_of_frames {it : Interpreter σ} {infos : List FrameInfo} {s s' : σ}
    (h : it.frames s = (.ok infos, s')) : it.depth s = (.ok (.ofNat infos.length), s') :=
  bind_eq_ok.2 ⟨infos, s', h, rfl⟩

-- ---------------------------------------------------------------------------
-- Before the first stack trace
-- ---------------------------------------------------------------------------

section Steps

variable {it : Interpreter σ} {question : Question} {minted : Nat} {infos : List FrameInfo}
  {earlier : List Exchange} {e : Exchange} {g : StackGraph} {s : σ} {st' : StackGraph × σ}

theorem exchange_run {r : Except Fault Shown} {g' : StackGraph} {s' : σ} {calls : List Call}
    (hr : question.consult it.recording (g, s, []) = (r, g', s', calls)) :
    question.exchange it (g, s) = (r.map fun answer => ⟨question, answer, calls⟩, g', s') := by
  show (match question.consult it.recording (g, s, []) with
    | (r, g', s', calls) => (r.map fun answer => Exchange.mk question answer calls, g', s')) = _
  rw [hr]

theorem exchange_ok (h : question.exchange it (g, s) = (.ok e, st')) :
    ∃ answer calls, e = ⟨question, answer, calls⟩ ∧
      question.consult it.recording (g, s, []) = (.ok answer, st'.1, st'.2, calls) := by
  cases hr : question.consult it.recording (g, s, []) with
  | mk r rest =>
    rw [exchange_run hr] at h
    cases r with
    | error fault => cases h
    | ok answer =>
      cases h
      exact ⟨answer, _, rfl, rfl⟩

theorem exchange_untraced (hquestion : ∀ args, question ≠ .stackTrace args)
    (hnone : ¬ Traced earlier)
    (h : question.exchange it ({ minted := minted }, s) = (.ok e, st')) :
    st' = ({ minted := minted }, s) ∧ e.question = question ∧
      ∀ infos, FromList minted infos earlier e := by
  obtain ⟨g', s'⟩ := st'
  obtain ⟨answer, calls, rfl, hconsult⟩ := exchange_ok h
  cases question with
  | stackTrace args => exact absurd rfl (hquestion args)
  | scopes args =>
    obtain ⟨r, _, hrun, hanswer⟩ := bind_eq_ok.1 hconsult
    cases (StackGraph.scopes_unknown it.recording rfl (s, [])).symm.trans hrun
    cases hanswer
    exact ⟨rfl, rfl, fun infos => .refused fun h => absurd h hnone⟩
  | values args =>
    obtain ⟨r, _, hrun, hanswer⟩ := bind_eq_ok.1 hconsult
    have harena : ({ minted := minted } : StackGraph).arena[args.variablesReference]? = none :=
      Std.TreeMap.getElem?_emptyc
    cases (StackGraph.variablesOf_unknown it.recording harena (s, [])).symm.trans hrun
    cases hanswer
    exact ⟨rfl, rfl, fun infos => .values fun _ => rfl⟩

-- ---------------------------------------------------------------------------
-- From the first stack trace on
-- ---------------------------------------------------------------------------

/-- The graph holds the list, and locals where they were read. -/
structure Listing (minted : Nat) (infos : List FrameInfo) (told : List Exchange)
    (entries : List FrameEntry) : Prop where
  traced : Traced told
  few : infos.length ≤ 2 ^ 32
  frames : entries.map (·.frame) = stackOf minted infos
  levels : ∀ (level : Nat) (f : FrameEntry), entries[level]? = some f → f.level = .ofNat level
  locals : ∀ f ∈ entries, ∀ root, f.locals = some root →
    ⟨.scopes ⟨f.frame.id⟩, .scopes (.ok [StackGraph.localScope root]), [.locals f.level]⟩ ∈ told

theorem fromList_trace {entries : List FrameEntry}
    (hframes : entries.map (·.frame) = stackOf minted infos) (args : StackTraceArguments)
    {calls : List Call} (hcalls : Traced earlier → calls = []) :
    FromList minted infos earlier ⟨.stackTrace args, .frames
      { stackFrames := (page args.startFrame args.levels entries).map (·.frame)
        totalFrames := some (.ofNatClamp entries.length) }, calls⟩ := by
  have hlength : entries.length = infos.length := by simpa using congrArg List.length hframes
  rw [← map_page, hframes, page_eq_piece, hlength]
  exact .trace hcalls

theorem map_frame_enterFrames :
    (StackGraph.enterFrames { minted := minted } infos).1.map (·.frame) = stackOf minted infos := by
  apply List.ext_getElem?
  intro level
  simp [StackGraph.getElem?_enterFrames, getElem?_stackOf, Function.comp_def]

namespace Listing

variable {entries : List FrameEntry}

theorem enterFrames (htraced : Traced earlier) (hfew : infos.length ≤ 2 ^ 32) :
    Listing minted infos earlier (StackGraph.enterFrames { minted := minted } infos).1 where
  traced := htraced
  few := hfew
  frames := map_frame_enterFrames
  levels level f hf := by
    rw [StackGraph.getElem?_enterFrames] at hf
    obtain ⟨info, -, rfl⟩ := Option.map_eq_some_iff.1 hf
    rfl
  locals f hf root hroot := by
    obtain ⟨level, hlevel⟩ := List.mem_iff_getElem?.1 hf
    rw [StackGraph.getElem?_enterFrames] at hlevel
    obtain ⟨info, -, rfl⟩ := Option.map_eq_some_iff.1 hlevel
    cases hroot

theorem mono (h : Listing minted infos earlier entries) (e : Exchange) :
    Listing minted infos (earlier ++ [e]) entries where
  traced := by
    obtain ⟨e', he', htrace⟩ := h.traced
    exact ⟨e', List.mem_append_left _ he', htrace⟩
  few := h.few
  frames := h.frames
  levels := h.levels
  locals f hf root hroot := List.mem_append_left _ (h.locals f hf root hroot)

theorem frame? (h : Listing minted infos earlier entries) (hentries : g.frames = some entries)
    {id : UInt32} {f : FrameEntry} (hf : g.frame? id = some f) :
    f ∈ entries ∧ f.frame.id = id ∧
      ∃ level, (stackOf minted infos)[level]? = some f.frame ∧ f.level = .ofNat level := by
  obtain ⟨entries', hentries', hmem, hid⟩ := StackGraph.mem_of_frame? hf
  cases hentries.symm.trans hentries'
  obtain ⟨level, hlevel⟩ := List.mem_iff_getElem?.1 hmem
  refine ⟨hmem, hid, level, ?_, h.levels level f hlevel⟩
  rw [← h.frames, List.getElem?_map, hlevel, Option.map_some]

theorem not_mem (h : Listing minted infos earlier entries) (hentries : g.frames = some entries)
    {id : UInt32} (hf : g.frame? id = none) : id ∉ (stackOf minted infos).map (·.id) := by
  rw [StackGraph.frame?, hentries, Option.getD_some, List.find?_eq_none] at hf
  rw [← h.frames, List.map_map]
  intro hid
  obtain ⟨f, hmem, rfl⟩ := List.mem_map.1 hid
  exact hf f hmem (by simp)

theorem rootAt (h : Listing minted infos earlier entries) {f : FrameEntry} (hf : f ∈ entries)
    (root : UInt32) :
    Listing minted infos
      (earlier ++ [⟨.scopes ⟨f.frame.id⟩, .scopes (.ok [StackGraph.localScope root]),
        [.locals f.level]⟩])
      (entries.map fun e => if e.frame.id = f.frame.id then { e with locals := some root } else e)
    where
  traced := (h.mono _).traced
  few := h.few
  frames := by
    rw [← h.frames, List.map_map]
    refine List.map_congr_left fun e _ => ?_
    rw [Function.comp_apply]
    split <;> rfl
  levels level e he := by
    rw [List.getElem?_map] at he
    obtain ⟨e', he', rfl⟩ := Option.map_eq_some_iff.1 he
    have := h.levels level e' he'
    split <;> exact this
  locals e he root' hroot := by
    obtain ⟨e', he', rfl⟩ := List.mem_map.1 he
    split at hroot
    · rename_i hid
      cases hroot
      have hdistinct := nodup_stackOf minted h.few
      rw [← h.frames, List.map_map] at hdistinct
      obtain rfl : e' = f := List.inj_on_of_nodup_map hdistinct he' hf hid
      simp
    · rename_i hid
      rw [if_neg hid]
      exact List.mem_append_left _ (h.locals e' he' root' hroot)

end Listing

/-- The first stack trace makes the list, of what the interpreter tells in the state it is in. -/
theorem exchange_first {args : StackTraceArguments} (hnone : ¬ Traced earlier)
    (h : (Question.stackTrace args).exchange it ({ minted := minted }, s) = (.ok e, st')) :
    ∃ infos entries, it.frames s = (.ok infos, st'.2) ∧ FromList minted infos earlier e ∧
      st'.1.frames = some entries ∧ Listing minted infos (earlier ++ [e]) entries := by
  obtain ⟨g', s'⟩ := st'
  obtain ⟨answer, calls, rfl, hconsult⟩ := exchange_ok h
  obtain ⟨body, _, hrun, hanswer⟩ := bind_eq_ok.1 hconsult
  cases hanswer
  obtain ⟨entries, _, hensure, hbody⟩ := bind_eq_ok.1 hrun
  cases hbody
  obtain ⟨lost, hwalk⟩ :=
    StackGraph.ensureFrames_run it.recording (g := { minted := minted }) rfl (s, [])
  rw [hwalk] at hensure
  obtain ⟨r, s₁, calls₁, hr⟩ : ∃ r s₁ calls₁, it.recording.frames (s, []) = (r, s₁, calls₁) :=
    ⟨_, _, _, rfl⟩
  rw [hr] at hensure
  cases r with
  | error fault => cases hensure
  | ok infos =>
    simp only at hensure
    obtain ⟨rfl, rfl, rfl, rfl⟩ := hensure
    have hframes : it.frames s = (.ok infos, s') := by
      rw [show it.frames s = _ from it.covers_recording.frames (s, []), hr]
    exact ⟨infos, _, hframes, fromList_trace map_frame_enterFrames args fun h => absurd h hnone,
      rfl, .enterFrames ⟨_, List.mem_concat_self, args, rfl⟩ (Interpreter.length_frames_le hframes)⟩

/-- From then on no frames are asked for, and locals where they were not read. -/
theorem Listing.exchange {entries : List FrameEntry} (hl : Listing minted infos earlier entries)
    (hentries : g.frames = some entries) (h : question.exchange it (g, s) = (.ok e, st')) :
    FromList minted infos earlier e ∧
      ∃ entries', st'.1.frames = some entries' ∧
        Listing minted infos (earlier ++ [e]) entries' := by
  obtain ⟨g', s'⟩ := st'
  obtain ⟨answer, calls, rfl, hconsult⟩ := exchange_ok h
  cases question with
  | stackTrace args =>
    obtain ⟨body, _, hrun, hanswer⟩ := bind_eq_ok.1 hconsult
    cases (StackGraph.stackTrace_known it.recording hentries args (s, [])).symm.trans hrun
    cases hanswer
    exact ⟨fromList_trace hl.frames args fun _ => rfl, entries, hentries, hl.mono _⟩
  | values args =>
    have hkept := StackGraph.keepsFrames_variablesOf it.recording args (g, s, [])
    obtain ⟨r, _, hrun, hanswer⟩ := bind_eq_ok.1 hconsult
    rw [hrun] at hkept
    cases hanswer
    exact ⟨.values fun h => absurd hl.traced h, entries, hkept.trans hentries, hl.mono _⟩
  | scopes args =>
    obtain ⟨r, _, hrun, hanswer⟩ := bind_eq_ok.1 hconsult
    cases hanswer
    cases hf : g.frame? args.frameId with
    | none =>
      cases (StackGraph.scopes_unknown it.recording hf (s, [])).symm.trans hrun
      exact ⟨.refused fun _ => hl.not_mem hentries hf, entries, hentries, hl.mono _⟩
    | some f =>
      obtain ⟨hmem, hid, level, hlevel, hat⟩ := hl.frame? hentries hf
      cases hlocals : f.locals with
      | some root =>
        cases (StackGraph.scopes_known it.recording hf hlocals (s, [])).symm.trans hrun
        have hread := hl.locals f hmem root hlocals
        rw [hid, hat] at hread
        exact ⟨.known hl.traced hlevel hid hread, entries, hentries, hl.mono _⟩
      | none =>
        rw [StackGraph.scopes_run it.recording hf hlocals] at hrun
        obtain ⟨r', s₁, hask⟩ : ∃ r' s₁, it.locals f.level s = (r', s₁) := ⟨_, _, rfl⟩
        have hnote : it.recording.locals f.level (s, []) = (r', s₁, [.locals f.level]) := by
          show ((it.locals f.level s).1, (it.locals f.level s).2, _) = _
          rw [hask]
          rfl
        rw [hnote] at hrun
        cases r' with
        | error fault => cases hrun
        | ok names =>
          cases names with
          | none =>
            cases hrun
            rw [hat]
            exact ⟨.read hl.traced hlevel hid, entries, hentries, hl.mono _⟩
          | some names =>
            simp only at hrun
            obtain ⟨rfl, rfl, rfl, rfl⟩ := hrun
            have hentered := hl.rootAt hmem (.ofNat (g.minted + 1))
            rw [hid] at hentered
            refine ⟨hat ▸ .read hl.traced hlevel hid, _, ?_, hentered⟩
            exact (congrArg (Option.map _) hentries).trans (Option.map_some ..)

end Steps

-- ---------------------------------------------------------------------------
-- Whole conversations
-- ---------------------------------------------------------------------------

def AllFromList (minted : Nat) (infos : List FrameInfo) (earlier told : List Exchange) : Prop :=
  ∀ before e after, told = before ++ e :: after → FromList minted infos (earlier ++ before) e

section Runs

variable {it : Interpreter σ} {questions : List Question} {minted : Nat} {infos : List FrameInfo}
  {earlier told : List Exchange} {e : Exchange} {st st' : StackGraph × σ} {s : σ}

theorem AllFromList.nil : AllFromList minted infos earlier [] := by
  rintro (_ | ⟨_, before⟩) e after h <;> cases h

theorem AllFromList.cons (hfirst : FromList minted infos earlier e)
    (hrest : AllFromList minted infos (earlier ++ [e]) told) :
    AllFromList minted infos earlier (e :: told) := by
  rintro (_ | ⟨e', before⟩) e'' after h
  · cases h
    rwa [List.append_nil]
  · cases h
    have := hrest before e'' after rfl
    rwa [List.append_assoc] at this

theorem Listing.exchanges {entries : List FrameEntry} (hl : Listing minted infos earlier entries)
    (hentries : st.1.frames = some entries)
    (h : DebugAdapter.exchanges it questions st = (.ok told, st')) :
    AllFromList minted infos earlier told := by
  induction questions generalizing earlier told st entries with
  | nil =>
    cases h
    exact .nil
  | cons question rest ih =>
    obtain ⟨e, st₁, hfirst, h⟩ := bind_eq_ok.1 h
    obtain ⟨others, _, hrest, h⟩ := bind_eq_ok.1 h
    cases h
    obtain ⟨hfits, entries', hentries', hl'⟩ := hl.exchange hentries hfirst
    exact .cons hfits (ih hl' hentries' hrest)

theorem exchanges_questions (h : DebugAdapter.exchanges it questions st = (.ok told, st')) :
    told.map (·.question) = questions := by
  induction questions generalizing told st with
  | nil =>
    cases h
    rfl
  | cons question rest ih =>
    obtain ⟨e, ⟨g₁, s₁⟩, hfirst, h⟩ := bind_eq_ok.1 h
    obtain ⟨others, _, hrest, h⟩ := bind_eq_ok.1 h
    cases h
    obtain ⟨answer, calls, rfl, -⟩ := exchange_ok hfirst
    rw [List.map_cons, ih hrest]

/-- The list is what the first stack trace finds. Until then the interpreter is left alone, so it is
in the state of the stop. -/
theorem exchanges_fromList (hnone : ¬ Traced earlier)
    (h : exchanges it questions ({ minted := minted }, s) = (.ok told, st')) :
    ∃ infos : List FrameInfo, infos.length ≤ 2 ^ 32 ∧
      (Traced told → ∃ s', it.frames s = (.ok infos, s')) ∧
        AllFromList minted infos earlier told := by
  induction questions generalizing earlier told with
  | nil =>
    cases h
    exact ⟨[], Nat.zero_le _, fun ⟨_, he, _⟩ => absurd he List.not_mem_nil, .nil⟩
  | cons question rest ih =>
    obtain ⟨e, ⟨g₁, s₁⟩, hfirst, h⟩ := bind_eq_ok.1 h
    obtain ⟨others, _, hrest, h⟩ := bind_eq_ok.1 h
    cases h
    by_cases htrace : ∃ args, question = .stackTrace args
    · obtain ⟨args, rfl⟩ := htrace
      obtain ⟨infos, entries, hframes, hfits, hentries, hl⟩ := exchange_first hnone hfirst
      exact ⟨infos, hl.few, fun _ => ⟨_, hframes⟩, .cons hfits (hl.exchanges hentries hrest)⟩
    · have hquestion : ∀ args, question ≠ .stackTrace args := fun args h => htrace ⟨args, h⟩
      obtain ⟨hst, hsame, hfits⟩ := exchange_untraced hquestion hnone hfirst
      cases hst
      have hnot : ∀ args, e.question ≠ .stackTrace args := hsame ▸ hquestion
      have hnone' : ¬ Traced (earlier ++ [e]) := by
        rintro ⟨e', he', args, hargs⟩
        obtain he' | he' := List.mem_append.1 he'
        · exact hnone ⟨e', he', args, hargs⟩
        · rw [List.mem_singleton.1 he'] at hargs
          exact hnot args hargs
      obtain ⟨infos, hfew, hframes, hall⟩ := ih hnone' hrest
      refine ⟨infos, hfew, ?_, .cons (hfits infos) hall⟩
      rintro ⟨e', he', args, hargs⟩
      obtain rfl | he' := List.mem_cons.1 he'
      · exact absurd hargs (hnot args)
      · exact hframes ⟨e', he', args, hargs⟩

end Runs

-- ---------------------------------------------------------------------------
-- The stack in pages
-- ---------------------------------------------------------------------------

/-- Stack traces of the same size were asked for, at any time and in any order, of which each starts
where the one before it ends. -/
def TracedInPages (told : List Exchange) (start : Nat) (size : UInt32)
    (pages : List (List StackFrame)) : Prop :=
  ∀ (k : Nat) (cut : List StackFrame), pages[k]? = some cut →
    ∃ first : UInt32, first.toNat = start + k * size.toNat ∧ ∃ thread total calls,
      ⟨.stackTrace { threadId := thread, startFrame := some first, levels := some size },
        .frames { stackFrames := cut, totalFrames := total }, calls⟩ ∈ told

/-- All that a stop tells of its stack comes from one list, that of `infos`. -/
structure OneList (it : Interpreter σ) (minted : Nat) (s : σ) (told : List Exchange)
    (infos : List FrameInfo) : Prop where
  /-- The interpreter told it in the state of the stop, when it would have given its length as the
  depth of the stack. -/
  first : Traced told → ∃ depth s', it.frames s = (.ok infos, s') ∧ it.depth s = (.ok depth, s') ∧
    (infos.length < 2 ^ 32 → depth.toNat = infos.length ∧ .ofNatClamp infos.length = depth)
  few : infos.length ≤ 2 ^ 32
  distinct : ((stackOf minted infos).map (·.id)).Nodup
  fits : ∀ earlier e later, told = earlier ++ e :: later → FromList minted infos earlier e
  pages : ∀ start size pages, size ≠ 0 → TracedInPages told start size pages →
    pages.flatten = ((stackOf minted infos).drop start).take (pages.length * size.toNat)
  /-- All pages were asked for, as can also be seen from the last one. -/
  complete : ∀ start size pages, size ≠ 0 → TracedInPages told start size pages →
    (infos.length ≤ start + pages.length * size.toNat ∨
      ∃ last, pages.getLast? = some last ∧ last.length < size.toNat) →
    pages.flatten = (stackOf minted infos).drop start

section Pages

variable {minted : Nat} {infos : List FrameInfo} {told : List Exchange}

theorem FromList.frames {earlier : List Exchange} {args : StackTraceArguments}
    {body : StackTraceBody} {calls : List Call}
    (h : FromList minted infos earlier ⟨.stackTrace args, .frames body, calls⟩) :
    body.stackFrames = piece args.startFrame args.levels (stackOf minted infos) := by
  cases h
  rfl

theorem TracedInPages.eq_take (hall : AllFromList minted infos [] told) {start : Nat}
    {size : UInt32} {pages : List (List StackFrame)} (hpages : TracedInPages told start size pages)
    (hsize : size ≠ 0) (k : Nat) (cut : List StackFrame) (hk : pages[k]? = some cut) :
    cut = (((stackOf minted infos).drop start).drop (k * size.toNat)).take size.toNat := by
  obtain ⟨first, hfirst, thread, total, calls, hmem⟩ := hpages k cut hk
  obtain ⟨before, after, rfl⟩ := List.append_of_mem hmem
  have hcut := (hall before _ after rfl).frames
  rw [← page_eq_piece, page_limited _ first hsize, hfirst] at hcut
  rw [List.drop_drop]
  exact hcut

end Pages

/-- Whatever is asked at a stop, in pieces of any size from anywhere, and however the interpreter
changes meanwhile: there is one list of frames, which the first stack trace fixes, and all that is
told of the stack is told from it. -/
theorem traces_of_one_list (it : Interpreter σ) (questions : List Question) (minted : Nat) (s : σ) :
    (it.Returns s → ∃ told, (exchanges it questions ({ minted := minted }, s)).1 = .ok told) ∧
    ∀ told, (exchanges it questions ({ minted := minted }, s)).1 = .ok told →
      told.map (·.question) = questions ∧ ∃ infos, OneList it minted s told infos := by
  have hconverse := converse_exchanges it questions ({ minted := minted }, s)
  refine ⟨fun hs => ?answers, fun told htold => ?fromList⟩
  case answers =>
    obtain ⟨shown, st', h⟩ :=
      converse_returns ({ minted := minted }, s) hs StackGraph.closed_new questions
    rw [h] at hconverse
    cases hr : (exchanges it questions ({ minted := minted }, s)).1 with
    | ok told => exact ⟨told, rfl⟩
    | error fault =>
      rw [hr] at hconverse
      cases hconverse
  case fromList =>
    have h : exchanges it questions ({ minted := minted }, s) =
        (.ok told, (exchanges it questions ({ minted := minted }, s)).2) := Prod.ext htold rfl
    have hnone : ¬ Traced [] := fun ⟨_, he, _⟩ => absurd he List.not_mem_nil
    obtain ⟨infos, hfew, hframes, hall⟩ := exchanges_fromList hnone h
    refine ⟨exchanges_questions h, infos,
      ⟨?total, hfew, nodup_stackOf minted hfew, hall, ?slices, ?all⟩⟩
    case total =>
      intro htraced
      obtain ⟨s', hs'⟩ := hframes htraced
      refine ⟨_, s', hs', Interpreter.depth_of_frames hs', fun hlt => ?_⟩
      have hdepth : (UInt32.ofNat infos.length).toNat = infos.length :=
        StackGraph.toNat_ofNat hlt
      refine ⟨hdepth, UInt32.toNat_inj.1 ?_⟩
      rw [hdepth, UInt32.toNat_ofNatClamp_of_lt hlt]
    case slices =>
      intro start size pages hsize hpages
      exact flatten_eq_take (hpages.eq_take hall hsize)
    case all =>
      intro start size pages hsize hpages hend
      rw [flatten_eq_take (hpages.eq_take hall hsize)]
      refine List.take_of_length_le ?_
      obtain hend | ⟨last, hlast, hshort⟩ := hend
      · rw [List.length_drop, length_stackOf]
        omega
      · exact length_le_of_short (hpages.eq_take hall hsize) hlast hshort

/-- Two pages and the scopes of the frame on the second one, on a stack of three. -/
theorem traces_of_one_list_three :
    let questions : List Question := [.stackTrace { startFrame := some 0, levels := some 2 },
      .stackTrace { startFrame := some 2, levels := some 2 }, .scopes ⟨3⟩]
    let stack : Scripted.Stack := List.replicate 3 { info := { kind := .script } }
    Scripted.interpreter.Returns stack ∧
      ∃ told, (exchanges Scripted.interpreter questions ({ minted := 0 }, stack)).1 = .ok told ∧
        told.map (·.question) = questions ∧
        ∃ infos, OneList Scripted.interpreter 0 stack told infos := by
  intro questions stack
  have hreturns : Scripted.interpreter.Returns stack :=
    (Scripted.Stack.steady (by decide)).returns
  obtain ⟨hanswers, hlist⟩ := traces_of_one_list Scripted.interpreter questions 0 stack
  obtain ⟨told, htold⟩ := hanswers hreturns
  exact ⟨hreturns, told, htold, hlist told htold⟩

/-- The third frame is shown alone, as the first of its piece. -/
example :
    (exchanges Scripted.interpreter
        [.stackTrace { startFrame := some 2, levels := some 1 }, .scopes ⟨3⟩]
        ({ minted := 0 }, List.replicate 3 { info := { kind := .script } })).1.toOption.map
      (List.map Exchange.calls) =
        some [[.frame 0, .frame 1, .frame 2, .frame 3], [.locals 2]] := by
  decide +kernel

end DebugAdapter
