import DebugAdapter.Proofs.Inspection.Faithful
import DebugAdapter.Proofs.Interpreter.Scripted
import DebugAdapter.Session.Request

/-!
# Lazy inspection equals eager reading

A conversation is a list of questions about one stop, in any order. Values are read as late as
possible and kept, and no place is ever stored. Still every answer is what reading the interpreter
at once would give: `Explained` says so of one answer, `Account` of a whole conversation. The only
thing that the order of the questions decides is which numbers are given out.
-/

namespace DebugAdapter

open Protocol

variable {σ : Type} {it : Interpreter σ} {answers : Answers}

-- ---------------------------------------------------------------------------
-- Conversations
-- ---------------------------------------------------------------------------

/-- An answer before it is written. -/
inductive Shown where
  | frames (body : StackTraceBody)
  | scopes (r : Except AdapterError (List Scope))
  | values (r : Except AdapterError (List Variable))

namespace Shown

def encode : Shown → Except AdapterError Json
  | .frames body => .ok (stackTraceBody.encode body)
  | .scopes r => r.map fun found => scopesBody.encode ⟨found⟩
  | .values r => r.map fun records => variablesBody.encode ⟨records⟩

def numbers : Shown → List UInt32
  | .frames body => body.stackFrames.map (·.id)
  | .scopes (.ok found) => found.map (·.variablesReference)
  | .values (.ok records) => (records.map (·.variablesReference)).filter (· ≠ 0)
  | .scopes (.error _) | .values (.error _) => []

end Shown

def Question.consult (it : Interpreter σ) : Question → Inspect σ Shown
  | .stackTrace args => do
    let body ← StackGraph.stackTrace it args
    pure (.frames body)
  | .scopes args => do
    let r ← StackGraph.scopes it args.frameId
    pure (.scopes r)
  | .values args => do
    let r ← StackGraph.variablesOf it args
    pure (.values r)

/-- What a parked thread sends is what it was shown, written out. -/
theorem Question.answer_eq (question : Question) (st : StackGraph × σ) :
    question.answer it st =
      ((question.consult it st).1.map Shown.encode, (question.consult it st).2) := by
  cases question with
  | stackTrace args =>
    simp only [answer, consult, bind_run]
    split <;> rfl
  | scopes args =>
    simp only [answer, consult, bind_run]
    split <;> rfl
  | values args =>
    simp only [answer, consult, bind_run]
    split <;> rfl

def converse (it : Interpreter σ) : List Question → Inspect σ (List Shown)
  | [] => pure []
  | question :: rest => do
    let shown ← question.consult it
    let others ← converse it rest
    pure (shown :: others)

-- ---------------------------------------------------------------------------
-- Eager reading
-- ---------------------------------------------------------------------------

def admits (filter : Option VariablesFilter) (key : VariableKey) : Bool :=
  match filter with
  | some .indexed => key.isIndexed
  | some .named => !key.isIndexed
  | none => true

/-- A record tells what is read at the place of a child, under a number for that place. -/
def Tells (answers : Answers) (den : UInt32 → Option Location) (child : VariableKey × Place)
    (record : Variable) : Prop :=
  ∃ reference, den reference = some (.value child.2) ∧ reference ≠ 0 ∧
    record = (answers.reading child.2).record child.1.text reference

/-- An answer is what eager reading would give, where `den` is what numbers stand for. No number
that the client was told is refused, unless it stands for a thing of another kind. -/
inductive Explained (answers : Answers) (den : UInt32 → Option Location) (told : List UInt32) :
    Question → Shown → Prop
  | frames {args : StackTraceArguments} {infos : List FrameInfo} {body : StackTraceBody} :
      answers.Stack infos → body.totalFrames = some (.ofNatClamp infos.length) →
      List.Forall₂ (fun (p : UInt32 × FrameInfo) (frame : StackFrame) =>
          den frame.id = some (.frame p.1) ∧ frame = p.2.record frame.id)
        (page args.startFrame args.levels (leveled infos)) body.stackFrames →
      Explained answers den told (.stackTrace args) (.frames body)
  | scope {args : ScopesArguments} {level root : UInt32} {names : List String} :
      den args.frameId = some (.frame level) → answers (.locals level) = some names →
      den root = some (.locals level) →
      Explained answers den told (.scopes args) (.scopes (.ok [StackGraph.localScope root]))
  | noScope {args : ScopesArguments} {level : UInt32} : den args.frameId = some (.frame level) →
      answers (.locals level) = none →
      Explained answers den told (.scopes args) (.scopes (.ok []))
  | noFrame {args : ScopesArguments} :
      (args.frameId ∈ told → ∀ level, den args.frameId ≠ some (.frame level)) →
      Explained answers den told (.scopes args) (.scopes (.error (.unknownFrame args.frameId)))
  | values {args : VariablesArguments} {location : Location} {records : List Variable} :
      den args.variablesReference = some location → (∀ level, location ≠ .frame level) →
      List.Forall₂ (Tells answers den)
        (page args.start args.count
          ((answers.children location).filter fun child => admits args.filter child.1)) records →
      Explained answers den told (.values args) (.values (.ok records))
  | noVariable {args : VariablesArguments} :
      (args.variablesReference ∈ told → ∃ level,
        den args.variablesReference = some (.frame level)) →
      Explained answers den told (.values args)
        (.values (.error (.unknownVariable args.variablesReference)))

inductive Account (answers : Answers) (den : UInt32 → Option Location) :
    List UInt32 → List Question → List Shown → Prop
  | nil {told : List UInt32} : Account answers den told [] []
  | cons {told : List UInt32} {question : Question} {shown : Shown} {rest : List Question}
      {others : List Shown} : Explained answers den told question shown →
      Account answers den (told ++ shown.numbers) rest others →
      Account answers den told (question :: rest) (shown :: others)

-- ---------------------------------------------------------------------------
-- One answer
-- ---------------------------------------------------------------------------

theorem forall₂_page {α β : Type} {R : α → β → Prop} {as : List α} {bs : List β}
    (start count : Option UInt32) (h : List.Forall₂ R as bs) :
    List.Forall₂ R (page start count as) (page start count bs) := by
  unfold page
  split
  · split
    · exact List.forall₂_drop _ h
    · exact List.forall₂_take _ (List.forall₂_drop _ h)
  · exact List.forall₂_drop _ h

theorem forall₂_join {α β γ : Type} {R : α → β → Prop} {S : α → γ → Prop} {T : β → γ → Prop}
    (hT : ∀ a b c, R a b → S a c → T b c) {as : List α} {bs : List β} {cs : List γ}
    (hR : List.Forall₂ R as bs) (hS : List.Forall₂ S as cs) : List.Forall₂ T bs cs := by
  induction hR generalizing cs with
  | nil =>
    cases hS
    exact .nil
  | cons h _ ih =>
    cases hS with
    | cons h' hS => exact .cons (hT _ _ _ h h') (ih hS)

theorem forall₂_exists_left {α β : Type} {R : α → β → Prop} {as : List α} {bs : List β}
    (h : List.Forall₂ R as bs) {b : β} (hb : b ∈ bs) : ∃ a ∈ as, R a b := by
  induction h with
  | nil => cases hb
  | cons hab _ ih =>
    cases hb with
    | head => exact ⟨_, by simp, hab⟩
    | tail _ hb =>
      obtain ⟨a, ha, h⟩ := ih hb
      exact ⟨a, by simp [ha], h⟩

theorem Reading.reference_record (reading : Reading) (name : String) (reference : UInt32) :
    (reading.record name reference).variablesReference = reference ∨
      (reading.record name reference).variablesReference = 0 := by
  cases reading with
  | nowhere => exact .inr rfl
  | scalar v => exact .inr rfl
  | table keys => cases keys <;> simp [record]

namespace StackGraph

theorem Sound.frame?_of_mem {g : StackGraph} (hg : g.Sound) {entries : List FrameEntry}
    {f : FrameEntry} (he : g.frames = some entries) (hf : f ∈ entries) :
    g.frame? f.frame.id = some f := by
  obtain ⟨base, hbase, hall⟩ := hg.frames entries he
  have hb := hg.bounded
  cases hfind : g.frame? f.frame.id with
  | none =>
    rw [frame?, he, Option.getD_some, List.find?_eq_none] at hfind
    exact absurd (hfind f hf) (by simp)
  | some f' =>
    obtain ⟨entries', he', hf', hid⟩ := mem_of_frame? hfind
    cases he.symm.trans he'
    obtain ⟨i, hi⟩ := List.mem_iff_getElem?.1 hf
    obtain ⟨j, hj⟩ := List.mem_iff_getElem?.1 hf'
    have hil := (List.getElem?_eq_some_iff.1 hi).1
    have hjl := (List.getElem?_eq_some_iff.1 hj).1
    have hnum := congrArg UInt32.toNat hid
    rw [(hall i f hi).2, (hall j f' hj).2, toNat_ofNat (by omega), toNat_ofNat (by omega)] at hnum
    obtain rfl : j = i := by omega
    rw [← hi, ← hj]

theorem Denotes.child {g : StackGraph} {x c : UInt32} {l : Location} {e : VariableEntry}
    {child : VariableKey × Place} (hx : g.Denotes x l) (hchild : child ∈ answers.children l)
    (he : g.arena[c]? = some e) (hk : e.key = child.1) (hp : e.parent = .variable x) :
    g.Denotes c (.value child.2) := by
  cases l with
  | frame level => cases hchild
  | locals level =>
    obtain ⟨i, hi, rfl⟩ := List.mem_mapIdx.1 hchild
    exact .slot he hk hp hx
  | value place =>
    obtain ⟨key, -, rfl⟩ := List.mem_map.1 hchild
    exact .entry he hk hp hx

section Explained

variable {st st' : StackGraph × σ} {den : UInt32 → Option Location} {told : List UInt32}

def Knows (g : StackGraph) (told : List UInt32) : Prop := ∀ x ∈ told, ∃ l, g.Denotes x l

theorem stackTrace_explained {args : StackTraceArguments} {body : StackTraceBody}
    (h : stackTrace it args st = (.ok body, st')) (hm : Mirrors it answers st)
    (hb : st'.1.minted < 2 ^ 32) (hden : ∀ x l, st'.1.Denotes x l → den x = some l) :
    Explained answers den told (.stackTrace args) (.frames body) ∧
      st'.1.Knows (Shown.frames body).numbers := by
  obtain ⟨entries, st₁, hf, h⟩ := bind_eq_ok.1 h
  cases h
  obtain ⟨hgrow, hentries⟩ := ensureFrames_ok hf
  obtain ⟨-, hg, hfaith⟩ := hgrow.mirrors hm hb
  obtain ⟨infos, hstack, hall⟩ := hfaith.frames entries hentries
  have hdenotes (f : FrameEntry) (hf : f ∈ entries) :
      st'.1.Denotes f.frame.id (.frame f.level) := .frame (hg.frame?_of_mem hentries hf)
  refine ⟨.frames hstack ?total ?pages, ?knows⟩
  case total =>
    have := hall.length_eq
    simp only [leveled, List.length_mapIdx] at this
    rw [this]
  case pages =>
    refine List.forall₂_map_right_iff.2 (forall₂_page _ _ (List.forall₂_iff_zip.2
      ⟨hall.length_eq, fun {p f} hpf => ?_⟩))
    obtain ⟨hl, hr⟩ := List.forall₂_zip hall hpf
    rw [← hl]
    exact ⟨hden _ _ (hdenotes f (List.of_mem_zip hpf).2), hr⟩
  case knows =>
    intro x hx
    obtain ⟨frame, hframe, rfl⟩ := List.mem_map.1 hx
    obtain ⟨f, hf, rfl⟩ := List.mem_map.1 hframe
    exact ⟨_, hdenotes f (mem_of_mem_page hf)⟩

theorem scopes_explained {args : ScopesArguments} {r : Except AdapterError (List Scope)}
    (h : scopes it args.frameId st = (.ok r, st')) (hm : Mirrors it answers st)
    (hb : st'.1.minted < 2 ^ 32) (hden : ∀ x l, st'.1.Denotes x l → den x = some l)
    (htold : st.1.Knows told) :
    Explained answers den told (.scopes args) (.scopes r) ∧
      st'.1.Knows (Shown.scopes r).numbers := by
  obtain ⟨hgrow, hr⟩ := scopes_ok h
  obtain ⟨-, hext⟩ := hgrow.wellFormed hm.wellFormed hb
  obtain ⟨-, hg, hfaith⟩ := hgrow.mirrors hm hb
  obtain ⟨hnone, rfl⟩ | ⟨f, hf, hask, rfl⟩ | ⟨f, root, hf, hroot, rfl⟩ := hr
  · refine ⟨.noFrame fun hid level hlevel => ?_, by simp [Knows, Shown.numbers]⟩
    obtain ⟨l, hl⟩ := htold _ hid
    cases (hden _ _ (hl.mono hext)).symm.trans hlevel
    cases hl with
    | frame hf => cases hnone.symm.trans hf
  · have hlocals := ((Interpreter.ensures_ask_steady _).of_ok hm.steady hask).2.symm
    exact ⟨.noScope (hden _ _ ((Denotes.frame hf).mono hext)) hlocals,
      by simp [Knows, Shown.numbers]⟩
  · obtain ⟨e, he, hk, hp⟩ := hg.roots _ f root hf hroot
    have hd : st'.1.Denotes root (.locals f.level) := .locals he hp hf
    obtain ⟨record, hrec⟩ : ∃ record, e.resolved = some record :=
      Option.ne_none_iff_exists'.1 fun hn => (hg.unresolved root e he hn).2 hk
    cases hfaith.records root e record he hrec with
    | value hp' => cases hp.symm.trans hp'
    | locals hp' hf' hnames =>
      cases hp.symm.trans hp'
      cases hf.symm.trans hf'
      refine ⟨.scope (hden _ _ (.frame hf)) hnames (hden _ _ hd), fun x hx => ?_⟩
      obtain rfl : x = root := by simpa [Shown.numbers, localScope] using hx
      exact ⟨_, hd⟩

theorem Faithful.children {g : StackGraph} (hf : g.Faithful answers) (hg : g.Sound) {x : UInt32}
    {e : VariableEntry} {record : Variable} (he : g.arena[x]? = some e)
    (hr : e.resolved = some record) :
    ∃ l, g.Denotes x l ∧ (∀ level, l ≠ .frame level) ∧
      List.Forall₂ (fun c child => ∃ ce : VariableEntry, g.arena[c]? = some ce ∧
        ce.key = child.1 ∧ ce.parent = .variable x ∧ g.Denotes c (.value child.2))
        e.children (answers.children l) := by
  obtain ⟨l, hd, hne, hkeyed⟩ : ∃ l, g.Denotes x l ∧ (∀ level, l ≠ .frame level) ∧
      g.Keyed e.children ((answers.children l).map Prod.fst) := by
    cases hf.records x e record he hr with
    | locals hp hf _ hkeyed => exact ⟨_, .locals he hp hf, nofun, hkeyed⟩
    | value _ hd _ hkeyed => exact ⟨_, hd, nofun, hkeyed⟩
  refine ⟨l, hd, hne, ?_⟩
  have hkeyed := List.forall₂_map_right_iff.1 hkeyed
  refine List.forall₂_iff_zip.2 ⟨hkeyed.length_eq, fun {c child} hpair => ?_⟩
  obtain ⟨ce, hce, hk⟩ := List.forall₂_zip hkeyed hpair
  obtain ⟨hc, hchild⟩ := List.of_mem_zip hpair
  obtain ⟨ce', hce', hp⟩ := (hg.children x e he).2 c hc
  cases hce.symm.trans hce'
  exact ⟨ce, hce, hk, hp, hd.child hchild hce hk hp⟩

theorem Mirrors.tells (hm : Mirrors it answers st)
    (hden : ∀ x l, st.1.Denotes x l → den x = some l) {c p : UInt32} {e : VariableEntry}
    {child : VariableKey × Place} {record : Variable} (he : st.1.arena[c]? = some e)
    (hk : e.key = child.1) (hp : e.parent = .variable p) (hd : st.1.Denotes c (.value child.2))
    (hr : st.1.Settled c record) :
    Tells answers den child record ∧
      (record.variablesReference ≠ 0 → ∃ l, st.1.Denotes record.variablesReference l) := by
  obtain ⟨-, hg, hfaith⟩ := hm
  obtain ⟨e', he', hres⟩ := hr
  cases he.symm.trans he'
  cases hfaith.records c e record he hres with
  | locals hp' => cases hp.symm.trans hp'
  | value _ hd' hrec =>
    cases hd.unique hg.toSound hd'
    have hpos : c ≠ 0 := by
      rintro rfl
      exact Nat.lt_irrefl 0 (hg.numbers 0 e he).1
    refine ⟨⟨c, hden _ _ hd, hpos, by rw [hrec, hk]⟩, fun hne => ?_⟩
    obtain h | h := Reading.reference_record (answers.reading child.2) e.key.text c
    · rw [hrec, h]
      exact ⟨_, hd⟩
    · rw [hrec, h] at hne
      exact absurd rfl hne

theorem passes_eq {g : StackGraph} (filter : Option VariablesFilter) {c : UInt32}
    {e : VariableEntry} (he : g.arena[c]? = some e) : g.passes filter c = admits filter e.key := by
  cases filter with
  | none => rfl
  | some wanted => cases wanted <;> simp [passes, admits, he]

theorem variablesOf_explained {args : VariablesArguments}
    {r : Except AdapterError (List Variable)} (h : variablesOf it args st = (.ok r, st'))
    (hm : Mirrors it answers st) (hb : st'.1.minted < 2 ^ 32)
    (hden : ∀ x l, st'.1.Denotes x l → den x = some l) (htold : st.1.Knows told) :
    Explained answers den told (.values args) (.values r) ∧
      st'.1.Knows (Shown.values r).numbers := by
  obtain ⟨hgrow, hr⟩ := variablesOf_ok h
  obtain ⟨-, hext⟩ := hgrow.wellFormed hm.wellFormed hb
  have hm' := hgrow.mirrors hm hb
  obtain ⟨hnone, rfl⟩ | ⟨-, records, rfl, hr⟩ := hr
  · refine ⟨.noVariable fun hid => ?_, by simp [Knows, Shown.numbers]⟩
    obtain ⟨l, hl⟩ := htold _ hid
    have hknown := hden _ _ (hl.mono hext)
    cases hl with
    | frame => exact ⟨_, hknown⟩
    | locals he => cases hnone.symm.trans he
    | slot he => cases hnone.symm.trans he
    | entry he => cases hnone.symm.trans he
  · obtain ⟨e, he, hres, hset⟩ := hr 0 hm.wellFormed.since (by omega)
    obtain ⟨record, hrec⟩ := Option.ne_none_iff_exists'.1 hres
    obtain ⟨l, hd, hne, hall⟩ := hm'.faithful.children hm'.wellFormed.toSound he hrec
    have hchosen := forall₂_page args.start args.count
      (List.rel_filter (p := st'.1.passes args.filter)
        (q := fun child => admits args.filter child.1)
        (fun c child ⟨ce, hce, hk, _⟩ => by
          dsimp only
          rw [passes_eq args.filter hce, hk]) hall)
    have htells := forall₂_join
      (fun c child record ⟨ce, hce, hk, hp, hd⟩ hr => hm'.tells hden hce hk hp hd hr) hchosen hset
    refine ⟨.values (hden _ _ hd) hne (htells.imp fun _ _ h => h.1), fun x hx => ?_⟩
    obtain ⟨hx, hx0⟩ := List.mem_filter.1 hx
    obtain ⟨record, hrecord, rfl⟩ := List.mem_map.1 hx
    obtain ⟨child, -, ht⟩ := forall₂_exists_left htells hrecord
    exact ht.2 (by simpa using hx0)

end Explained

end StackGraph

namespace Question

open StackGraph

variable {st st' : StackGraph × σ}

theorem consult_grows {question : Question} {shown : Shown}
    (h : question.consult it st = (.ok shown, st')) : Grows it st st' := by
  cases question with
  | stackTrace args =>
    obtain ⟨body, _, hrun, h⟩ := bind_eq_ok.1 h
    cases h
    obtain ⟨entries, _, hf, h⟩ := bind_eq_ok.1 hrun
    cases h
    exact (ensureFrames_ok hf).1
  | scopes args =>
    obtain ⟨r, _, hrun, h⟩ := bind_eq_ok.1 h
    cases h
    exact (scopes_ok hrun).1
  | values args =>
    obtain ⟨r, _, hrun, h⟩ := bind_eq_ok.1 h
    cases h
    exact (variablesOf_ok hrun).1

theorem consult_returns (hs : it.Returns st.2) (hg : st.1.Closed) (question : Question) :
    ∃ shown st', question.consult it st = (.ok shown, st') := by
  cases question with
  | stackTrace args =>
    obtain ⟨body, st', h⟩ := stackTrace_returns hs args
    exact ⟨.frames body, st', bind_eq_ok.2 ⟨body, st', h, rfl⟩⟩
  | scopes args =>
    obtain ⟨r, st', h⟩ := scopes_returns hs args.frameId
    exact ⟨.scopes r, st', bind_eq_ok.2 ⟨r, st', h, rfl⟩⟩
  | values args =>
    obtain ⟨r, st', h⟩ := variablesOf_returns hs hg args
    exact ⟨.values r, st', bind_eq_ok.2 ⟨r, st', h, rfl⟩⟩

theorem consult_explained {question : Question} {shown : Shown} {told : List UInt32}
    {den : UInt32 → Option Location} (h : question.consult it st = (.ok shown, st'))
    (hm : Mirrors it answers st) (hb : st'.1.minted < 2 ^ 32)
    (hden : ∀ x l, st'.1.Denotes x l → den x = some l) (htold : st.1.Knows told) :
    Explained answers den told question shown ∧ st'.1.Knows shown.numbers := by
  cases question with
  | stackTrace args =>
    obtain ⟨body, _, hrun, h⟩ := bind_eq_ok.1 h
    cases h
    exact stackTrace_explained hrun hm hb hden
  | scopes args =>
    obtain ⟨r, _, hrun, h⟩ := bind_eq_ok.1 h
    cases h
    exact scopes_explained hrun hm hb hden htold
  | values args =>
    obtain ⟨r, _, hrun, h⟩ := bind_eq_ok.1 h
    cases h
    exact variablesOf_explained hrun hm hb hden htold

end Question

-- ---------------------------------------------------------------------------
-- Whole conversations
-- ---------------------------------------------------------------------------

section Converse

open StackGraph

variable {st st' : StackGraph × σ} {questions : List Question}

theorem converse_grows {shown : List Shown} (h : converse it questions st = (.ok shown, st')) :
    Grows it st st' := by
  induction questions generalizing st shown with
  | nil =>
    cases h
    exact .refl
  | cons question rest ih =>
    obtain ⟨first, st₁, hq, h⟩ := bind_eq_ok.1 h
    obtain ⟨others, st₂, hrest, h⟩ := bind_eq_ok.1 h
    cases h
    exact (Question.consult_grows hq).trans (ih hrest)

theorem converse_returns (st : StackGraph × σ) (hs : it.Returns st.2) (hg : st.1.Closed)
    (questions : List Question) : ∃ shown st', converse it questions st = (.ok shown, st') := by
  induction questions generalizing st with
  | nil => exact ⟨[], st, rfl⟩
  | cons question rest ih =>
    obtain ⟨first, st₁, hq⟩ := question.consult_returns hs hg
    have hgrow := Question.consult_grows hq
    obtain ⟨others, st₂, hrest⟩ := ih st₁ (hgrow.returns hs) (hgrow.closed_retains hg).1
    exact ⟨first :: others, st₂,
      bind_eq_ok.2 ⟨first, st₁, hq, bind_eq_ok.2 ⟨others, st₂, hrest, rfl⟩⟩⟩

/-- What answers establish and growth keeps holds of all answers at the end. -/
theorem converse_keeps {I : StackGraph → Prop} {P : StackGraph → Question → Shown → Prop} {n : Nat}
    (hgive : ∀ {st st' : StackGraph × σ} {question : Question} {answer : Shown},
      question.consult it st = (.ok answer, st') → I st.1 → st'.1.minted ≤ n →
      I st'.1 ∧ P st'.1 question answer)
    (hkeep : ∀ {st st' : StackGraph × σ} {question : Question} {answer : Shown},
      Grows it st st' → I st.1 → st'.1.minted ≤ n → P st.1 question answer →
      P st'.1 question answer)
    {shown : List Shown} (h : converse it questions st = (.ok shown, st')) (hI : I st.1)
    (hb : st'.1.minted ≤ n) {question : Question} {answer : Shown}
    (hmem : (question, answer) ∈ questions.zip shown) : P st'.1 question answer := by
  induction questions generalizing st shown with
  | nil => cases hmem
  | cons first rest ih =>
    obtain ⟨shown₁, st₁, hfirst, h⟩ := bind_eq_ok.1 h
    obtain ⟨others, _, hrest, h⟩ := bind_eq_ok.1 h
    cases h
    have hgrows := converse_grows hrest
    obtain ⟨hI₁, hP⟩ := hgive hfirst hI (Nat.le_trans hgrows.minted_le hb)
    rw [List.zip_cons_cons, List.mem_cons] at hmem
    obtain heq | hmem := hmem
    · cases heq
      exact hkeep hgrows hI₁ hb hP
    · exact ih hrest hI₁ hmem

theorem converse_account {shown : List Shown} {told : List UInt32}
    {den : UInt32 → Option Location} (h : converse it questions st = (.ok shown, st'))
    (hm : Mirrors it answers st) (hb : st'.1.minted < 2 ^ 32)
    (hden : ∀ x l, st'.1.Denotes x l → den x = some l) (htold : st.1.Knows told) :
    Account answers den told questions shown := by
  induction questions generalizing st shown told with
  | nil =>
    cases h
    exact .nil
  | cons question rest ih =>
    obtain ⟨first, st₁, hq, h⟩ := bind_eq_ok.1 h
    obtain ⟨others, st₂, hrest, h⟩ := bind_eq_ok.1 h
    cases h
    have hgrow := Question.consult_grows hq
    have hgrow' := converse_grows hrest
    have hb₁ := Nat.lt_of_le_of_lt hgrow'.minted_le hb
    have hm₁ := hgrow.mirrors hm hb₁
    obtain ⟨-, hext⟩ := hgrow.wellFormed hm.wellFormed hb₁
    obtain ⟨-, hext'⟩ := hgrow'.wellFormed hm₁.wellFormed hb
    obtain ⟨hfirst, hknows⟩ := Question.consult_explained hq hm hb₁
      (fun x l hd => hden x l (hd.mono hext')) htold
    refine .cons hfirst (ih hrest hm₁ fun x hx => ?_)
    obtain hx | hx := List.mem_append.1 hx
    · obtain ⟨l, hl⟩ := htold x hx
      exact ⟨l, hl.mono hext⟩
    · exact hknows x hx

end Converse

-- ---------------------------------------------------------------------------
-- Any two conversations
-- ---------------------------------------------------------------------------

/-- Two records that differ in their references at most, which stand for the same thing. -/
structure Alike (den den' : UInt32 → Option Location) (r r' : Variable) : Prop where
  record : { r with variablesReference := 0 } = { r' with variablesReference := 0 }
  childless : r.variablesReference = 0 ↔ r'.variablesReference = 0
  reference : r.variablesReference ≠ 0 →
    den r.variablesReference = den' r'.variablesReference

theorem Tells.alike {den den' : UInt32 → Option Location} {child : VariableKey × Place}
    {r r' : Variable} (h : Tells answers den child r) (h' : Tells answers den' child r') :
    Alike den den' r r' := by
  obtain ⟨x, hx, hne, rfl⟩ := h
  obtain ⟨x', hx', hne', rfl⟩ := h'
  cases answers.reading child.2 with
  | nowhere => exact ⟨rfl, Iff.rfl, fun h => absurd rfl h⟩
  | scalar v => exact ⟨rfl, Iff.rfl, fun h => absurd rfl h⟩
  | table keys =>
    cases keys with
    | nil => exact ⟨rfl, Iff.rfl, fun h => absurd rfl h⟩
    | cons key keys =>
      refine ⟨rfl, ?_, fun _ => hx.trans hx'.symm⟩
      exact ⟨fun h => absurd h hne, fun h => absurd h hne'⟩

theorem Account.explained {den : UInt32 → Option Location} {told : List UInt32}
    {questions : List Question} {shown : List Shown} (h : Account answers den told questions shown)
    {question : Question} {answer : Shown} (hmem : (question, answer) ∈ questions.zip shown) :
    ∃ told, Explained answers den told question answer := by
  induction h with
  | nil => simp at hmem
  | cons hfirst _ ih =>
    rw [List.zip_cons_cons, List.mem_cons] at hmem
    obtain heq | hmem := hmem
    · cases heq
      exact ⟨_, hfirst⟩
    · exact ih hmem

/-- A conversation about a stop that was not inspected before comes to an end, and every answer is
explained by what numbers stand for. -/
theorem exists_account {s : σ} {minted : Nat} {questions : List Question}
    (hs : it.Steady answers s)
    (hb : (converse it questions ({ minted := minted }, s)).2.1.minted < 2 ^ 32) :
    ∃ den shown, (converse it questions ({ minted := minted }, s)).1 = .ok shown ∧
      Account answers den [] questions shown := by
  obtain ⟨shown, st', h⟩ := converse_returns ({ minted := minted }, s) hs.returns
    StackGraph.closed_new questions
  have hgrow := converse_grows h
  rw [h] at hb ⊢
  have hm : StackGraph.Mirrors it answers ({ minted := minted }, s) :=
    ⟨hs, StackGraph.wellFormed_new (Nat.lt_of_le_of_lt hgrow.minted_le hb),
      StackGraph.faithful_new⟩
  obtain ⟨den, hden⟩ := StackGraph.exists_denotation (hgrow.mirrors hm hb).wellFormed.toSound
  refine ⟨den, shown, rfl, converse_account h hm hb (fun x l => (hden x l).2) ?_⟩
  exact fun x hx => absurd hx List.not_mem_nil

/-- Two conversations about stops that would be read alike, whatever is asked and in which order:
each is explained by what numbers stand for in it, and where both open the same thing in the same
way they are told the same. -/
theorem converse_eager {s s' : σ} {minted minted' : Nat} {questions questions' : List Question}
    (hs : it.Steady answers s) (hs' : it.Steady answers s')
    (hb : (converse it questions ({ minted := minted }, s)).2.1.minted < 2 ^ 32)
    (hb' : (converse it questions' ({ minted := minted' }, s')).2.1.minted < 2 ^ 32) :
    ∃ den den' shown shown',
      (converse it questions ({ minted := minted }, s)).1 = .ok shown ∧
      (converse it questions' ({ minted := minted' }, s')).1 = .ok shown' ∧
      Account answers den [] questions shown ∧ Account answers den' [] questions' shown' ∧
      ∀ (args args' : VariablesArguments) (records records' : List Variable),
        (.values args, .values (.ok records)) ∈ questions.zip shown →
        (.values args', .values (.ok records')) ∈ questions'.zip shown' →
        den args.variablesReference = den' args'.variablesReference →
        args.filter = args'.filter → args.start = args'.start → args.count = args'.count →
        List.Forall₂ (Alike den den') records records' := by
  obtain ⟨den, shown, hrun, hacc⟩ := exists_account hs hb
  obtain ⟨den', shown', hrun', hacc'⟩ := exists_account hs' hb'
  refine ⟨den, den', shown, shown', hrun, hrun', hacc, hacc', ?_⟩
  intro args args' records records' hq hq' hloc hfilter hstart hcount
  obtain ⟨told, hq⟩ := hacc.explained hq
  obtain ⟨told', hq'⟩ := hacc'.explained hq'
  cases hq with
  | values hl _ hrec =>
    cases hq' with
    | values hl' _ hrec' =>
      rw [hl, hl'] at hloc
      cases hloc
      rw [hfilter, hstart, hcount] at hrec
      exact forall₂_join (fun _ _ _ h h' => h.alike h') hrec hrec'

def tableStack : Scripted.Stack :=
  [{ info := { kind := .main }, locals := [("t", .table [(.name "x", .value (.integer 1))])] }]

def tableFirst : List Question :=
  [.stackTrace {}, .scopes ⟨1⟩, .values { variablesReference := 3 },
    .values { variablesReference := 2 }]

/-- The locals are opened before the table, and one number is wrong. -/
def tableLast : List Question :=
  [.stackTrace {}, .scopes ⟨8⟩, .values { variablesReference := 9 },
    .values { variablesReference := 10 }, .values { variablesReference := 12 }]

theorem converse_eager_table :
    ∃ den den' shown shown',
      (converse Scripted.interpreter tableFirst ({ minted := 0 }, tableStack)).1 = .ok shown ∧
      (converse Scripted.interpreter tableLast ({ minted := 7 }, tableStack)).1 = .ok shown' ∧
      Account tableStack.answers den [] tableFirst shown ∧
      Account tableStack.answers den' [] tableLast shown' ∧
      ∀ (args args' : VariablesArguments) (records records' : List Variable),
        (.values args, .values (.ok records)) ∈ tableFirst.zip shown →
        (.values args', .values (.ok records')) ∈ tableLast.zip shown' →
        den args.variablesReference = den' args'.variablesReference →
        args.filter = args'.filter → args.start = args'.start → args.count = args'.count →
        List.Forall₂ (Alike den den') records records' :=
  converse_eager (Scripted.Stack.steady (by decide)) (Scripted.Stack.steady (by decide))
    (by decide +kernel) (by decide +kernel)

end DebugAdapter
