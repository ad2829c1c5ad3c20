import DebugAdapter.Proofs.Inspection.Numbers

/-!
# The forest of a stop

The frames of a stop stand in a row, and its variables make a forest below them: each frame whose
locals were asked for has one root, and every other variable hangs by one parent. That holds of
whatever the interpreter answers, so no look-up of a variable ever fails, and a thread that dies
while it is asked dies of a call to its own interpreter.
-/

namespace DebugAdapter

open Protocol

variable {σ : Type} {it : Interpreter σ}

-- ---------------------------------------------------------------------------
-- What a thread dies of
-- ---------------------------------------------------------------------------

section DiesOfCalls

variable {S α β : Type} {π : S → σ}

/-- All that a computation does to the interpreter is to call it, and where it comes to a fault a
call has come to that fault. -/
def DiesOfCalls (it : Interpreter σ) (π : S → σ) (m : ExceptT Fault (StateM S) α) (st : S) :
    Prop :=
  (∃ calls, π (m st).2 = it.after calls (π st)) ∧
    ∀ fault, (m st).1 = .error fault →
      ∃ calls call, (it.answer call (it.after calls (π st))).1 = .error fault

theorem Interpreter.after_append (it : Interpreter σ) (calls more : List Call) (s : σ) :
    it.after (calls ++ more) s = it.after more (it.after calls s) :=
  List.foldl_append

theorem DiesOfCalls.of_ok {m : ExceptT Fault (StateM S) α} {st st' : S} {a : α}
    (h : m st = (.ok a, st')) (hs : π st' = π st) : DiesOfCalls it π m st := by
  rw [DiesOfCalls, h]
  exact ⟨⟨[], hs⟩, nofun⟩

theorem DiesOfCalls.pure (a : α) (st : S) : DiesOfCalls it π (Pure.pure a) st := .of_ok rfl rfl

theorem DiesOfCalls.bind {m : ExceptT Fault (StateM S) α} {f : α → ExceptT Fault (StateM S) β}
    {st : S} (hm : DiesOfCalls it π m st)
    (hf : ∀ a st', m st = (.ok a, st') → DiesOfCalls it π (f a) st') :
    DiesOfCalls it π (m >>= f) st := by
  obtain ⟨⟨calls, hcalls⟩, hfault⟩ := hm
  rw [DiesOfCalls, bind_run]
  obtain ⟨r, st', h⟩ : ∃ r st', m st = (r, st') := ⟨_, _, rfl⟩
  rw [h] at hcalls hfault ⊢
  cases r with
  | error fault => exact ⟨⟨calls, hcalls⟩, fun _ h => hfault _ (by cases h; rfl)⟩
  | ok a =>
    have hcalls : π st' = it.after calls (π st) := hcalls
    obtain ⟨⟨more, hmore⟩, hfault'⟩ := hf a st' h
    rw [hcalls] at hmore hfault'
    refine ⟨⟨calls ++ more, hmore.trans (it.after_append ..).symm⟩, fun fault h => ?_⟩
    obtain ⟨before, call, hcall⟩ := hfault' fault h
    exact ⟨calls ++ before, call, by rwa [it.after_append]⟩

end DiesOfCalls

namespace Interpreter

theorem diesOfCalls_ask (it : Interpreter σ) (call : Call) (s : σ) :
    DiesOfCalls it id (it.ask call) s :=
  ⟨⟨[call], rfl⟩, fun _ h => ⟨[], call, h⟩⟩

theorem diesOfCalls_read (it : Interpreter σ) (place : Place) (s : σ) :
    DiesOfCalls it id (it.read place) s := by
  refine (it.diesOfCalls_ask (.resolve place) s).bind fun value s' _ => ?_
  split
  · exact .pure _ s'
  · exact (it.diesOfCalls_ask (.entries place) s').bind fun keys s' _ => .pure _ s'
  · exact .pure _ s'

end Interpreter

theorem Inspect.diesOfCalls_probe {α : Type} {p : Probe σ α} {st : StackGraph × σ}
    (h : DiesOfCalls it id p st.2) : DiesOfCalls it Prod.snd (Inspect.probe p) st :=
  h

namespace StackGraph

variable {st : StackGraph × σ}

theorem diesOfCalls_graph (st : StackGraph × σ) : DiesOfCalls it Prod.snd Inspect.graph st :=
  .of_ok rfl rfl

theorem diesOfCalls_enumerate (steps : Nat) (level : UInt32) (st : StackGraph × σ) :
    DiesOfCalls it Prod.snd (enumerate it steps level) st := by
  induction steps generalizing level st with
  | zero => exact .pure [] st
  | succ steps ih =>
    refine (Inspect.diesOfCalls_probe (it.diesOfCalls_ask (.frame level) st.2)).bind
      fun info st' _ => ?_
    cases info with
    | none => exact .pure [] st'
    | some info =>
      exact (DiesOfCalls.of_ok rfl rfl).bind fun entry st' _ =>
        (ih (level + 1) st').bind fun outer st' _ => .pure (entry :: outer) st'

theorem diesOfCalls_ensureFrames (st : StackGraph × σ) :
    DiesOfCalls it Prod.snd (ensureFrames it) st := by
  refine (diesOfCalls_graph st).bind fun g st' _ => ?_
  split
  · exact .pure _ st'
  · exact (diesOfCalls_enumerate _ 0 st').bind fun entries st' _ => .of_ok rfl rfl

theorem diesOfCalls_scopes (st : StackGraph × σ) (id : UInt32) :
    DiesOfCalls it Prod.snd (scopes it id) st := by
  refine (diesOfCalls_graph st).bind fun g st' _ => ?_
  split
  · exact .pure _ st'
  · split
    · exact .pure _ st'
    · refine (Inspect.diesOfCalls_probe (it.diesOfCalls_ask (.locals _) st'.2)).bind
        fun names st' _ => ?_
      cases names with
      | none => exact .pure _ st'
      | some names =>
        refine DiesOfCalls.bind (.of_ok rfl rfl) fun root st' _ => .pure _ st'

theorem diesOfCalls_resolve {id : UInt32} (hid : (st.1.arena[id]?).isSome) :
    DiesOfCalls it Prod.snd (resolve it id) st := by
  refine (diesOfCalls_graph st).bind fun g st' h => ?_
  cases h
  obtain ⟨e, he⟩ := Option.isSome_iff_exists.1 hid
  rw [he]
  dsimp only
  split
  · exact .pure _ st
  · split
    · exact (DiesOfCalls.pure Reading.nowhere st).bind fun reading st' _ => .of_ok rfl rfl
    · exact (Inspect.diesOfCalls_probe (it.diesOfCalls_read _ st.2)).bind
        fun reading st' _ => .of_ok rfl rfl

theorem diesOfCalls_resolveAll (hg : st.1.Closed) {ids : List UInt32}
    (hids : ∀ id ∈ ids, (st.1.arena[id]?).isSome) :
    DiesOfCalls it Prod.snd (resolveAll it ids) st := by
  induction ids generalizing st with
  | nil => exact .pure [] st
  | cons id ids ih =>
    refine (diesOfCalls_resolve (hids id List.mem_cons_self)).bind fun record st' h => ?_
    obtain ⟨hg', hkept⟩ := (resolve_ok h).1.closed_retains hg
    exact (ih hg' fun id hid => hkept id (hids id (List.mem_cons_of_mem _ hid))).bind
      fun records st' _ => .pure _ st'

theorem diesOfCalls_variablesOf (hg : st.1.Closed) (args : VariablesArguments) :
    DiesOfCalls it Prod.snd (variablesOf it args) st := by
  refine (diesOfCalls_graph st).bind fun g st' h => ?_
  cases h
  split
  · exact .pure _ st
  · rename_i e he
    refine (diesOfCalls_resolve (by rw [he]; rfl)).bind fun record st' h => ?_
    obtain ⟨hgrow, e', he', -⟩ := resolve_ok h
    have hg' := (hgrow.closed_retains hg).1
    refine (diesOfCalls_graph st').bind fun g' st'' h' => ?_
    cases h'
    rw [he', Option.map_some, Option.getD_some]
    refine (diesOfCalls_resolveAll hg' fun id hid => ?_).bind fun records st' _ => .pure _ st'
    exact hg'.children _ e' he' id (List.mem_filter.1 (mem_of_mem_page hid)).1

end StackGraph

theorem Question.diesOfCalls_consult {st : StackGraph × σ} (hg : st.1.Closed)
    (question : Question) : DiesOfCalls it Prod.snd (question.consult it) st := by
  cases question with
  | stackTrace args =>
    refine DiesOfCalls.bind ?_ fun body st' _ => .pure _ st'
    exact (StackGraph.diesOfCalls_ensureFrames st).bind fun entries st' _ => .pure _ st'
  | scopes args =>
    exact (StackGraph.diesOfCalls_scopes st _).bind fun r st' _ => .pure _ st'
  | values args =>
    exact (StackGraph.diesOfCalls_variablesOf hg args).bind fun r st' _ => .pure _ st'

theorem diesOfCalls_converse {st : StackGraph × σ} (hg : st.1.Closed)
    (questions : List Question) : DiesOfCalls it Prod.snd (converse it questions) st := by
  induction questions generalizing st with
  | nil => exact .pure [] st
  | cons question rest ih =>
    refine (question.diesOfCalls_consult hg).bind fun shown st' h => ?_
    exact (ih ((Question.consult_grows h).closed_retains hg).1).bind fun others st' _ =>
      .pure _ st'

-- ---------------------------------------------------------------------------
-- Looking up without precaution
-- ---------------------------------------------------------------------------

namespace StackGraph

/-- A variable that has to be there: where it is not, the thread dies. -/
def demand (id : UInt32) : Inspect σ VariableEntry := do
  match (← Inspect.graph).arena[id]? with
  | none => Inspect.fail (.dangling id)
  | some entry => pure entry

def demandPasses (filter : Option VariablesFilter) (child : UInt32) : Inspect σ Bool :=
  match filter with
  | none => pure true
  | some _ => do
    let entry ← demand child
    pure (admits filter entry.key)

def sift (filter : Option VariablesFilter) : List UInt32 → Inspect σ (List UInt32)
  | [] => pure []
  | child :: rest => do
    let passed ← demandPasses filter child
    let others ← sift filter rest
    pure (if passed then child :: others else others)

/-- The children of a variable, where the variable and each of its children have to be there once
the number is known. -/
def demandVariables (it : Interpreter σ) (args : VariablesArguments) :
    Inspect σ (Except AdapterError (List Variable)) := do
  let id := args.variablesReference
  match (← Inspect.graph).arena[id]? with
  | none => pure (.error (.unknownVariable id))
  | some _ =>
    let _ ← resolve it id
    let entry ← demand id
    let children ← sift args.filter entry.children
    let records ← resolveAll it (page args.start args.count children)
    pure (.ok records)

theorem demand_eq {g : StackGraph} {id : UInt32} {e : VariableEntry} (h : g.arena[id]? = some e)
    (s : σ) : demand id (g, s) = (.ok e, g, s) := by
  refine bind_eq_ok.2 ⟨g, (g, s), rfl, ?_⟩
  rw [h]
  rfl

theorem demandPasses_eq {g : StackGraph} (filter : Option VariablesFilter) {child : UInt32}
    (h : (g.arena[child]?).isSome) (s : σ) :
    demandPasses filter child (g, s) = (.ok (g.passes filter child), g, s) := by
  obtain ⟨e, he⟩ := Option.isSome_iff_exists.1 h
  rw [passes_eq filter he]
  cases filter with
  | none => rfl
  | some wanted => exact bind_eq_ok.2 ⟨e, (g, s), demand_eq he s, rfl⟩

theorem sift_eq {g : StackGraph} (filter : Option VariablesFilter) {ids : List UInt32}
    (h : ∀ id ∈ ids, (g.arena[id]?).isSome) (s : σ) :
    sift filter ids (g, s) = (.ok (ids.filter (g.passes filter)), g, s) := by
  induction ids with
  | nil => rfl
  | cons id ids ih =>
    have hrest := ih fun id hid => h id (List.mem_cons_of_mem _ hid)
    rw [List.filter_cons]
    exact bind_eq_ok.2 ⟨_, (g, s), demandPasses_eq filter (h id List.mem_cons_self) s,
      bind_eq_ok.2 ⟨_, (g, s), hrest, rfl⟩⟩

/-- Precaution makes no difference where no link dangles. -/
theorem demandVariables_eq {g : StackGraph} (hg : g.Closed) (it : Interpreter σ)
    (args : VariablesArguments) (s : σ) :
    demandVariables it args (g, s) = variablesOf it args (g, s) := by
  have hgraph : Inspect.graph (g, s) = (.ok g, g, s) := rfl
  rw [demandVariables, variablesOf, bind_run, bind_run, hgraph]
  dsimp only
  cases g.arena[args.variablesReference]? with
  | none => rfl
  | some e₀ =>
    dsimp only
    rw [bind_run, bind_run]
    cases h : resolve it args.variablesReference (g, s) with
    | mk r st' =>
      obtain ⟨g', s'⟩ := st'
      cases r with
      | error fault => rfl
      | ok record =>
        obtain ⟨hgrow, e, he, -⟩ := resolve_ok h
        have hg' : g'.Closed := (hgrow.closed_retains hg).1
        have he : g'.arena[args.variablesReference]? = some e := he
        have hgraph' : Inspect.graph (g', s') = (.ok g', g', s') := rfl
        simp only [bind_run, demand_eq he s', sift_eq args.filter (hg'.children _ e he) s',
          hgraph', he, Option.map_some, Option.getD_some]

-- ---------------------------------------------------------------------------
-- The forest
-- ---------------------------------------------------------------------------

structure Forest (g : StackGraph) : Prop where
  /-- Frames have numbers of their own, and their levels count from the innermost one. -/
  frames : ∀ entries, g.frames = some entries → (entries.map (·.frame.id)).Nodup ∧
    entries.map (·.level.toNat) = List.range entries.length
  /-- What holds locals belongs to a frame, and every other variable has a parent that was there
  before it. -/
  parents : ∀ (x : UInt32) (e : VariableEntry), g.arena[x]? = some e →
    e.key = .locals ∧ (∃ id f, e.parent = .frame id ∧ g.frame? id = some f) ∨
    e.key ≠ .locals ∧ ∃ p r, e.parent = .variable p ∧ p < x ∧ g.arena[p]? = some r ∧
      x ∈ r.children
  children : ∀ (x : UInt32) (e : VariableEntry), g.arena[x]? = some e →
    ∀ c ∈ e.children, ∃ ce : VariableEntry, g.arena[c]? = some ce ∧ ce.parent = .variable x
  /-- Whatever is listed as a child is listed once among all children. -/
  listed : (g.arena.toList.flatMap fun entry => entry.2.children).Nodup
  /-- The locals of a frame have one root at most, which the frame knows. -/
  roots : ∀ (id : UInt32) (f : FrameEntry), g.frame? id = some f → ∀ root : UInt32,
    (∃ e : VariableEntry, g.arena[root]? = some e ∧ e.parent = .frame id) ↔ f.locals = some root
  /-- The links of every other variable lead to a local in the root of a frame that is known, and
  the walk along them comes to its end there, whatever number of steps it may take beyond. -/
  chains : ∀ (x : UInt32) (e : VariableEntry), g.arena[x]? = some e → e.key ≠ .locals →
    ∃ place, g.Denotes x (.value place) ∧
      ∀ steps, x.toNat ≤ steps → g.placeFrom steps x [] = some place

theorem Sound.forest_frames {g : StackGraph} (hg : g.Sound) {entries : List FrameEntry}
    (h : g.frames = some entries) : (entries.map (·.frame.id)).Nodup ∧
      entries.map (·.level.toNat) = List.range entries.length := by
  obtain ⟨base, hbase, hall⟩ := hg.frames entries h
  have hb := hg.bounded
  have hids : entries.map (·.frame.id) = consecutive base entries.length := by
    apply List.ext_getElem?
    intro i
    rw [List.getElem?_map, consecutive, List.getElem?_map]
    by_cases hi : i < entries.length
    · rw [List.getElem?_range hi, List.getElem?_eq_getElem hi]
      exact congrArg some (hall i _ (List.getElem?_eq_getElem hi)).2
    · rw [List.getElem?_eq_none (Nat.le_of_not_lt hi), List.getElem?_eq_none (by simpa using hi)]
      rfl
  refine ⟨?_, ?_⟩
  · rw [hids]
    exact (pairwise_consecutive (by omega)).imp fun hlt => UInt32.ne_of_lt hlt
  · apply List.ext_getElem
    · simp
    · intro i hi _
      rw [List.length_map] at hi
      rw [List.getElem_map, List.getElem_range, (hall i _ (List.getElem?_eq_getElem hi)).1,
        toNat_ofNat (by omega)]

theorem Sound.nodup_listed {g : StackGraph} (hg : g.Sound) :
    (g.arena.toList.flatMap fun entry => entry.2.children).Nodup := by
  refine List.nodup_flatMap.2 ⟨fun entry hentry => ?_, ?_⟩
  · exact (hg.children entry.1 entry.2
      (Std.TreeMap.mem_toList_iff_getElem?_eq_some.1 hentry)).1
  · refine Std.TreeMap.distinct_keys_toList.imp_of_mem fun {a b} ha hb hne => ?_
    intro c hca hcb
    obtain ⟨ce, hce, hp⟩ :=
      (hg.children a.1 a.2 (Std.TreeMap.mem_toList_iff_getElem?_eq_some.1 ha)).2 c hca
    obtain ⟨ce', hce', hp'⟩ :=
      (hg.children b.1 b.2 (Std.TreeMap.mem_toList_iff_getElem?_eq_some.1 hb)).2 c hcb
    cases hce.symm.trans hce'
    have hab : a.1 = b.1 := Parent.variable.inj (hp.symm.trans hp')
    exact hne (Std.LawfulEqCmp.compare_eq_iff_eq.2 hab)

theorem WellFormed.forest {g : StackGraph} (hg : g.WellFormed) : g.Forest where
  frames entries h := hg.toSound.forest_frames h
  parents x e he := by
    cases hg.linked x e he with
    | locals hk hp hf => exact .inl ⟨hk, _, _, hp, hf⟩
    | slot hk hp hlt hr _ hm => exact .inr ⟨by rw [hk]; nofun, _, _, hp, hlt, hr, hm⟩
    | entry hk hp hlt hr _ hm => exact .inr ⟨by rw [hk]; nofun, _, _, hp, hlt, hr, hm⟩
  children x e he := (hg.children x e he).2
  listed := hg.toSound.nodup_listed
  roots id f hf root := by
    constructor
    · rintro ⟨e, he, hp⟩
      cases hg.linked root e he with
      | locals _ hp' hf' hl =>
        cases hp.symm.trans hp'
        cases hf.symm.trans hf'
        exact hl
      | slot _ hp' => cases hp.symm.trans hp'
      | entry _ hp' => cases hp.symm.trans hp'
    · intro hl
      obtain ⟨e, he, -, hp⟩ := hg.roots id f root hf hl
      exact ⟨e, he, hp⟩
  chains x e he hne := by
    obtain ⟨p, hp⟩ := hg.toSound.exists_parent he hne
    obtain ⟨place, hd⟩ := hg.toSound.exists_place he hp
    refine ⟨place, hd, fun steps hsteps => ?_⟩
    rw [hd.placeFrom hg.toSound hsteps, List.append_nil]

end StackGraph

/-- What a conversation that began in the state `s` comes to. -/
structure Tended (it : Interpreter σ) (s : σ) (r : Except Fault (List Shown))
    (st : StackGraph × σ) : Prop where
  forest : st.1.Forest
  /-- The next request finds every variable that it looks up. -/
  present : ∀ args, StackGraph.demandVariables it args st = StackGraph.variablesOf it args st
  /-- The thread only ever dies of a call to its interpreter. -/
  dies : ∀ fault, r = .error fault →
    ∃ calls call, (it.answer call (it.after calls s)).1 = .error fault

/-- Whatever is asked at a stop and whatever the interpreter answers, the graph is a forest as long
as the counter has numbers left, and no look-up in it fails. -/
theorem converse_forest (it : Interpreter σ) (s : σ) (minted : Nat) (questions : List Question)
    (hb : (converse it questions ({ minted := minted }, s)).2.1.minted < 2 ^ 32) :
    Tended it s (converse it questions ({ minted := minted }, s)).1
      (converse it questions ({ minted := minted }, s)).2 := by
  obtain ⟨log, hlog⟩ := converse_mints it questions { minted := minted } s
  obtain ⟨-, hg⟩ := hlog.recounted hb
  refine ⟨hg.forest, fun args => StackGraph.demandVariables_eq hg.closed it args _, ?_⟩
  have hclosed : StackGraph.Closed { minted := minted } := StackGraph.closed_new
  exact (diesOfCalls_converse hclosed questions).2

/-- Two frames, of which the inner one has a local that kills whoever reads it. -/
def deadlyStack : Scripted.Stack :=
  [{ info := { kind := .script }
     locals := [("t", .table [(.index 1, .value .nil)]), ("bad", .deadly)] },
   { info := { kind := .main }, locals := [("x", .value (.bool true))] }]

def deadlyQuestions : List Question :=
  [.stackTrace {}, .scopes ⟨2⟩, .scopes ⟨1⟩, .values { variablesReference := 3 },
    .values { variablesReference := 5, filter := some .named }]

theorem converse_forest_deadly :
    (converse Scripted.interpreter deadlyQuestions ({ minted := 0 }, deadlyStack)).2.1.minted <
        2 ^ 32 ∧
      Tended Scripted.interpreter deadlyStack
        (converse Scripted.interpreter deadlyQuestions ({ minted := 0 }, deadlyStack)).1
        (converse Scripted.interpreter deadlyQuestions ({ minted := 0 }, deadlyStack)).2 :=
  ⟨by decide +kernel, converse_forest _ _ _ _ (by decide +kernel)⟩

end DebugAdapter
