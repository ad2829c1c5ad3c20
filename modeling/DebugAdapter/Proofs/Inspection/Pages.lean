import DebugAdapter.Proofs.Inspection.Eager
import DebugAdapter.Proofs.Interleaved

/-!
# Pages, filters and counts

The children of a variable may be asked for page by page, and the named or the indexed ones alone;
the record of a variable announces how many of each kind there are. All these answers are parts of
one list, whatever is asked in between and even if the interpreter changes its answers from call to
call: at the end of a conversation each of them can still be read off the graph (`Lists`), and what
was announced holds of the graph after every step (`Tallied`). The result is `pages_agree`.
-/

namespace DebugAdapter

open Protocol

variable {σ : Type} {it : Interpreter σ}

-- ---------------------------------------------------------------------------
-- Lists in pages
-- ---------------------------------------------------------------------------

section Cuts

variable {α : Type} {items : List α} {size : Nat} {pages : List (List α)}

theorem flatten_eq_take
    (h : ∀ (k : Nat) (cut : List α), pages[k]? = some cut →
      cut = (items.drop (k * size)).take size) :
    pages.flatten = items.take (pages.length * size) := by
  induction pages generalizing items with
  | nil => simp
  | cons first rest ih =>
    have hfirst : first = items.take size := by simpa using h 0 first rfl
    have hrest : rest.flatten = (items.drop size).take (rest.length * size) :=
      ih fun k cut hk => by
        rw [List.drop_drop, Nat.add_comm, ← Nat.succ_mul]
        exact h (k + 1) cut hk
    rw [List.flatten_cons, hfirst, hrest, List.length_cons, Nat.succ_mul, Nat.add_comm,
      List.take_add]

theorem length_le_of_short {last : List α}
    (h : ∀ (k : Nat) (cut : List α), pages[k]? = some cut →
      cut = (items.drop (k * size)).take size)
    (hlast : pages.getLast? = some last) (hshort : last.length < size) :
    items.length ≤ pages.length * size := by
  rw [List.getLast?_eq_getElem?] at hlast
  obtain ⟨n, hn⟩ : ∃ n, pages.length = n + 1 :=
    Nat.exists_eq_succ_of_ne_zero fun h => by simp [List.length_eq_zero_iff.1 h] at hlast
  rw [hn, Nat.add_sub_cancel] at hlast
  rw [h n last hlast, List.length_take, List.length_drop] at hshort
  rw [hn, Nat.succ_mul]
  omega

end Cuts

-- ---------------------------------------------------------------------------
-- Numbers of children
-- ---------------------------------------------------------------------------

def Protocol.Variable.announced (record : Variable) : VariablesFilter → Nat
  | .named => (record.namedVariables.getD 0).toNat
  | .indexed => (record.indexedVariables.getD 0).toNat

theorem StackGraph.toNat_countOf {n : Nat} (h : n < UInt32.size) :
    ((countOf n).getD 0).toNat = n := by
  unfold countOf
  split
  · rename_i hn
    rw [hn]
    rfl
  · exact UInt32.toNat_ofNatClamp_of_lt h

theorem Reading.announced_record (reading : Reading) (hfew : reading.keys.length < UInt32.size)
    (name : String) (reference : UInt32) (filter : VariablesFilter) :
    (reading.record name reference).announced filter =
      (reading.keys.map VariableKey.entry).countP (admits (some filter)) := by
  rw [List.countP_map]
  cases reading with
  | nowhere => cases filter <;> rfl
  | scalar v => cases filter <;> rfl
  | table keys =>
    cases filter with
    | named => exact StackGraph.toNat_countOf (Nat.lt_of_le_of_lt List.countP_le_length hfew)
    | indexed => exact StackGraph.toNat_countOf (Nat.lt_of_le_of_lt List.countP_le_length hfew)

theorem StackGraph.countP_slots (names : List String) (filter : VariablesFilter) :
    (slots names).countP (admits (some filter)) =
      match filter with
      | .named => names.length
      | .indexed => 0 := by
  have hkey (key : VariableKey) (h : key ∈ slots names) : key.isIndexed = false := by
    obtain ⟨i, hi, rfl⟩ := List.mem_mapIdx.1 h
    rfl
  cases filter with
  | named =>
    have hall : (slots names).countP (admits (some .named)) = (slots names).length :=
      List.countP_eq_length.2 fun key h => by simp [admits, hkey key h]
    rw [hall]
    exact List.length_mapIdx
  | indexed => exact List.countP_eq_zero.2 fun key h => by simp [admits, hkey key h]

namespace StackGraph

variable {g : StackGraph} {st st' : StackGraph × σ}

-- ---------------------------------------------------------------------------
-- Answers about one variable
-- ---------------------------------------------------------------------------

theorem settled_unique (g : StackGraph) : Relator.RightUnique g.Settled := by
  rintro id r r' ⟨e, he, hr⟩ ⟨e', he', hr'⟩
  cases he.symm.trans he'
  exact Option.some.inj (hr.symm.trans hr')

theorem Lists.eq_page {args : VariablesArguments} {records whole : List Variable}
    (h : g.Lists args records)
    (hwhole : g.Lists { args with start := none, count := none } whole) :
    records = page args.start args.count whole := by
  obtain ⟨e, he, -, hrecords⟩ := h
  obtain ⟨e', he', -, hall⟩ := hwhole
  cases he.symm.trans he'
  exact g.settled_unique.forall₂ hrecords (forall₂_page args.start args.count hall)

theorem Closed.filter_indexed (hg : g.Closed) {id : UInt32} {e : VariableEntry}
    (he : g.arena[id]? = some e) : e.children.filter (g.passes (some .indexed)) =
      e.children.filter fun c => !g.passes (some .named) c := by
  refine List.filter_congr fun c hc => ?_
  obtain ⟨ce, hce⟩ := Option.isSome_iff_exists.1 (hg.children id e he c hc)
  rw [passes_eq _ hce, passes_eq _ hce, admits, admits, Bool.not_not]

theorem filter_passes_none (g : StackGraph) (ids : List UInt32) :
    ids.filter (g.passes none) = ids := by
  simp [passes]

theorem Lists.interleaved {id : UInt32} {named indexed all : List Variable} (hg : g.Closed)
    (hnamed : g.Lists { variablesReference := id, filter := some .named } named)
    (hindexed : g.Lists { variablesReference := id, filter := some .indexed } indexed)
    (hall : g.Lists { variablesReference := id } all) : Interleaved named indexed all := by
  obtain ⟨e, he, -, hnamed⟩ := hnamed
  obtain ⟨e', he', -, hindexed⟩ := hindexed
  cases he.symm.trans he'
  obtain ⟨e', he', -, hall⟩ := hall
  cases he.symm.trans he'
  have hmerge := Interleaved.filter (g.passes (some .named)) e.children
  rw [← hg.filter_indexed he] at hmerge
  exact hmerge.forall₂ g.settled_unique hnamed hindexed (g.filter_passes_none e.children ▸ hall)

-- ---------------------------------------------------------------------------
-- What is announced
-- ---------------------------------------------------------------------------

/-- A record refers to its variable or to nothing, and it announces the children that there are. -/
structure Announces (g : StackGraph) (x : UInt32) (e : VariableEntry) (record : Variable) :
    Prop where
  reference : record.variablesReference ≠ 0 → record.variablesReference = x
  counts : ∀ filter : VariablesFilter,
    (e.children.filter (g.passes (some filter))).length = record.announced filter

theorem Announces.congr {g' : StackGraph} (harena : g'.arena = g.arena) {x : UInt32}
    {e : VariableEntry} {record : Variable} (h : g.Announces x e record) :
    g'.Announces x e record := by
  refine ⟨h.reference, fun filter => ?_⟩
  have hpasses : g'.passes (some filter) = g.passes (some filter) := by
    funext c
    simp only [passes, harena]
  rw [hpasses, h.counts]

theorem Announces.total {x : UInt32} {e : VariableEntry} {record : Variable}
    (h : g.Announces x e record) (hg : g.Closed) (he : g.arena[x]? = some e) :
    e.children.length = record.announced .named + record.announced .indexed := by
  rw [← h.counts .named, ← h.counts .indexed, hg.filter_indexed he]
  exact List.length_eq_length_filter_add _

structure Tallied (base : Nat) (g : StackGraph) : Prop extends g.Since base where
  roots : ∀ (x : UInt32) (f : FrameEntry) (root : UInt32), g.frame? x = some f →
    f.locals = some root → (g.arena[root]?).isSome
  records : ∀ (x : UInt32) (e : VariableEntry) (record : Variable), g.arena[x]? = some e →
    e.resolved = some record → g.Announces x e record

theorem tallied_new {minted : Nat} : ({ minted := minted } : StackGraph).Tallied minted where
  toSince := since_new
  roots := by simp [frame?]
  records := by simp

theorem Keyed.length_filter {ids : List UInt32} {keys : List VariableKey} (h : g.Keyed ids keys)
    (filter : Option VariablesFilter) :
    (ids.filter (g.passes filter)).length = keys.countP (admits filter) := by
  rw [List.countP_eq_length_filter]
  refine (List.rel_filter (fun id key ⟨e, he, hk⟩ => ?_) h).length_eq
  dsimp only
  rw [passes_eq filter he, hk]

theorem announces_attach {base : Nat} {id : UInt32} {e : VariableEntry} {keys : List VariableKey}
    (hg : g.Since base) (hid : g.Spans base id)
    (hb : (g.attach id e keys).minted ≤ base + 2 ^ 32) (hk : g.Keeps (g.attach id e keys))
    (hrecords : ∀ (x : UInt32) (e : VariableEntry) (record : Variable), g.arena[x]? = some e →
      e.resolved = some record → g.Announces x e record)
    (hself : ∀ record, e.resolved = some record →
      (record.variablesReference ≠ 0 → record.variablesReference = id) ∧
        ∀ filter : VariablesFilter, keys.countP (admits (some filter)) = record.announced filter)
    (x : UInt32) (f : VariableEntry) (record : Variable)
    (hf : (g.attach id e keys).arena[x]? = some f) (hr : f.resolved = some record) :
    (g.attach id e keys).Announces x f record := by
  -- The variable itself, one that was there before, or a new child, which has no record yet.
  obtain ⟨rfl, rfl⟩ | ⟨-, hx⟩ | ⟨i, key, -, -, rfl⟩ := (hg.getElem?_attach hid hb x f).1 hf
  · obtain ⟨hreference, hcounts⟩ := hself record hr
    refine ⟨hreference, fun filter => ?_⟩
    rw [← hcounts filter]
    exact (keyed_attach (hg.vacant hb) (hid.ne hb)).length_filter (some filter)
  · obtain ⟨hreference, hcounts⟩ := hrecords x f record hx hr
    refine ⟨hreference, fun filter => ?_⟩
    obtain ⟨f', hf', -, hsame⟩ := hk.filter_children hg.toClosed hx (by simp [hr]) (some filter)
    cases hf.symm.trans hf'
    rw [hsame, hcounts]
  · cases hr

theorem Tallied.enterLocals {base : Nat} (hg : g.Tallied base) (id : UInt32)
    (names : List String) (hb : (g.enterLocals id names).2.minted ≤ base + 2 ^ 32) :
    (g.enterLocals id names).2.Tallied base := by
  obtain ⟨hsince, hkeeps⟩ := hg.toSince.enterLocals id names hb
  refine ⟨hsince, fun x f root hf hroot => ?roots, ?records⟩
  case roots =>
    rw [enterLocals_eq, frame?_congr (frames_attach ..), frame?_rootAt] at hf
    obtain ⟨f₀, hf₀, rfl⟩ := Option.map_eq_some_iff.1 hf
    split at hroot
    · cases hroot
      rw [enterLocals_eq, StackGraph.attach, getElem?_put, if_pos rfl]
      rfl
    · exact (hg.toClosed.enterLocals id names).2 root (hg.roots _ f₀ root hf₀ hroot)
  case records =>
    rw [enterLocals_eq] at hb hkeeps ⊢
    have harena : (g.rootAt id (.ofNat (g.minted + 1))).arena = g.arena := rfl
    refine announces_attach (hg.rootAt id _) (hg.spans_rootAt id _) hb hkeeps
      (fun x e record he hr => (hg.records x e record he hr).congr harena) ?_
    rintro record ⟨⟩
    refine ⟨fun _ => rfl, fun filter => ?_⟩
    have hfew : names.length < UInt32.size := by
      have hlen : (slots names).length = names.length := by simp [slots]
      have hb : g.minted + 1 + (slots names).length ≤ base + 2 ^ 32 := hb
      have hminted := hg.minted
      rw [UInt32.size]
      omega
    rw [countP_slots]
    cases filter with
    | named => exact (UInt32.toNat_ofNatClamp_of_lt hfew).symm
    | indexed => rfl

theorem Tallied.settle {base : Nat} (hg : g.Tallied base) {id : UInt32} {e : VariableEntry}
    {reading : Reading} (he : g.arena[id]? = some e) (hr : e.resolved = none)
    (hb : (g.settle id e reading).2.minted ≤ base + 2 ^ 32) :
    (g.settle id e reading).2.Tallied base := by
  obtain ⟨hsince, hkeeps⟩ := hg.toSince.settle he hr hb
  have hretains := (hg.toClosed.settle he hr reading).2
  rw [settle_eq g id (hg.unresolved id e he hr)] at hb hsince hkeeps hretains ⊢
  have hid := hg.numbers id e he
  refine ⟨hsince, fun x f root hf hroot => ?roots, ?records⟩
  case roots =>
    rw [frame?_congr (frames_attach ..)] at hf
    exact hretains root (hg.roots x f root hf hroot)
  case records =>
    refine announces_attach hg.toSince hid hb hkeeps hg.records ?_
    rintro record ⟨⟩
    refine ⟨fun hne => ?_, fun filter => ?_⟩
    · exact (Reading.reference_record reading e.key.text id).resolve_right hne
    · refine (reading.announced_record ?_ _ _ filter).symm
      obtain ⟨n, hn, hle, -⟩ := hid
      have hb : g.minted + (reading.keys.map VariableKey.entry).length ≤ base + 2 ^ 32 := hb
      rw [List.length_map] at hb
      rw [UInt32.size]
      omega

theorem Grow.tallied {base : Nat} (h : Grow it st st') (hg : st.1.Tallied base)
    (hb : st'.1.minted ≤ base + 2 ^ 32) : st'.1.Tallied base := by
  have hsince := (h.since hg.toSince hb).1
  cases h with
  | @frames g _ _ infos =>
    have harena : (g.enterFrames infos).2.arena = g.arena := rfl
    refine ⟨hsince, fun x f root hf hroot => ?_,
      fun x e record he hr => (hg.records x e record he hr).congr harena⟩
    obtain ⟨i, info, -, -, rfl⟩ := frame?_enterFrames hf
    cases hroot
  | locals => exact hg.enterLocals _ _ hb
  | closed => exact hg
  | value he hr => exact hg.settle he hr hb
  | lost he hr => exact hg.settle he hr hb

theorem Grows.tallied {base : Nat} (h : Grows it st st') (hg : st.1.Tallied base)
    (hb : st'.1.minted ≤ base + 2 ^ 32) : st'.1.Tallied base := by
  induction h with
  | refl => exact hg
  | tail _ h ih => exact h.tallied (ih (Nat.le_trans h.minted_le hb)) hb

end StackGraph

-- ---------------------------------------------------------------------------
-- Conversations
-- ---------------------------------------------------------------------------

/-- From an answer the client knows a variable by its number. -/
inductive Introduces : Question → Shown → UInt32 → Prop
  | scope {args : ScopesArguments} {found : List Scope} {scope : Scope} : scope ∈ found →
      Introduces (.scopes args) (.scopes (.ok found)) scope.variablesReference
  | child {args : VariablesArguments} {records : List Variable} {record : Variable} :
      record ∈ records → record.variablesReference ≠ 0 →
      Introduces (.values args) (.values (.ok records)) record.variablesReference
  | parent {args : VariablesArguments} {records : List Variable} :
      Introduces (.values args) (.values (.ok records)) args.variablesReference

section Converse

open StackGraph

variable {st st' : StackGraph × σ} {base : Nat}

theorem Question.consult_lists {args : VariablesArguments} {records : List Variable}
    (h : (Question.values args).consult it st = (.ok (.values (.ok records)), st'))
    (hg : st.1.Since base) (hb : st'.1.minted ≤ base + 2 ^ 32) : st'.1.Lists args records := by
  obtain ⟨r, _, hrun, h⟩ := bind_eq_ok.1 h
  cases h
  obtain ⟨-, ⟨-, herror⟩ | ⟨-, _, hok, hlists⟩⟩ := variablesOf_ok hrun
  · cases herror
  · cases hok
    exact hlists base hg hb

theorem Question.consult_introduces {question : Question} {shown : Shown}
    (h : question.consult it st = (.ok shown, st')) (hg : st.1.Tallied base)
    (hb : st'.1.minted ≤ base + 2 ^ 32) {x : UInt32} (hx : Introduces question shown x) :
    (st'.1.arena[x]?).isSome := by
  have hg' := (Question.consult_grows h).tallied hg hb
  cases hx with
  | scope hscope =>
    obtain ⟨r, _, hrun, h⟩ := bind_eq_ok.1 h
    cases h
    obtain ⟨-, ⟨-, herror⟩ | ⟨f, -, -, hnone⟩ | ⟨f, root, hf, hroot, hone⟩⟩ := scopes_ok hrun
    · cases herror
    · cases hnone
      cases hscope
    · cases hone
      obtain rfl := List.mem_singleton.1 hscope
      exact hg'.roots _ f root hf hroot
  | child hrecord hne =>
    obtain ⟨_, _, _, hsettled⟩ := Question.consult_lists h hg.toSince hb
    obtain ⟨c, -, e, he, hr⟩ := forall₂_exists_left hsettled hrecord
    rw [(hg'.records c e _ he hr).reference hne, he]
    rfl
  | parent =>
    obtain ⟨e, he, -⟩ := Question.consult_lists h hg.toSince hb
    rw [he]
    rfl

theorem Question.consult_present {args : VariablesArguments} {shown : Shown}
    (h : (Question.values args).consult it st = (.ok shown, st'))
    (hx : (st.1.arena[args.variablesReference]?).isSome) :
    ∃ records, shown = .values (.ok records) := by
  obtain ⟨r, _, hrun, h⟩ := bind_eq_ok.1 h
  cases h
  obtain ⟨-, ⟨hnone, -⟩ | ⟨-, records, rfl, -⟩⟩ := variablesOf_ok hrun
  · rw [hnone] at hx
    cases hx
  · exact ⟨records, rfl⟩

variable {questions : List Question} {shown : List Shown}

theorem converse_lists (h : converse it questions st = (.ok shown, st')) (hg : st.1.Since base)
    (hb : st'.1.minted ≤ base + 2 ^ 32) {args : VariablesArguments} {records : List Variable}
    (hmem : (.values args, .values (.ok records)) ∈ questions.zip shown) :
    st'.1.Lists args records := by
  refine converse_keeps (I := Since base) (P := fun g question answer => ∀ args records,
    question = .values args → answer = .values (.ok records) → g.Lists args records)
    ?told ?kept h hg hb hmem args records rfl rfl
  case told =>
    rintro st st' question answer h hg hb
    refine ⟨((Question.consult_grows h).since hg hb).1, ?_⟩
    rintro args records rfl rfl
    exact Question.consult_lists h hg hb
  case kept =>
    intro st st' question answer hgrows hg hb hlists args records hquestion hanswer
    exact (hlists args records hquestion hanswer).mono (hgrows.since hg hb).2 hg.toClosed

theorem converse_present (h : converse it questions st = (.ok shown, st')) (hg : st.1.Closed)
    {args : VariablesArguments} {answer : Shown}
    (hx : (st.1.arena[args.variablesReference]?).isSome)
    (hmem : (.values args, answer) ∈ questions.zip shown) :
    ∃ records, answer = .values (.ok records) := by
  induction questions generalizing st shown with
  | nil => cases hmem
  | cons question rest ih =>
    obtain ⟨first, st₁, hfirst, h⟩ := bind_eq_ok.1 h
    obtain ⟨others, _, hrest, h⟩ := bind_eq_ok.1 h
    cases h
    rw [List.zip_cons_cons, List.mem_cons] at hmem
    obtain heq | hmem := hmem
    · cases heq
      exact Question.consult_present hfirst hx
    · obtain ⟨hg₁, hkept⟩ := (Question.consult_grows hfirst).closed_retains hg
      exact ih hrest hg₁ (hkept _ hx) hmem

def Honours (earlier later : Question × Shown) : Prop :=
  ∀ args, later.1 = .values args → Introduces earlier.1 earlier.2 args.variablesReference →
    ∃ records, later.2 = .values (.ok records)

theorem converse_honours (h : converse it questions st = (.ok shown, st'))
    (hg : st.1.Tallied base) (hb : st'.1.minted ≤ base + 2 ^ 32) :
    (questions.zip shown).Pairwise Honours := by
  induction questions generalizing st shown with
  | nil => exact .nil
  | cons question rest ih =>
    obtain ⟨first, st₁, hfirst, h⟩ := bind_eq_ok.1 h
    obtain ⟨others, _, hrest, h⟩ := bind_eq_ok.1 h
    cases h
    have hb₁ := Nat.le_trans (converse_grows hrest).minted_le hb
    have hg₁ := (Question.consult_grows hfirst).tallied hg hb₁
    refine .cons ?_ (ih hrest hg₁)
    rintro ⟨later, answer⟩ hmem args rfl hx
    exact converse_present hrest hg₁.toClosed (Question.consult_introduces hfirst hg hb₁ hx) hmem

end Converse

-- ---------------------------------------------------------------------------
-- Agreement
-- ---------------------------------------------------------------------------

def Listed (told : List (Question × Shown)) (id : UInt32) (filter : Option VariablesFilter)
    (start count : Option UInt32) (records : List Variable) : Prop :=
  (.values { variablesReference := id, filter := filter, start := start, count := count },
    .values (.ok records)) ∈ told

/-- The first pages of the same size, asked for at any time. -/
def Paged (told : List (Question × Shown)) (id : UInt32) (filter : Option VariablesFilter)
    (size : UInt32) (pages : List (List Variable)) : Prop :=
  ∀ (k : Nat) (cut : List Variable), pages[k]? = some cut →
    ∃ start : UInt32, start.toNat = k * size.toNat ∧
      Listed told id filter (some start) (some size) cut

/-- What was told about the children of variables fits together. -/
structure PagesAgree (told : List (Question × Shown)) : Prop where
  known : told.Pairwise Honours
  pages : ∀ id filter whole size pages, Listed told id filter none none whole → size ≠ 0 →
    Paged told id filter size pages → pages.flatten = whole.take (pages.length * size.toNat)
  /-- All pages were asked for, as can also be seen from the last one. -/
  complete : ∀ id filter whole size pages, Listed told id filter none none whole → size ≠ 0 →
    Paged told id filter size pages →
    (whole.length ≤ pages.length * size.toNat ∨
      ∃ last, pages.getLast? = some last ∧ last.length < size.toNat) →
    pages.flatten = whole
  filters : ∀ id named indexed all, Listed told id (some .named) none none named →
    Listed told id (some .indexed) none none indexed → Listed told id none none none all →
    Interleaved named indexed all
  unlimited : ∀ id filter whole start count records, Listed told id filter none none whole →
    Listed told id filter start count records → count = none ∨ count = some 0 →
    records = whole.drop (start.getD 0).toNat
  past : ∀ id filter whole start count records, Listed told id filter none none whole →
    Listed told id filter (some start) count records → whole.length ≤ start.toNat →
    records = []
  counts : ∀ id filter start count records record, Listed told id filter start count records →
    record ∈ records → record.variablesReference ≠ 0 →
    (∀ kind children, Listed told record.variablesReference (some kind) none none children →
      children.length = record.announced kind) ∧
    ∀ children, Listed told record.variablesReference none none none children →
      children.length = record.announced .named + record.announced .indexed

theorem page_limited {α : Type} (items : List α) (start : UInt32) {size : UInt32}
    (hsize : size ≠ 0) :
    page (some start) (some size) items = (items.drop start.toNat).take size.toNat := by
  simp [page, hsize]

theorem page_unlimited {α : Type} (items : List α) (start : Option UInt32) {count : Option UInt32}
    (hcount : count = none ∨ count = some 0) :
    page start count items = items.drop (start.getD 0).toNat := by
  obtain rfl | rfl := hcount <;> rfl

theorem page_past {α : Type} {items : List α} {start : UInt32} (hpast : items.length ≤ start.toNat)
    (count : Option UInt32) : page (some start) count items = [] := by
  have hdrop : items.drop start.toNat = [] := List.drop_eq_nil_of_le hpast
  unfold page
  split
  · split <;> simp [hdrop]
  · exact hdrop

section Agreement

variable {told : List (Question × Shown)} {g : StackGraph}
  (hlists : ∀ args records, (.values args, .values (.ok records)) ∈ told → g.Lists args records)

include hlists

theorem Listed.eq_page {id : UInt32} {filter : Option VariablesFilter} {start count : Option UInt32}
    {whole records : List Variable} (hwhole : Listed told id filter none none whole)
    (hrecords : Listed told id filter start count records) : records = page start count whole :=
  (hlists _ _ hrecords).eq_page (hlists _ _ hwhole)

theorem Paged.eq_take {id : UInt32} {filter : Option VariablesFilter} {whole : List Variable}
    {size : UInt32} {pages : List (List Variable)} (hpages : Paged told id filter size pages)
    (hwhole : Listed told id filter none none whole) (hsize : size ≠ 0) (k : Nat)
    (cut : List Variable) (hk : pages[k]? = some cut) :
    cut = (whole.drop (k * size.toNat)).take size.toNat := by
  obtain ⟨start, hstart, hcut⟩ := hpages k cut hk
  rw [hwhole.eq_page hlists hcut, page_limited whole start hsize, hstart]

theorem pagesAgree_of_lists {base : Nat} (hg : g.Tallied base) (hknown : told.Pairwise Honours) :
    PagesAgree told where
  known := hknown
  pages id filter whole size pages hwhole hsize hpages :=
    flatten_eq_take (hpages.eq_take hlists hwhole hsize)
  complete id filter whole size pages hwhole hsize hpages hall := by
    have hcuts := hpages.eq_take hlists hwhole hsize
    rw [flatten_eq_take hcuts]
    refine List.take_of_length_le ?_
    obtain hall | ⟨last, hlast, hshort⟩ := hall
    · exact hall
    · exact length_le_of_short hcuts hlast hshort
  filters id named indexed all hnamed hindexed hall :=
    (hlists _ _ hnamed).interleaved hg.toClosed (hlists _ _ hindexed) (hlists _ _ hall)
  unlimited id filter whole start count records hwhole hrecords hcount := by
    rw [hwhole.eq_page hlists hrecords, page_unlimited whole start hcount]
  past id filter whole start count records hwhole hrecords hpast := by
    rw [hwhole.eq_page hlists hrecords, page_past hpast]
  counts id filter start count records record hrecords hrecord hne := by
    obtain ⟨_, _, _, hsettled⟩ := hlists _ _ hrecords
    obtain ⟨c, -, e, he, hr⟩ := forall₂_exists_left hsettled hrecord
    have hannounces := hg.records c e record he hr
    rw [hannounces.reference hne]
    refine ⟨fun kind children hchildren => ?_, fun children hchildren => ?_⟩
    · obtain ⟨e', he', -, hall⟩ := hlists _ _ hchildren
      cases he.symm.trans he'
      rw [← hannounces.counts kind]
      exact hall.length_eq.symm
    · obtain ⟨e', he', -, hall⟩ := hlists _ _ hchildren
      cases he.symm.trans he'
      rw [← hannounces.total hg.toClosed he, ← hall.length_eq]
      exact congrArg List.length (g.filter_passes_none e.children)

end Agreement

/-- Whatever is asked at a stop and whatever the interpreter answers, all answers about the children
of a variable fit together, as long as the stop does not give a number out twice. -/
theorem pages_agree (it : Interpreter σ) (questions : List Question) (minted : Nat) (s : σ)
    (hb : (converse it questions ({ minted := minted }, s)).2.1.minted ≤ minted + 2 ^ 32) :
    (it.Returns s → ∃ shown, (converse it questions ({ minted := minted }, s)).1 = .ok shown) ∧
    ∀ shown, (converse it questions ({ minted := minted }, s)).1 = .ok shown →
      PagesAgree (questions.zip shown) := by
  refine ⟨fun hs => ?answers, fun shown hshown => ?agrees⟩
  case answers =>
    obtain ⟨shown, st', h⟩ :=
      converse_returns ({ minted := minted }, s) hs StackGraph.closed_new questions
    exact ⟨shown, by rw [h]⟩
  case agrees =>
    obtain ⟨st', h⟩ : ∃ st', converse it questions ({ minted := minted }, s) = (.ok shown, st') :=
      ⟨_, Prod.ext hshown rfl⟩
    rw [h] at hb
    have hnew : ({ minted := minted } : StackGraph).Tallied minted := StackGraph.tallied_new
    exact pagesAgree_of_lists (fun args records => converse_lists h hnew.toSince hb)
      ((converse_grows h).tallied hnew hb) (converse_honours h hnew hb)

/-- Every answer depends on the number of calls before it. Each table has names and indices in turn,
and its values count the calls. -/
def restless : Interpreter Nat where
  answer call n := (.ok (match call with
    | .frame level => if level = 0 then some { kind := .main, line := some (.ofNat n) } else none
    | .locals _ => some ["t"]
    | .resolve place => some (if place.keys = [] then .table else .integer n)
    | .entries _ => some ((List.range n).flatMap fun i => [.name (toString i), .index i])), n + 1)

def restlessTalk : List Question :=
  [.stackTrace {}, .scopes ⟨1⟩, .values { variablesReference := 2 },
    .values { variablesReference := 3, start := some 6, count := some 3 },
    .values { variablesReference := 3, start := some 3, count := some 3 },
    .values { variablesReference := 3 }, .stackTrace {},
    .values { variablesReference := 3, start := some 0, count := some 3 },
    .values { variablesReference := 3, filter := some .named },
    .values { variablesReference := 3, filter := some .indexed }]

deriving instance DecidableEq for Shown

instance (told : List (Question × Shown)) (id : UInt32) (filter : Option VariablesFilter)
    (start count : Option UInt32) (records : List Variable) :
    Decidable (Listed told id filter start count records) :=
  inferInstanceAs (Decidable (_ ∈ told))

def restlessShown : List Shown :=
  match (converse restless restlessTalk ({ minted := 0 }, 0)).1 with
  | .ok shown => shown
  | .error _ => []

def tick (name : String) (n : Int) : Variable := (Reading.scalar (.integer n)).record name 0

def restlessPages : List (List Variable) :=
  [[tick "0" 10, tick "0" 11, tick "1" 12], [tick "1" 7, tick "2" 8, tick "2" 9],
    [tick "3" 5, tick "3" 6]]

theorem paged_restless : Paged (restlessTalk.zip restlessShown) 3 none 3 restlessPages := by
  intro k cut hk
  match k, hk with
  | 0, hk =>
    cases hk
    exact ⟨0, rfl, by decide +kernel⟩
  | 1, hk =>
    cases hk
    exact ⟨3, rfl, by decide +kernel⟩
  | 2, hk =>
    cases hk
    exact ⟨6, rfl, by decide +kernel⟩

theorem pages_agree_restless :
    (converse restless restlessTalk ({ minted := 0 }, 0)).2.1.minted ≤ 0 + 2 ^ 32 ∧
    restless.Returns 0 ∧
    ∃ shown, (converse restless restlessTalk ({ minted := 0 }, 0)).1 = .ok shown ∧
      PagesAgree (restlessTalk.zip shown) ∧
      Paged (restlessTalk.zip shown) 3 none 3 restlessPages ∧
      Listed (restlessTalk.zip shown) 3 none none none restlessPages.flatten := by
  have hb : (converse restless restlessTalk ({ minted := 0 }, 0)).2.1.minted ≤ 0 + 2 ^ 32 := by
    decide +kernel
  have hs : restless.Returns 0 := fun _ _ => ⟨_, rfl⟩
  obtain ⟨hanswered, hagree⟩ := pages_agree restless restlessTalk 0 0 hb
  obtain ⟨shown, hshown⟩ := hanswered hs
  obtain rfl : restlessShown = shown := by rw [restlessShown, hshown]
  exact ⟨hb, hs, restlessShown, hshown, hagree restlessShown hshown, paged_restless,
    by decide +kernel⟩

end DebugAdapter
