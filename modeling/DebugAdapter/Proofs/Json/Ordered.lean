import DebugAdapter.Proofs.Json.Keys
import DebugAdapter.Proofs.Json.ReadBack

/-!
# Values in the order of the wire

Ordering the keys of a value moves entries about and drops none, as long as no object has a key
twice. The values that the reader builds are in order from the start: `tidy_of_ofBytes?`.
-/

namespace DebugAdapter.Json

-- ---------------------------------------------------------------------------
-- Sorting entries
-- ---------------------------------------------------------------------------

section

variable {α : Type}

theorem insertKey_perm {key : String} {a : α} {entries : List (String × α)}
    (h : ∀ e ∈ entries, e.1 ≠ key) : (insertKey key a entries).Perm ((key, a) :: entries) := by
  induction entries with
  | nil => exact .refl _
  | cons e entries ih =>
    rw [insertKey]
    split
    · exact .refl _
    · rw [if_neg (h e List.mem_cons_self).symm]
      exact ((ih fun e he => h e (List.mem_cons_of_mem _ he)).cons e).trans (.swap _ _ _)

theorem foldl_insertKey_perm {entries sorted : List (String × α)}
    (h : ((sorted ++ entries).map Prod.fst).Nodup) :
    (entries.foldl (fun sorted e => insertKey e.1 e.2 sorted) sorted).Perm
      (sorted ++ entries) := by
  induction entries generalizing sorted with
  | nil => simp
  | cons e entries ih =>
    have hmiddle : (sorted ++ e :: entries).Perm ((e :: sorted) ++ entries) := List.perm_middle
    have hnew : ∀ f ∈ sorted, f.1 ≠ e.1 := by
      intro f hf heq
      have := ((hmiddle.map Prod.fst).nodup_iff.1 h)
      simp only [List.cons_append, List.map_cons, List.nodup_cons, List.map_append,
        List.mem_append] at this
      exact this.1 (.inl (heq ▸ List.mem_map_of_mem hf))
    have hstep : (insertKey e.1 e.2 sorted ++ entries).Perm (sorted ++ e :: entries) :=
      ((insertKey_perm hnew).append_right entries).trans hmiddle.symm
    exact (ih ((hstep.map Prod.fst).nodup_iff.2 h)).trans hstep

theorem sortKeys_perm {entries : List (String × α)} (h : (entries.map Prod.fst).Nodup) :
    (sortKeys entries).Perm entries :=
  foldl_insertKey_perm h

theorem lookup_insertKey (key : String) (a : α) (entries : List (String × α)) :
    (insertKey key a entries).lookup key = some a := by
  induction entries with
  | nil => simp [insertKey]
  | cons e entries ih => grind [insertKey]

theorem filter_insertKey (key : String) (a : α) (entries : List (String × α)) :
    (insertKey key a entries).filter (·.1 != key) = entries.filter (·.1 != key) := by
  induction entries with
  | nil => simp [insertKey]
  | cons e entries ih => grind [insertKey]

end

theorem sortKeys_of_ascending {entries : List (String × Json)} (h : Ascending entries) :
    sortKeys entries = entries := by
  suffices hfold : ∀ sorted, Ascending (sorted ++ entries) →
      entries.foldl (fun sorted e => insertKey e.1 e.2 sorted) sorted = sorted ++ entries from
    hfold [] h
  clear h
  induction entries with
  | nil => simp
  | cons e entries ih =>
    intro sorted h
    rw [List.foldl_cons, insertKey_eq_append h.above, ih _ (by simpa using h)]
    simp

theorem sortKeys_cons_of_ascending {key : String} {j : Json} {entries : List (String × Json)}
    (hkey : ∀ e ∈ entries, e.1 ≠ key) (h : Ascending entries) :
    sortKeys ((key, j) :: entries) = insertKey key j entries := by
  have hsorted : sortKeys entries = entries := sortKeys_of_ascending h
  rw [sortKeys] at hsorted
  rw [sortKeys, List.foldl_cons, foldl_insertKey j hkey, hsorted]

-- ---------------------------------------------------------------------------
-- Values
-- ---------------------------------------------------------------------------

theorem orderedItems_eq (items : List Json) : orderedItems items = items.map ordered := by
  induction items with
  | nil => rfl
  | cons j items ih => rw [orderedItems, ih, List.map_cons]

theorem orderedEntries_eq (entries : List (String × Json)) :
    orderedEntries entries = entries.map fun e => (e.1, e.2.ordered) := by
  induction entries with
  | nil => rfl
  | cons e entries ih => rw [orderedEntries, ih, List.map_cons]

instance (entries : List (String × Json)) : Decidable (Ascending entries) :=
  inferInstanceAs (Decidable (entries.Pairwise (·.1 < ·.1)))

/-- Every object inside has its keys in ascending order, each of them once. -/
inductive Tidy : Json → Prop
  | null : Tidy .null
  | bool (b : Bool) : Tidy (.bool b)
  | int (n : Int) : Tidy (.int n)
  | float (x : Binary64) : Tidy (.float x)
  | str (s : String) : Tidy (.str s)
  | arr {items : List Json} : (∀ j ∈ items, Tidy j) → Tidy (.arr items)
  | obj {entries : List (String × Json)} :
      Ascending entries → (∀ e ∈ entries, Tidy e.2) → Tidy (.obj entries)

attribute [simp] Tidy.null Tidy.bool Tidy.int Tidy.float Tidy.str

@[simp] theorem tidy_arr {items : List Json} : Tidy (.arr items) ↔ ∀ j ∈ items, Tidy j where
  mp h := by
    cases h with
    | arr h => exact h
  mpr := .arr

@[simp] theorem tidy_obj {entries : List (String × Json)} :
    Tidy (.obj entries) ↔ Ascending entries ∧ ∀ e ∈ entries, Tidy e.2 where
  mp h := by
    cases h with
    | obj ascending tidy => exact ⟨ascending, tidy⟩
  mpr h := .obj h.1 h.2

theorem orderedEntries_eq_self {entries : List (String × Json)}
    (h : ∀ e ∈ entries, e.2.ordered = e.2) : orderedEntries entries = entries := by
  rw [orderedEntries_eq]
  exact (List.map_congr_left fun e he => congrArg (e.1, ·) (h e he)).trans (List.map_id _)

theorem Tidy.ordered_eq {j : Json} (h : j.Tidy) : j.ordered = j := by
  induction h with
  | null | bool | int | float | str => rfl
  | arr _ ih => rw [ordered, orderedItems_eq, List.map_congr_left ih, List.map_id']
  | obj ascending _ ih =>
    rw [ordered, orderedEntries_eq_self ih, sortKeys_of_ascending ascending]

theorem Tidy.ordered_cons {key : String} {j : Json} {entries : List (String × Json)}
    (h : Tidy (.obj entries)) (hj : j.ordered = j) (hkey : ∀ e ∈ entries, e.1 ≠ key) :
    (Json.obj ((key, j) :: entries)).ordered = .obj (insertKey key j entries) := by
  obtain ⟨ascending, tidy⟩ := tidy_obj.1 h
  have hentries := orderedEntries_eq_self fun e he => (tidy e he).ordered_eq
  rw [ordered, orderedEntries, hj, hentries, sortKeys_cons_of_ascending hkey ascending]

-- ---------------------------------------------------------------------------
-- What the reader builds
-- ---------------------------------------------------------------------------

theorem mem_insertKey {key : String} {j : Json} {entries : List (String × Json)}
    {e : String × Json} (h : e ∈ insertKey key j entries) : e = (key, j) ∨ e ∈ entries := by
  induction entries with
  | nil => exact .inl (List.mem_singleton.1 h)
  | cons f entries ih => grind [insertKey]

theorem Ascending.insertKey {entries : List (String × Json)} (h : Ascending entries) (key : String)
    (j : Json) : Ascending (insertKey key j entries) := by
  induction entries with
  | nil => exact List.pairwise_singleton _ _
  | cons f entries ih =>
    obtain ⟨hf, hentries⟩ := List.pairwise_cons.1 h
    rw [Json.insertKey]
    split
    case isTrue hlt =>
      refine List.pairwise_cons.2 ⟨List.forall_mem_cons.2 ⟨hlt, fun e he => ?_⟩, h⟩
      exact String.lt_trans hlt (hf e he)
    case isFalse hle =>
      split
      case isTrue heq =>
        subst heq
        exact List.pairwise_cons.2 ⟨hf, hentries⟩
      case isFalse hne =>
        refine List.pairwise_cons.2 ⟨fun e he => ?_, ih hentries⟩
        obtain rfl | he := mem_insertKey he
        · exact Std.lt_of_le_of_ne (String.not_lt.1 hle) (Ne.symm hne)
        · exact hf e he

theorem Tidy.insertKey {entries : List (String × Json)} {j : Json} (h : Tidy (.obj entries))
    (hj : j.Tidy) (key : String) : Tidy (.obj (insertKey key j entries)) := by
  obtain ⟨ascending, tidy⟩ := tidy_obj.1 h
  refine .obj (ascending.insertKey key j) fun e he => ?_
  obtain rfl | he := mem_insertKey he
  · exact hj
  · exact tidy e he

theorem tidy_of_floatOf {negative : Bool} {significand : Nat} {exponent : Int} {j : Json}
    (h : floatOf negative significand exponent = some j) : j.Tidy := by
  obtain ⟨x, -, rfl⟩ := Option.map_eq_some_iff.1 h
  exact .float _

theorem tidy_of_ofNumeral? {text : List Char} {j : Json} (h : ofNumeral? text = some j) :
    j.Tidy := by
  obtain ⟨t, -, h⟩ := Option.bind_eq_some_iff.1 h
  simp only [Numeral.value?] at h
  repeat' split at h
  all_goals first | exact tidy_of_floatOf h | cases h
  all_goals exact .int _

theorem tidy_of_token? {cs rest : List Char} {j : Json}
    (h : token? cs = some (.scalar j, rest)) : j.Tidy := by
  unfold token? at h
  repeat' split at h
  all_goals cases h
  case h_9.refl | h_10.refl | h_11.refl => simp
  case h_2.refl => exact tidy_of_ofNumeral? ‹_›

def Token.Tidy : Token → Prop
  | .scalar j => j.Tidy
  | _ => True

theorem tidy_of_tokens? {cs : List Char} {ts : List Token} (h : tokens? cs = some ts) :
    ∀ t ∈ ts, t.Tidy := by
  fun_induction tokens? cs generalizing ts with
  | case1 cs start =>
    cases h
    exact List.forall_mem_nil _
  | case2 cs c r start first => cases h
  | case3 cs c r start t rest first ih =>
    obtain ⟨ts, hts, rfl⟩ := Option.map_eq_some_iff.1 h
    refine List.forall_mem_cons.2 ⟨?_, ih hts⟩
    cases t with
    | scalar j => exact tidy_of_token? first
    | _ => trivial

def Open.Tidy : Open → Prop
  | .array items => ∀ j ∈ items, j.Tidy
  | .object entries _ => (Json.obj entries).Tidy

def Expect.Tidy : Expect → Prop
  | .keyOrClose entries | .key entries | .colon entries _ => (Json.obj entries).Tidy
  | .done j => j.Tidy
  | .value | .valueOrClose | .commaOrClose => True

structure Reader.Tidy (r : Reader) : Prop where
  expect : r.expect.Tidy
  stack : ∀ o ∈ r.stack, o.Tidy

namespace Reader

variable {depth : Nat} {r after : Reader} {stack : List Open} {j : Json} {t : Token}

theorem tidy_deliver (hj : j.Tidy) (hstack : ∀ o ∈ stack, o.Tidy) : (deliver j stack).Tidy := by
  cases stack with
  | nil => exact ⟨hj, hstack⟩
  | cons o rest =>
    obtain ⟨ho, hrest⟩ := List.forall_mem_cons.1 hstack
    cases o with
    | array items =>
      exact ⟨trivial, List.forall_mem_cons.2 ⟨List.forall_mem_cons.2 ⟨hj, ho⟩, hrest⟩⟩
    | object entries key =>
      exact ⟨trivial, List.forall_mem_cons.2 ⟨Json.Tidy.insertKey ho hj key, hrest⟩⟩

theorem tidy_startValue (hstack : ∀ o ∈ stack, o.Tidy) (ht : t.Tidy)
    (h : startValue depth stack t = some after) : after.Tidy := by
  unfold startValue at h
  repeat' split at h
  all_goals cases h
  case h_1.refl => exact tidy_deliver (.str _) hstack
  case h_2.refl => exact tidy_deliver ht hstack
  case h_3.isTrue.refl =>
    exact ⟨trivial, List.forall_mem_cons.2 ⟨List.forall_mem_nil _, hstack⟩⟩
  case h_4.isTrue.refl => exact ⟨.obj .nil (List.forall_mem_nil _), hstack⟩

theorem tidy_arr_reverse {items : List Json} (h : (Open.array items).Tidy) :
    (arr items.reverse).Tidy :=
  .arr fun j hj => h j (List.mem_reverse.1 hj)

theorem Tidy.step (hr : r.Tidy) (ht : t.Tidy) (h : r.step depth t = some after) : after.Tidy := by
  obtain ⟨expect, stack⟩ := r
  have hexpect : expect.Tidy := hr.expect
  have hstack : ∀ o ∈ stack, o.Tidy := hr.stack
  simp only [Reader.step] at h
  split at h
  case h_1 | h_3 => exact tidy_startValue hstack ht h
  all_goals cases h
  case h_4 => exact tidy_deliver hexpect hstack
  case h_5 | h_6 => exact ⟨hexpect, hstack⟩
  case h_7 => exact ⟨trivial, List.forall_mem_cons.2 ⟨hexpect, hstack⟩⟩
  case h_8 => exact ⟨trivial, hstack⟩
  all_goals obtain ⟨ho, hrest⟩ := List.forall_mem_cons.1 hstack
  case h_2 | h_9 => exact tidy_deliver (tidy_arr_reverse ho) hrest
  case h_10 => exact ⟨ho, hrest⟩
  case h_11 => exact tidy_deliver ho hrest

theorem Tidy.run {ts : List Token} (hr : r.Tidy) (hts : ∀ t ∈ ts, t.Tidy)
    (h : run depth r ts = some j) : j.Tidy := by
  induction ts generalizing r with
  | nil =>
    unfold Reader.run at h
    split at h
    · cases h
      exact hr.expect
    · cases h
    · contradiction
  | cons t ts ih =>
    obtain ⟨ht, hts⟩ := List.forall_mem_cons.1 hts
    rw [Reader.run] at h
    obtain ⟨after, hstep, hrest⟩ := Option.bind_eq_some_iff.1 h
    exact ih (hr.step ht hstep) hts hrest

end Reader

/-- The values that the reader builds are in order. -/
theorem tidy_of_read? {depth : Nat} {text : String} {j : Json} (h : read? depth text = some j) :
    j.Tidy := by
  obtain ⟨ts, hts, hrun⟩ := Option.bind_eq_some_iff.1 h
  have hstart : Reader.Tidy ⟨.value, []⟩ := ⟨trivial, List.forall_mem_nil _⟩
  exact hstart.run (tidy_of_tokens? hts) hrun

theorem tidy_of_ofBytes? {body : Bytes} {j : Json} (h : ofBytes? body = some j) : j.Tidy := by
  obtain ⟨text, -, hread⟩ := Option.bind_eq_some_iff.1 h
  exact tidy_of_read? hread

end DebugAdapter.Json
