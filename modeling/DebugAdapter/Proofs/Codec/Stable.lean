import DebugAdapter.Codec.Record
import DebugAdapter.Proofs.Json.Ordered

/-!
# Codecs that are stable

A value may be read from many forms, but it is written in one. A codec is stable if a value that was
read, from whichever form, is read again from the one that is written for it. Each way to build a
codec keeps this; a record is stable if its fields are and no field takes the name of another.

What is written may be read as it stands, or after its keys were put in the order of the wire. The
second changes a payload that is any JSON, unless its keys were in that order when it came.
-/

namespace DebugAdapter

theorem except_bind_eq_ok {ε α β : Type} {x : Except ε α} {f : α → Except ε β} {b : β} :
    x.bind f = .ok b ↔ ∃ a, x = .ok a ∧ f a = .ok b := by
  cases x with
  | error e => simp [Except.bind]
  | ok a => simp [Except.bind]

-- ---------------------------------------------------------------------------
-- Layouts
-- ---------------------------------------------------------------------------

/-- The order of the keys in what is written. -/
inductive Layout where
  | declared
  | ordered

namespace Layout

def lay : Layout → Json → Json
  | .declared, j => j
  | .ordered, j => j.ordered

def Native : Layout → Json → Prop
  | .declared, _ => True
  | .ordered, j => j.Tidy

variable (w : Layout)

@[simp] theorem lay_bool (b : Bool) : w.lay (.bool b) = .bool b := by cases w <;> rfl

@[simp] theorem lay_int (n : Int) : w.lay (.int n) = .int n := by cases w <;> rfl

@[simp] theorem lay_str (s : String) : w.lay (.str s) = .str s := by cases w <;> rfl

@[simp] theorem lay_arr (items : List Json) : w.lay (.arr items) = .arr (items.map w.lay) := by
  cases w with
  | declared => exact congrArg Json.arr (List.map_id items).symm
  | ordered => exact congrArg Json.arr (Json.orderedItems_eq items)

theorem lay_obj {entries : List (String × Json)} (h : (entries.map Prod.fst).Nodup) :
    ∃ laid, w.lay (.obj entries) = .obj laid ∧
      laid.Perm (entries.map fun e => (e.1, w.lay e.2)) := by
  cases w with
  | declared => exact ⟨entries, rfl, .of_eq (List.map_id entries).symm⟩
  | ordered =>
    rw [show entries.map (fun e => (e.1, lay .ordered e.2)) = Json.orderedEntries entries from
      (Json.orderedEntries_eq entries).symm]
    refine ⟨_, rfl, Json.sortKeys_perm ?_⟩
    rw [Json.orderedEntries_eq, List.map_map]
    exact h

variable {w}

theorem lay_eq_null {j : Json} (h : w.lay j = .null) : j = .null := by
  cases w with
  | declared => exact h
  | ordered =>
    cases j with
    | null => rfl
    | bool | int | float | str | arr | obj => cases h

theorem Native.lay_eq {j : Json} (h : w.Native j) : w.lay j = j := by
  cases w with
  | declared => rfl
  | ordered => exact Json.Tidy.ordered_eq h

theorem Native.item {items : List Json} (h : w.Native (.arr items)) :
    ∀ j ∈ items, w.Native j := by
  intro j hj
  cases w with
  | declared => trivial
  | ordered => exact Json.tidy_arr.1 h j hj

theorem Native.entry {entries : List (String × Json)} (h : w.Native (.obj entries)) :
    ∀ e ∈ entries, w.Native e.2 := by
  intro e he
  cases w with
  | declared => trivial
  | ordered => exact (Json.tidy_obj.1 h).2 e he

theorem Native.filter {entries : List (String × Json)} (h : w.Native (.obj entries))
    (p : String × Json → Bool) : w.Native (.obj (entries.filter p)) := by
  cases w with
  | declared => trivial
  | ordered =>
    obtain ⟨ascending, tidy⟩ := Json.tidy_obj.1 h
    exact .obj (List.Pairwise.filter p ascending) fun e he => tidy e (List.mem_filter.1 he).1

theorem Native.lay_cons {key : String} {j : Json} {entries : List (String × Json)}
    (h : w.Native (.obj entries)) (hj : w.lay j = j) (hkey : ∀ e ∈ entries, e.1 ≠ key) :
    ∃ laid, w.lay (.obj ((key, j) :: entries)) = .obj laid ∧ laid.lookup key = some j ∧
      laid.filter (·.1 != key) = entries := by
  have hkept : entries.filter (·.1 != key) = entries :=
    List.filter_eq_self.2 fun e he => by simpa using hkey e he
  cases w with
  | declared => exact ⟨_, rfl, by simp, by simp [hkept]⟩
  | ordered =>
    refine ⟨_, Json.Tidy.ordered_cons h hj hkey, Json.lookup_insertKey key j entries, ?_⟩
    rw [Json.filter_insertKey, hkept]

end Layout

-- ---------------------------------------------------------------------------
-- Stable codecs
-- ---------------------------------------------------------------------------

variable {w : Layout} {α : Type}

structure Codec.Stable (w : Layout) (c : Codec α) : Prop where
  again : ∀ j a, w.Native j → c.decode j = .ok a → c.decode (w.lay (c.encode a)) = .ok a
  /-- Only null is written as null. -/
  null : ∀ j a, c.decode j = .ok a → c.encode a = .null → j = .null

namespace Codec

@[simp] theorem stable_text : text.Stable w where
  again _ a _ _ := by
    rw [text, Layout.lay_str]
  null _ _ _ h := by cases h

@[simp] theorem stable_bool : bool.Stable w where
  again _ a _ _ := by
    rw [bool, Layout.lay_bool]
  null _ _ _ h := by cases h

@[simp] theorem decode_lay_word (n : UInt32) : word.decode (w.lay (word.encode n)) = .ok n := by
  have hlay : w.lay (word.encode n) = word.encode n := Layout.lay_int w n.toNat
  rw [hlay, word_decode_encode]

@[simp] theorem stable_word : word.Stable w where
  again _ n _ _ := decode_lay_word n
  null _ _ _ h := by cases h

@[simp] theorem stable_any : any.Stable w where
  again j a hj h := by
    cases h
    exact congrArg any.decode hj.lay_eq
  null j a h hnull := by
    cases h
    exact hnull

theorem decodeItems_encode {c : Codec α} (hc : c.Stable w) {items : List Json} {as : List α}
    (hitems : ∀ j ∈ items, w.Native j) (h : decodeItems c items = .ok as) :
    decodeItems c ((as.map c.encode).map w.lay) = .ok as := by
  induction items generalizing as with
  | nil =>
    cases h
    rfl
  | cons j items ih =>
    obtain ⟨a, hj, h⟩ := except_bind_eq_ok.1 h
    obtain ⟨rest, hrest, h⟩ := except_bind_eq_ok.1 h
    cases h
    refine except_bind_eq_ok.2 ⟨a, hc.again j a (hitems j List.mem_cons_self) hj, ?_⟩
    have := ih (fun j hj => hitems j (List.mem_cons_of_mem _ hj)) hrest
    exact except_bind_eq_ok.2 ⟨rest, this, rfl⟩

@[simp] theorem stable_list {c : Codec α} (hc : c.Stable w) : c.list.Stable w where
  again j as hj h := by
    cases j with
    | arr items =>
      rw [list, Layout.lay_arr]
      exact decodeItems_encode hc hj.item h
    | null | bool | int | float | str | obj => cases h
  null _ _ _ h := by cases h

theorem stable_enumeration {cases : List (String × α)} {name : α → String}
    (h : ∀ a, cases.lookup (name a) = some a) : (enumeration cases name).Stable w where
  again _ a _ _ := by simp [enumeration, named?, h]
  null _ _ _ h := by cases h

end Codec

-- ---------------------------------------------------------------------------
-- Stable fields
-- ---------------------------------------------------------------------------

namespace Field

section

variable (name other key : String) (c : Codec α)

@[simp] theorem name_required : (required name c).name = name := rfl

@[simp] theorem name_aliased : (aliased name other c).name = name := rfl

@[simp] theorem name_optional : (optional name c).name = name := rfl

@[simp] theorem name_defaulted (value : α) : (defaulted name c value).name = name := rfl

@[simp] theorem name_nonempty : (nonempty name c).name = name := rfl

@[simp] theorem answersTo_required : (required name c).answersTo key = (name == key) :=
  Bool.or_false _

@[simp] theorem answersTo_aliased :
    (aliased name other c).answersTo key = (name == key || some other == some key) := rfl

@[simp] theorem answersTo_optional : (optional name c).answersTo key = (name == key) :=
  Bool.or_false _

@[simp] theorem answersTo_defaulted (value : α) :
    (defaulted name c value).answersTo key = (name == key) := Bool.or_false _

@[simp] theorem answersTo_nonempty : (nonempty name c).answersTo key = (name == key) :=
  Bool.or_false _

end

/-- The values of a field in records that were read. -/
inductive Reads (w : Layout) (f : Field α) : α → Prop
  | value {j : Json} {a : α} : w.Native j → f.decode j = .ok a → Reads w f a
  | absent {a : α} : f.absent = some a → Reads w f a
  | short {a : α} : f.short = some a → Reads w f a

/-- A value is read again from what is written for it, or from nothing where nothing is. -/
structure Stable (w : Layout) (f : Field α) : Prop where
  written : ∀ a j, f.Reads w a → f.encode a = some j → f.decode (w.lay j) = .ok a
  omitted : ∀ a, f.Reads w a → f.encode a = none → f.absent = some a

variable {name : String} {c : Codec α}

@[simp] theorem stable_required (hc : c.Stable w) : (required name c).Stable w where
  written a j hread hencode := by
    cases hencode
    cases hread with
    | value hj h => exact hc.again _ a hj h
    | absent h | short h => cases h
  omitted _ _ h := by cases h

@[simp] theorem stable_aliased {other : String} (hc : c.Stable w) :
    (aliased name other c).Stable w where
  written a j hread hencode := by
    cases hencode
    cases hread with
    | value hj h => exact hc.again _ a hj h
    | absent h | short h => cases h
  omitted _ _ h := by cases h

theorem decode_optional {j : Json} (h : j ≠ .null) :
    (optional name c).decode j = (c.decode j).map some := by
  cases j with
  | null => exact absurd rfl h
  | bool | int | float | str | arr | obj => rfl

@[simp] theorem stable_optional (hc : c.Stable w) : (optional name c).Stable w where
  written a j hread hencode := by
    cases a with
    | none => cases hencode
    | some a =>
      cases hencode
      cases hread with
      | absent h | short h => cases h
      | @value j _ hj h =>
        have hj' : j ≠ .null := by
          rintro rfl
          cases h
        rw [decode_optional hj'] at h
        obtain ⟨_, h, heq⟩ := map_eq_ok.1 h
        cases heq
        rw [decode_optional fun hnull => hj' (hc.null j a h (Layout.lay_eq_null hnull)),
          hc.again j a hj h]
        rfl
  omitted a _ hencode := by
    cases a with
    | none => rfl
    | some => cases hencode

@[simp] theorem stable_defaulted {value : α} (hc : c.Stable w)
    (hvalue : c.decode (w.lay (c.encode value)) = .ok value) :
    (defaulted name c value).Stable w where
  written a j hread hencode := by
    cases hencode
    cases hread with
    | value hj h => exact hc.again _ a hj h
    | absent h | short h =>
      cases h
      exact hvalue
  omitted _ _ h := by cases h

@[simp] theorem stable_nonempty (hc : c.Stable w) : (nonempty name c).Stable w where
  written as j hread hencode := by
    rw [nonempty] at hencode
    cases as with
    | nil => cases hencode
    | cons a as =>
      cases hencode
      cases hread with
      | value hj h => exact (Codec.stable_list hc).again _ _ hj h
      | absent h | short h => cases h
  omitted as _ hencode := by
    cases as with
    | nil => rfl
    | cons => cases hencode

end Field

-- ---------------------------------------------------------------------------
-- Stable records
-- ---------------------------------------------------------------------------

namespace Fields

@[simp]
def Stable (w : Layout) : {αs : List Type} → Fields αs → Prop
  | _, .nil => True
  | _, .cons f rest => f.Stable w ∧ rest.Stable w

@[simp]
def names : {αs : List Type} → Fields αs → List String
  | _, .nil => []
  | _, .cons f rest => f.name :: rest.names

@[simp]
def Distinct : {αs : List Type} → Fields αs → Prop
  | _, .nil => True
  | _, .cons f rest => (∀ name ∈ rest.names, f.answersTo name = false) ∧ rest.Distinct

def Reads (w : Layout) : {αs : List Type} → Fields αs → Row αs → Prop
  | _, .nil, () => True
  | _, .cons f rest, (a, row) => f.Reads w a ∧ rest.Reads w row

def Filled (w : Layout) : {αs : List Type} → Fields αs → Slots αs → Prop
  | _, .nil, () => True
  | _, .cons f rest, (slot, slots) => (∀ a ∈ slot, f.Reads w a) ∧ rest.Filled w slots

variable {αs : List Type} {fields : Fields αs}

-- Reading gives a row of values that were read, from an object or from an array.

theorem filled_vacant (fields : Fields αs) : fields.Filled w fields.vacant := by
  induction fields with
  | nil => trivial
  | cons f rest ih => exact ⟨fun a ha => (by cases ha), ih⟩

theorem put_cons_eq_ok {f : Field α} {rest : Fields αs} {key : String} {j : Json}
    {slot : Option α} {slots : Slots αs} {out : Slots (α :: αs)} :
    (cons f rest).put key j (slot, slots) = .ok out ↔
      (f.answersTo key = true ∧ slot = none ∧ ∃ a, f.decode j = .ok a ∧ (some a, slots) = out) ∨
      (f.answersTo key = false ∧
        ∃ slots', rest.put key j slots = .ok slots' ∧ (slot, slots') = out) := by
  cases hkey : f.answersTo key with
  | true =>
    cases slot with
    | none => simp [put, hkey, map_eq_ok]
    | some => simp [put, hkey]
  | false => simp [put, hkey, map_eq_ok]

theorem filled_put {key : String} {j : Json} {slots slots' : Slots αs} (hj : w.Native j)
    (hfilled : fields.Filled w slots) (h : fields.put key j slots = .ok slots') :
    fields.Filled w slots' := by
  induction fields with
  | nil => trivial
  | cons f rest ih =>
    obtain ⟨-, -, a, hdecode, rfl⟩ | ⟨-, slots', hput, rfl⟩ := put_cons_eq_ok.1 h
    · refine ⟨fun b hb => ?_, hfilled.2⟩
      cases hb
      exact .value hj hdecode
    · exact ⟨hfilled.1, ih hfilled.2 hput⟩

theorem filled_putAll {entries : List (String × Json)} {slots slots' : Slots αs}
    (hentries : ∀ e ∈ entries, w.Native e.2) (hfilled : fields.Filled w slots)
    (h : fields.putAll entries slots = .ok slots') : fields.Filled w slots' := by
  induction entries generalizing slots with
  | nil =>
    cases h
    exact hfilled
  | cons e entries ih =>
    obtain ⟨next, hput, h⟩ := except_bind_eq_ok.1 h
    exact ih (fun e he => hentries e (List.mem_cons_of_mem _ he))
      (filled_put (hentries e List.mem_cons_self) hfilled hput) h

theorem reads_of_complete {slots : Slots αs} {row : Row αs} (hfilled : fields.Filled w slots)
    (h : fields.complete slots = .ok row) : fields.Reads w row := by
  induction fields with
  | nil => trivial
  | cons f rest ih =>
    obtain ⟨slot, slots⟩ := slots
    rw [complete] at h
    split at h
    · cases h
    · rename_i a hslot
      obtain ⟨row, hcomplete, h⟩ := map_eq_ok.1 h
      cases h
      refine ⟨?_, ih hfilled.2 hcomplete⟩
      obtain hslot | ⟨-, habsent⟩ := Option.or_eq_some_iff.1 hslot
      · exact hfilled.1 a hslot
      · exact .absent habsent

theorem reads_of_takeItems {wanted : String} {before : Nat} {items left : List Json}
    {row : Row αs} (hitems : ∀ j ∈ items, w.Native j)
    (h : fields.takeItems wanted before items = .ok (row, left)) : fields.Reads w row := by
  induction fields generalizing before items left with
  | nil => trivial
  | cons f rest ih =>
    cases items with
    | nil =>
      rw [takeItems] at h
      split at h
      · cases h
      · rename_i a hshort
        obtain ⟨⟨row, left⟩, htake, h⟩ := map_eq_ok.1 h
        cases h
        exact ⟨.short hshort, ih hitems htake⟩
    | cons j items =>
      obtain ⟨a, hdecode, h⟩ := except_bind_eq_ok.1 h
      obtain ⟨⟨row, left⟩, htake, h⟩ := map_eq_ok.1 h
      cases h
      exact ⟨.value (hitems j List.mem_cons_self) hdecode,
        ih (fun j hj => hitems j (List.mem_cons_of_mem _ hj)) htake⟩

-- The order of the entries makes no difference to what is read.

theorem put_comm {k l : String} {i j : Json} {slots next slots' : Slots αs}
    (hfirst : fields.put k i slots = .ok next) (hsecond : fields.put l j next = .ok slots') :
    ∃ next, fields.put l j slots = .ok next ∧ fields.put k i next = .ok slots' := by
  induction fields with
  | nil => exact ⟨(), rfl, rfl⟩
  | cons f rest ih =>
    obtain ⟨slot, slots⟩ := slots
    obtain ⟨hk, rfl, a, ha, rfl⟩ | ⟨hk, mid, hput, rfl⟩ := put_cons_eq_ok.1 hfirst
    · obtain ⟨-, h, -⟩ | ⟨hl, out, hput, rfl⟩ := put_cons_eq_ok.1 hsecond
      · cases h
      · exact ⟨(none, out), put_cons_eq_ok.2 (.inr ⟨hl, out, hput, rfl⟩),
          put_cons_eq_ok.2 (.inl ⟨hk, rfl, a, ha, rfl⟩)⟩
    · obtain ⟨hl, hslot, b, hb, rfl⟩ | ⟨hl, out, hput', rfl⟩ := put_cons_eq_ok.1 hsecond
      · exact ⟨(some b, slots), put_cons_eq_ok.2 (.inl ⟨hl, hslot, b, hb, rfl⟩),
          put_cons_eq_ok.2 (.inr ⟨hk, mid, hput, rfl⟩)⟩
      · obtain ⟨next, h, h'⟩ := ih hput hput'
        exact ⟨(slot, next), put_cons_eq_ok.2 (.inr ⟨hl, next, h, rfl⟩),
          put_cons_eq_ok.2 (.inr ⟨hk, out, h', rfl⟩)⟩

theorem putAll_perm {entries entries' : List (String × Json)} {slots slots' : Slots αs}
    (hperm : entries.Perm entries') (h : fields.putAll entries slots = .ok slots') :
    fields.putAll entries' slots = .ok slots' := by
  induction hperm generalizing slots with
  | nil => exact h
  | cons e _ ih =>
    obtain ⟨next, hput, h⟩ := except_bind_eq_ok.1 h
    exact except_bind_eq_ok.2 ⟨next, hput, ih h⟩
  | swap e e' entries =>
    obtain ⟨first, hfirst, h⟩ := except_bind_eq_ok.1 h
    obtain ⟨second, hsecond, h⟩ := except_bind_eq_ok.1 h
    obtain ⟨first', hfirst', hsecond'⟩ := put_comm hfirst hsecond
    exact except_bind_eq_ok.2 ⟨first', hfirst', except_bind_eq_ok.2 ⟨second, hsecond', h⟩⟩
  | trans _ _ ih ih' => exact ih' (ih h)

-- What is written for a row fills the slots of the fields that are not left out.

def written : {αs : List Type} → Fields αs → Row αs → Slots αs
  | _, .nil, () => ()
  | _, .cons f rest, (a, row) => ((f.encode a).map fun _ => a, rest.written row)

theorem key_mem_names {row : Row αs} {e : String × Json} (h : e ∈ fields.entries row) :
    e.1 ∈ fields.names := by
  induction fields with
  | nil => cases h
  | cons f rest ih =>
    rw [entries] at h
    split at h
    · exact List.mem_cons_of_mem _ (ih h)
    · obtain rfl | h := List.mem_cons.1 h
      · exact List.mem_cons_self
      · exact List.mem_cons_of_mem _ (ih h)

theorem Distinct.nodup_keys (h : fields.Distinct) (row : Row αs) :
    ((fields.entries row).map Prod.fst).Nodup := by
  induction fields with
  | nil => exact List.nodup_nil
  | cons f rest ih =>
    rw [entries]
    split
    · exact ih h.2 row.2
    · refine List.nodup_cons.2 ⟨fun hmem => ?_, ih h.2 row.2⟩
      obtain ⟨e, he, heq⟩ := List.mem_map.1 hmem
      have := h.1 e.1 (key_mem_names he)
      simp [Field.answersTo, heq] at this

theorem putAll_rest {f : Field α} {rest : Fields αs} {entries : List (String × Json)}
    {slot : Option α} {slots slots' : Slots αs}
    (hkeys : ∀ e ∈ entries, f.answersTo e.1 = false) (h : rest.putAll entries slots = .ok slots') :
    (cons f rest).putAll entries (slot, slots) = .ok (slot, slots') := by
  induction entries generalizing slots with
  | nil =>
    cases h
    rfl
  | cons e entries ih =>
    obtain ⟨next, hput, h⟩ := except_bind_eq_ok.1 h
    refine except_bind_eq_ok.2 ⟨(slot, next), put_cons_eq_ok.2 (.inr ?_), ?_⟩
    · exact ⟨hkeys e List.mem_cons_self, next, hput, rfl⟩
    · exact ih (fun e he => hkeys e (List.mem_cons_of_mem _ he)) h

theorem putAll_entries {row : Row αs} (hstable : fields.Stable w) (hdistinct : fields.Distinct)
    (hreads : fields.Reads w row) :
    fields.putAll ((fields.entries row).map fun e => (e.1, w.lay e.2)) fields.vacant =
      .ok (fields.written row) := by
  induction fields with
  | nil => rfl
  | cons f rest ih =>
    obtain ⟨a, row⟩ := row
    have hkeys : ∀ e ∈ (rest.entries row).map fun e => (e.1, w.lay e.2),
        f.answersTo e.1 = false := by
      intro e he
      obtain ⟨e', he', rfl⟩ := List.mem_map.1 he
      exact hdistinct.1 e'.1 (key_mem_names he')
    have hrest := ih hstable.2 hdistinct.2 hreads.2
    rw [entries, written, vacant]
    cases hencode : f.encode a with
    | none => exact putAll_rest hkeys hrest
    | some j =>
      have hname : f.answersTo f.name = true := by simp [Field.answersTo]
      refine except_bind_eq_ok.2 ⟨(some a, rest.vacant), put_cons_eq_ok.2 (.inl ?_), ?_⟩
      · exact ⟨hname, rfl, a, hstable.1.written a j hreads.1 hencode, rfl⟩
      · exact putAll_rest hkeys hrest

theorem complete_written {row : Row αs} (hstable : fields.Stable w) (hreads : fields.Reads w row) :
    fields.complete (fields.written row) = .ok row := by
  induction fields with
  | nil => rfl
  | cons f rest ih =>
    obtain ⟨a, row⟩ := row
    have hslot : ((f.encode a).map fun _ => a).or f.absent = some a := by
      cases hencode : f.encode a with
      | none => exact hstable.1.omitted a hreads.1 hencode
      | some => rfl
    rw [written, complete, hslot]
    exact map_eq_ok.2 ⟨row, ih hstable.2 hreads.2, rfl⟩

end Fields

namespace Codec

variable {αs : List Type} {name : String} {fields : Fields αs} {ofRow : Row αs → α}
  {toRow : α → Row αs}

theorem decode_encode_of_reads (hstable : fields.Stable w) (hdistinct : fields.Distinct)
    (hrow : ∀ row, toRow (ofRow row) = row) {row : Row αs} (hreads : fields.Reads w row) :
    (record name fields ofRow toRow).decode
        (w.lay ((record name fields ofRow toRow).encode (ofRow row))) = .ok (ofRow row) := by
  simp only [record, hrow]
  obtain ⟨laid, hlaid, hperm⟩ := w.lay_obj (hdistinct.nodup_keys row)
  rw [hlaid]
  have hput := Fields.putAll_perm hperm.symm (Fields.putAll_entries hstable hdistinct hreads)
  have hcomplete := Fields.complete_written hstable hreads
  exact map_eq_ok.2 ⟨row, except_bind_eq_ok.2 ⟨_, hput, hcomplete⟩, rfl⟩

theorem stable_record (hstable : fields.Stable w) (hdistinct : fields.Distinct)
    (hrow : ∀ row, toRow (ofRow row) = row) : (record name fields ofRow toRow).Stable w where
  again j a hj h := by
    cases j with
    | obj entries =>
      obtain ⟨row, hread, rfl⟩ := map_eq_ok.1 h
      obtain ⟨slots, hput, hcomplete⟩ := except_bind_eq_ok.1 hread
      have hfilled := Fields.filled_putAll hj.entry (Fields.filled_vacant fields) hput
      exact decode_encode_of_reads hstable hdistinct hrow
        (Fields.reads_of_complete hfilled hcomplete)
    | arr items =>
      simp only [record] at h
      split at h
      · cases h
      · rename_i row htake
        cases h
        exact decode_encode_of_reads hstable hdistinct hrow
          (Fields.reads_of_takeItems hj.item htake)
      · cases h
    | null | bool | int | float | str => cases h
  null _ _ _ h := by cases h

end Codec

end DebugAdapter
