import Mathlib.Data.List.TakeWhile
import DebugAdapter.Proofs.Interleaved
import DebugAdapter.Proofs.Packet.Envelope

/-!
# The grammar of packets

Which headers announce a body, and of how many bytes, is said here by relations and not by the
functions that read a header: `Announces`. The main statement is `Buffer.next_exact`, on what asking
for a packet gives and how much of the buffer it takes, for any bytes at all.
-/

namespace DebugAdapter

-- ---------------------------------------------------------------------------
-- Blanks around a text
-- ---------------------------------------------------------------------------

namespace Text

/-- The core is the text without the blanks around it. -/
structure Trims (text core : List Char) : Prop where
  split : ∃ front back, text = front ++ core ++ back ∧
    (∀ c ∈ front, isBlank c = true) ∧ ∀ c ∈ back, isBlank c = true
  head : ∀ c ∈ core.head?, isBlank c = false
  last : ∀ c ∈ core.getLast?, isBlank c = false

theorem trim_append_left {front : List Char} (h : ∀ c ∈ front, isBlank c = true) (s : List Char) :
    trim (front ++ s) = trim s := by
  rw [trim, List.dropWhile_append_of_pos h, trim]

theorem trim_append_right {back : List Char} (h : ∀ c ∈ back, isBlank c = true) (s : List Char) :
    trim (s ++ back) = trim s := by
  have hback : ∀ c ∈ back.reverse, isBlank c = true := fun c hc => h c (List.mem_reverse.1 hc)
  rw [trim, trim, List.dropWhile_append]
  split
  · rename_i hempty
    rw [List.isEmpty_iff.1 hempty, List.dropWhile_eq_nil_iff.2 h]
  · rw [List.reverse_append, List.dropWhile_append_of_pos hback]

theorem not_blank_of_head?_dropWhile {s : List Char} {c : Char}
    (h : c ∈ (s.dropWhile isBlank).head?) : isBlank c = false := by
  have := List.head?_dropWhile_not isBlank s
  rw [Option.mem_def.1 h] at this
  simpa using this

theorem trims_trim (s : List Char) : Trims s (trim s) := by
  have hrest : trim s ++ ((s.dropWhile isBlank).reverse.takeWhile isBlank).reverse =
      s.dropWhile isBlank := by
    rw [trim, ← List.reverse_append, List.takeWhile_append_dropWhile, List.reverse_reverse]
  constructor
  case split =>
    refine ⟨s.takeWhile isBlank, ((s.dropWhile isBlank).reverse.takeWhile isBlank).reverse,
      ?_, fun c hc => List.mem_takeWhile_imp hc,
      fun c hc => List.mem_takeWhile_imp (List.mem_reverse.1 hc)⟩
    rw [List.append_assoc, hrest, List.takeWhile_append_dropWhile]
  case head =>
    intro c hc
    apply not_blank_of_head?_dropWhile (s := s)
    rw [← hrest, List.head?_append, Option.mem_def.1 hc]
    rfl
  case last =>
    intro c hc
    rw [trim, List.getLast?_reverse] at hc
    exact not_blank_of_head?_dropWhile hc

theorem trims_iff {text core : List Char} : Trims text core ↔ trim text = core := by
  constructor
  · rintro ⟨⟨front, back, rfl, hfront, hback⟩, hhead, hlast⟩
    rw [trim_append_right hback, trim_append_left hfront, trim_eq_self hhead hlast]
  · rintro rfl
    exact trims_trim text

end Text

namespace Packet

-- ---------------------------------------------------------------------------
-- Lines of a header
-- ---------------------------------------------------------------------------

/-- The line is cut at its first colon. -/
structure IsField (line name value : List Char) : Prop where
  whole : line = name ++ ':' :: value
  first : ':' ∉ name

/-- The line is named Content-Length, in any case. The blanks around its value do not count. -/
inductive GivesLength (line value : List Char) : Prop
  | mk {name core raw : List Char} : IsField line name raw → Text.Trims name core →
      core.map Char.toLower = "content-length".toList → Text.Trims raw value →
      GivesLength line value

/-- Digits, perhaps with one plus sign in front. -/
inductive Writes : List Char → Nat → Prop
  | digits {ds : List Char} : ds ≠ [] → (∀ c ∈ ds, c.isDigit = true) →
      Writes ds (Nat.ofDigitChars 10 ds 0)
  | plus {ds : List Char} : ds ≠ [] → (∀ c ∈ ds, c.isDigit = true) →
      Writes ('+' :: ds) (Nat.ofDigitChars 10 ds 0)

/-- The header is text, and the first of its lines that gives a length gives this one, which is
within bounds. -/
inductive Announces (header : Bytes) (n : Nat) : Prop
  | mk {text : String} {before after : List (List Char)} {line value : List Char} :
      Text.utf8 text = header → LinesOf text.toList (before ++ line :: after) →
      (∀ l ∈ before, ∀ v, ¬ GivesLength l v) → GivesLength line value → Writes value n →
      n ≤ 16777216 → Announces header n

theorem isField_iff {line name value : List Char} :
    IsField line name value ↔ field? line = some (name, value) := by
  unfold field?
  constructor
  · rintro ⟨rfl, hfirst⟩
    have hname : ∀ c ∈ name, (c != ':') = true := fun c hc => bne_iff_ne.2 fun h => hfirst (h ▸ hc)
    rw [List.dropWhile_append_of_pos hname, List.takeWhile_append_of_pos hname]
    simp
  · intro h
    split at h
    · cases h
    · rename_i c raw hdrop
      cases h
      have hhead := List.head?_dropWhile_not (· != ':') line
      rw [hdrop] at hhead
      obtain rfl : c = ':' := by simpa using hhead
      refine ⟨?_, fun h => ?_⟩
      · rw [← hdrop, List.takeWhile_append_dropWhile]
      · simpa using List.mem_takeWhile_imp h

theorem lower_lengthName : Text.lower lengthName = "content-length".toList := by
  rw [lengthName_eq]
  exact String.toList_ofList.symm

theorem givesLength_iff {line value : List Char} :
    GivesLength line value ↔ lengthField? line = some value := by
  have hname (name : List Char) : Text.sameIgnoringCase (Text.trim name) lengthName = true ↔
      (Text.trim name).map Char.toLower = "content-length".toList := by
    rw [Text.sameIgnoringCase_iff, lower_lengthName, Text.lower]
  unfold lengthField?
  constructor
  · rintro ⟨hfield, hcore, hlower, hvalue⟩
    rw [Text.trims_iff] at hcore hvalue
    rw [isField_iff.1 hfield, Option.bind_some]
    exact (if_pos ((hname _).2 (hcore ▸ hlower))).trans (congrArg some hvalue)
  · intro h
    obtain ⟨⟨name, raw⟩, hfield, hif⟩ := Option.bind_eq_some_iff.1 h
    simp only [Option.ite_none_right_eq_some, Option.some.injEq] at hif
    exact ⟨isField_iff.2 hfield, Text.trims_trim name, (hname name).1 hif.1,
      Text.trims_iff.2 hif.2⟩

theorem lengthField?_eq_none_iff {line : List Char} :
    lengthField? line = none ↔ ∀ value, ¬ GivesLength line value := by
  simp only [Option.eq_none_iff_forall_ne_some, givesLength_iff, ne_eq]

-- ---------------------------------------------------------------------------
-- Lengths
-- ---------------------------------------------------------------------------

theorem ofNumeral?_eq_some_iff {ds : List Char} {n : Nat} :
    Decimal.ofNumeral? ds = some n ↔
      ds ≠ [] ∧ (∀ c ∈ ds, c.isDigit = true) ∧ Nat.ofDigitChars 10 ds 0 = n := by
  simp [Decimal.ofNumeral?, and_assoc]

theorem writes_iff {value : List Char} {n : Nat} : Writes value n ↔ unsigned? value = some n := by
  unfold unsigned?
  constructor
  · intro h
    cases h with
    | digits hne hdigits =>
      split
      · exact absurd (hdigits '+' List.mem_cons_self) (by decide)
      · exact ofNumeral?_eq_some_iff.2 ⟨hne, hdigits, rfl⟩
    | plus hne hdigits => exact ofNumeral?_eq_some_iff.2 ⟨hne, hdigits, rfl⟩
  · intro h
    split at h
    · obtain ⟨hne, hdigits, rfl⟩ := ofNumeral?_eq_some_iff.1 h
      exact .plus hne hdigits
    · obtain ⟨hne, hdigits, rfl⟩ := ofNumeral?_eq_some_iff.1 h
      exact .digits hne hdigits

theorem length?_eq_ok_iff {value : List Char} {n : Nat} :
    length? value = .ok n ↔ Writes value n ∧ n ≤ 16777216 := by
  rw [writes_iff, length?]
  cases unsigned? value with
  | none => simp
  | some m =>
    have hsize : UInt64.size = 2 ^ 64 := rfl
    by_cases hsmall : m ≤ 16777216
    · have h64 : ¬ UInt64.size ≤ m := by omega
      have hlong : ¬ maxLength < m := Nat.not_lt.2 hsmall
      simp only [if_neg h64, if_neg hlong, Except.ok.injEq, Option.some.injEq]
      exact ⟨fun h => ⟨h, h ▸ hsmall⟩, And.left⟩
    · have hlong : maxLength < m := Nat.not_le.1 hsmall
      simp only [if_pos hlong, Option.some.injEq]
      constructor
      · intro h
        split at h <;> cases h
      · rintro ⟨rfl, h⟩
        exact absurd h hsmall

theorem announces_iff {header : Bytes} {n : Nat} :
    Announces header n ↔ bodyLength header = .ok n := by
  unfold bodyLength
  constructor
  · rintro ⟨rfl, hlines, hbefore, hline, hwrites, hn⟩
    have hfirst : (lines _).findSome? lengthField? = some _ :=
      List.findSome?_eq_some_iff.2 ⟨_, _, _, (linesOf_iff.1 hlines).symm,
        givesLength_iff.1 hline, fun l hl => lengthField?_eq_none_iff.2 (hbefore l hl)⟩
    simp only [Text.ofUtf8?_utf8, hfirst]
    exact length?_eq_ok_iff.2 ⟨hwrites, hn⟩
  · intro h
    split at h
    · cases h
    · rename_i text htext
      split at h
      · cases h
      · rename_i value hvalue
        obtain ⟨before, line, after, hlines, hline, hbefore⟩ := List.findSome?_eq_some_iff.1 hvalue
        obtain ⟨hwrites, hn⟩ := length?_eq_ok_iff.1 h
        exact ⟨Text.utf8_of_ofUtf8? htext, linesOf_iff.2 hlines.symm,
          fun l hl => lengthField?_eq_none_iff.1 (hbefore l hl), givesLength_iff.2 hline, hwrites,
          hn⟩

-- ---------------------------------------------------------------------------
-- Headers of given lines
-- ---------------------------------------------------------------------------

/-- A header can have these lines. An empty one ends it, unless it comes first. -/
structure HeaderLines (ls : List (List Char)) : Prop where
  unbroken : ∀ l ∈ ls, Unbroken l
  nonempty : ∀ l ∈ ls.tail, l ≠ []

def headerOf (ls : List (List Char)) : Bytes :=
  Text.utf8 (String.ofList (lineBreak.intercalate ls))

theorem exists_eq_cons_of_prefix_utf8 {b : UInt8} {bytes : Bytes} {cs : List Char}
    (ascii : b.toNat < 128) (h : b :: bytes <+: cs.flatMap String.utf8EncodeChar) :
    ∃ c rest, cs = c :: rest ∧ c.toNat = b.toNat := by
  cases cs with
  | nil => simp at h
  | cons c rest =>
    refine ⟨c, rest, rfl, Text.toNat_eq_of_mem_utf8EncodeChar ?_ ascii⟩
    obtain ⟨first, others, hc⟩ :=
      List.exists_cons_of_ne_nil (String.utf8EncodeChar_ne_nil (c := c))
    rw [List.flatMap_cons, hc, List.cons_append, List.cons_prefix_cons] at h
    rw [hc, h.1]
    exact List.mem_cons_self

theorem not_infix_utf8 {line : List Char} (h : Unbroken line) :
    ¬ [13, 10] <:+: Text.utf8 (String.ofList line) := by
  rw [Text.utf8_ofList]
  induction line with
  | nil => simp
  | cons c line ih =>
    have hline := ih (not_infix_of_cons h)
    rw [List.flatMap_cons]
    by_cases hc : 13 ∈ String.utf8EncodeChar c
    · obtain rfl : c = '\r' := Char.toNat_inj.1 (Text.toNat_eq_of_mem_utf8EncodeChar hc (by decide))
      intro hbreak
      obtain hfront | hbreak := List.infix_cons_iff.1 hbreak
      · obtain ⟨c, rest, rfl, hfeed⟩ := exists_eq_cons_of_prefix_utf8 (by decide)
          (List.cons_prefix_cons.1 hfront).2
        obtain rfl : c = '\n' := Char.toNat_inj.1 hfeed
        exact h ⟨[], rest, rfl⟩
      · exact hline hbreak
    · exact not_infix_append hc hline

theorem headerOf_cons (line : List Char) (ls : List (List Char)) :
    headerOf (line :: ls) = Text.utf8 (String.ofList line) ++
      ls.flatMap fun l => 13 :: 10 :: Text.utf8 (String.ofList l) := by
  induction ls generalizing line with
  | nil => simp [headerOf]
  | cons next ls ih =>
    have hjoin : lineBreak.intercalate (line :: next :: ls) =
        line ++ '\r' :: '\n' :: lineBreak.intercalate (next :: ls) := by
      rw [List.intercalate_cons_cons, List.append_assoc]
      rfl
    rw [headerOf, hjoin, utf8_lineBreak, ← headerOf, ih, List.flatMap_cons]
    rfl

theorem splitHeader?_lines {ls : List (List Char)} (hunbroken : ∀ l ∈ ls, Unbroken l)
    (hne : ∀ l ∈ ls, l ≠ []) (rest : Bytes) :
    let breaks := ls.flatMap fun l => 13 :: 10 :: Text.utf8 (String.ofList l)
    ∃ bytes, breaks ++ emptyLine ++ rest = 13 :: bytes ∧
      splitHeader? (13 :: bytes) = some (breaks, rest) := by
  induction ls with
  | nil => exact ⟨_, rfl, rfl⟩
  | cons l ls ih =>
    obtain ⟨hl, hls⟩ := List.forall_mem_cons.1 hunbroken
    obtain ⟨hlne, hlsne⟩ := List.forall_mem_cons.1 hne
    obtain ⟨bytes, hbytes, hsplit⟩ := ih hls hlsne
    refine ⟨10 :: (Text.utf8 (String.ofList l) ++ 13 :: bytes), ?_, ?_⟩
    · rw [← hbytes]
      simp
    · rw [splitHeader?_lineBreak (not_infix_utf8 hl) (Text.utf8_ne_nil hlne), hsplit]
      simp

theorem splitHeader?_headerOf {ls : List (List Char)} (h : HeaderLines ls) (rest : Bytes) :
    splitHeader? (headerOf ls ++ emptyLine ++ rest) = some (headerOf ls, rest) := by
  cases ls with
  | nil => rfl
  | cons l ls =>
    obtain ⟨hl, hls⟩ := List.forall_mem_cons.1 h.unbroken
    obtain ⟨bytes, hbytes, hsplit⟩ := splitHeader?_lines hls h.nonempty rest
    rw [headerOf_cons, List.append_assoc, List.append_assoc, ← List.append_assoc _ emptyLine,
      hbytes, splitHeader?_line (not_infix_utf8 hl), hsplit]
    rfl

theorem bodyLength_of_linesOf {text : String} {ls : List (List Char)}
    (h : LinesOf text.toList ls) :
    bodyLength (Text.utf8 text) =
      (ls.findSome? lengthField?).elim (.error .lengthMissing) length? := by
  rw [bodyLength, Text.ofUtf8?_utf8]
  simp only [← linesOf_iff.1 h]
  cases ls.findSome? lengthField? <;> rfl

theorem bodyLength_headerOf {ls : List (List Char)} (h : ∀ l ∈ ls, Unbroken l) :
    bodyLength (headerOf ls) =
      (ls.findSome? lengthField?).elim (.error .lengthMissing) length? := by
  cases ls with
  | nil => rfl
  | cons l ls =>
    exact bodyLength_of_linesOf ⟨List.cons_ne_nil _ _, String.toList_ofList.symm, h⟩

theorem findSome?_of_interleaved {kept others ls : List (List Char)}
    (hls : Interleaved kept others ls) (hothers : ∀ l ∈ others, ∀ v, ¬ GivesLength l v) :
    ls.findSome? lengthField? = kept.findSome? lengthField? :=
  hls.findSome?_eq fun l hl => lengthField?_eq_none_iff.2 (hothers l hl)

-- ---------------------------------------------------------------------------
-- Asking for a packet
-- ---------------------------------------------------------------------------

namespace Buffer

theorem next_of_unparted {bytes : Bytes} (h : ¬ emptyLine <:+: bytes) :
    next ⟨bytes⟩ = (.ok none, ⟨bytes⟩) := by
  rw [next, splitHeader?_eq_none_iff.2 h]

section Parted

variable {bytes header rest : Bytes} {n : Nat} (hparted : Parted bytes header rest)

include hparted

theorem next_of_announces (h : Announces header n) :
    next ⟨bytes⟩ = if rest.length < n then (.ok none, ⟨bytes⟩)
      else (.ok (some (rest.take n)), ⟨rest.drop n⟩) := by
  rw [next, parted_iff.1 hparted]
  simp only [announces_iff.1 h]

theorem next_of_not_announces (h : ∀ n, ¬ Announces header n) :
    ∃ e, next ⟨bytes⟩ = (.error e, ⟨rest⟩) := by
  rw [next, parted_iff.1 hparted]
  cases hlength : bodyLength header with
  | error e => exact ⟨e, by simp only [hlength]⟩
  | ok n => exact absurd (announces_iff.2 hlength) (h n)

theorem next_congr {bytes' header' : Bytes} (hparted' : Parted bytes' header' rest)
    (h : bodyLength header = bodyLength header') :
    (next ⟨bytes⟩).1 = (next ⟨bytes'⟩).1 ∧
      ((next ⟨bytes⟩).1 ≠ .ok none → (next ⟨bytes⟩).2 = (next ⟨bytes'⟩).2) := by
  simp only [next, parted_iff.1 hparted, parted_iff.1 hparted', h]
  split
  · exact ⟨rfl, fun _ => rfl⟩
  · split
    · exact ⟨rfl, fun hwaits => absurd rfl hwaits⟩
    · exact ⟨rfl, fun _ => rfl⟩

end Parted

/-- As often as four bytes fit into a buffer, there may be something to come to light. -/
theorem exists_run_waits (buffer : Buffer) :
    ∃ calls ≤ buffer.size / 4,
      ((buffer.run (List.replicate calls .next)).2.next).1 = .ok none := by
  induction hn : buffer.size using Nat.strongRecOn generalizing buffer with
  | ind n ih =>
    obtain ⟨r, after, h⟩ : ∃ r after, buffer.next = (r, after) := ⟨_, _, rfl⟩
    by_cases hr : r = .ok none
    · exact ⟨0, Nat.zero_le _, (congrArg Prod.fst h).trans hr⟩
    · have hsize := size_of_next h hr
      obtain ⟨calls, hcalls, hwaits⟩ := ih after.size (by omega) after rfl
      refine ⟨calls + 1, by omega, ?_⟩
      rw [List.replicate_succ, run, h]
      exact hwaits

/-- What asking for a packet gives, and what it leaves. Without an empty line it waits. Otherwise
the first one ends the header. If this announces a body, the body is given out once it is there and
taken away with the header, and before that nothing is taken; if not, an error takes the header away
and nothing else. So whatever comes to light takes four bytes or more, and asking on comes to an
end. Of the lines of a header none counts but those that give a length: as long as these stay in
order, others may be put in, left out or moved, if no empty line comes to stand behind another. -/
theorem next_exact :
    (∀ bytes, ¬ emptyLine <:+: bytes → next ⟨bytes⟩ = (.ok none, ⟨bytes⟩)) ∧
    (∀ bytes, emptyLine <:+: bytes → ∃ header rest, Parted bytes header rest) ∧
    (∀ bytes header rest, Parted bytes header rest →
      (∀ n, Announces header n →
        (n ≤ rest.length → next ⟨bytes⟩ = (.ok (some (rest.take n)), ⟨rest.drop n⟩)) ∧
        (rest.length < n → next ⟨bytes⟩ = (.ok none, ⟨bytes⟩))) ∧
      ((∀ n, ¬ Announces header n) → ∃ e, next ⟨bytes⟩ = (.error e, ⟨rest⟩))) ∧
    (∀ bytes result after, next ⟨bytes⟩ = (result, after) → result ≠ .ok none →
      after.size + 4 ≤ bytes.length) ∧
    (∀ bytes : Bytes, ∃ calls ≤ bytes.length / 4,
      (run ⟨bytes⟩ (List.replicate calls .next)).2.next.1 = .ok none) ∧
    ∀ (bytes rest : Bytes) (text : String) (kept others others' ls ls' : List (List Char)),
      Parted bytes (Text.utf8 text) rest → LinesOf text.toList ls →
      Interleaved kept others ls → Interleaved kept others' ls' →
      (∀ l ∈ others ++ others', ∀ v, ¬ GivesLength l v) → HeaderLines ls' →
      let before := next ⟨bytes⟩
      let after := next ⟨headerOf ls' ++ emptyLine ++ rest⟩
      before.1 = after.1 ∧ (before.1 ≠ .ok none → before.2 = after.2) := by
  refine ⟨fun _ => next_of_unparted, ?parted,
    fun bytes header rest hparted => ⟨fun n h => ?body, ?refused⟩, fun _ _ _ => size_of_next,
    fun bytes => exists_run_waits ⟨bytes⟩, ?lines⟩
  case parted =>
    intro bytes h
    obtain ⟨⟨header, rest⟩, hsplit⟩ := Option.ne_none_iff_exists'.1
      (mt splitHeader?_eq_none_iff.1 (not_not_intro h))
    exact ⟨header, rest, parted_iff.2 hsplit⟩
  case body =>
    have hnext := next_of_announces hparted h
    refine ⟨fun hthere => ?_, fun hshort => ?_⟩
    · rw [hnext, if_neg (Nat.not_lt.2 hthere)]
    · rw [hnext, if_pos hshort]
  case refused => exact next_of_not_announces hparted
  case lines =>
    intro bytes rest text kept others others' ls ls' hparted hlines hls hls' hothers hheader
    obtain ⟨hothers, hothers'⟩ := List.forall_mem_append.1 hothers
    refine next_congr hparted (parted_iff.2 (splitHeader?_headerOf hheader rest)) ?_
    rw [bodyLength_of_linesOf hlines, bodyLength_headerOf hheader.unbroken,
      findSome?_of_interleaved hls hothers, findSome?_of_interleaved hls' hothers']

instance (line : List Char) : Decidable (Unbroken line) :=
  inferInstanceAs (Decidable (¬ lineBreak <:+: line))

def oddLength : List Char := "content-LENGTH:\t+2 ".toList

/-- The request line holds a colon; the length has blanks around it and a sign. -/
def oddLines : List (List Char) := [requestLine "/a:b", oddLength]

def oddHeader : Bytes := headerOf oddLines

/-- The same lines in another order behind an empty one, and one more. -/
def movedLines : List (List Char) := [[], oddLength, typeLine, requestLine "/a:b"]

def badHeader : Bytes := headerOf ["Content-Length: 1 2".toList]

theorem next_exact_odd :
    (¬ emptyLine <:+: oddHeader ∧ next ⟨oddHeader⟩ = (.ok none, ⟨oddHeader⟩)) ∧
    (Parted (oddHeader ++ emptyLine ++ [123, 125, 10]) oddHeader [123, 125, 10] ∧
      Announces oddHeader 2 ∧
      next ⟨oddHeader ++ emptyLine ++ [123, 125, 10]⟩ = (.ok (some [123, 125]), ⟨[10]⟩)) ∧
    next ⟨oddHeader ++ emptyLine ++ [123]⟩ = (.ok none, ⟨oddHeader ++ emptyLine ++ [123]⟩) ∧
    ((∀ n, ¬ Announces badHeader n) ∧
      ∃ e, next ⟨badHeader ++ emptyLine ++ [123]⟩ = (.error e, ⟨[123]⟩)) ∧
    (next ⟨oddHeader ++ emptyLine ++ [123, 125, 10]⟩).1 =
      (next ⟨headerOf movedLines ++ emptyLine ++ [123, 125, 10]⟩).1 := by
  have hlines : HeaderLines oddLines := ⟨by decide +kernel, by decide +kernel⟩
  have hparted (rest : Bytes) : Parted (oddHeader ++ emptyLine ++ rest) oddHeader rest :=
    parted_iff.2 (splitHeader?_headerOf hlines rest)
  have hannounces : Announces oddHeader 2 := announces_iff.2 (by with_unfolding_all rfl)
  have hbad : ∀ n, ¬ Announces badHeader n := by
    intro n h
    cases announces_iff.1 h
  obtain ⟨hopen, -, hwhole, -, -, hmoved⟩ := next_exact
  refine ⟨⟨by decide +kernel, hopen _ (by decide +kernel)⟩, ⟨hparted _, hannounces, ?_⟩, ?_,
    ⟨hbad, ?_⟩, ?_⟩
  · exact ((hwhole _ _ _ (hparted [123, 125, 10])).1 2 hannounces).1 (by decide)
  · exact ((hwhole _ _ _ (hparted [123])).1 2 hannounces).2 (by decide)
  · have hparted' : Parted (badHeader ++ emptyLine ++ [123]) badHeader [123] :=
      parted_iff.2 (splitHeader?_headerOf ⟨by decide +kernel, by decide +kernel⟩ [123])
    exact (hwhole _ _ _ hparted').2 hbad
  · exact (hmoved _ [123, 125, 10] _ [oddLength] [requestLine "/a:b"]
      [[], typeLine, requestLine "/a:b"] oddLines movedLines (hparted [123, 125, 10])
      ⟨by decide, String.toList_ofList.symm, hlines.unbroken⟩
      (.right _ (.left _ .nil)) (.right _ (.left _ (.right _ (.right _ .nil))))
      (by simp only [← lengthField?_eq_none_iff]; decide +kernel)
      ⟨by decide +kernel, by decide +kernel⟩).1

end Buffer

end Packet

end DebugAdapter
