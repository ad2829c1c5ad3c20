import DebugAdapter.Proofs.Packet.Chunks

/-!
# Where headers and lines end

What `splitHeader?` and `lines` compute is said here without them. A header ends at the first empty
line (`parted_iff`). The lines of a text, put together again with line breaks, give the text, and
none of them holds a line break of its own (`linesOf_iff`); a lone carriage return or line feed is a
character like any other.
-/

namespace DebugAdapter.Packet

theorem not_infix_of_notMem {α : Type} {a b : α} {l : List α} (h : a ∉ l) : ¬ [a, b] <:+: l :=
  fun hab => h (hab.subset List.mem_cons_self)

theorem not_infix_of_cons {α : Type} {c : α} {l pattern : List α} (h : ¬ pattern <:+: c :: l) :
    ¬ pattern <:+: l :=
  fun hl => h (hl.trans (List.suffix_cons c l).isInfix)

theorem not_infix_append {α : Type} {a b : α} {l rest : List α} (h : a ∉ l)
    (hrest : ¬ [a, b] <:+: rest) : ¬ [a, b] <:+: l ++ rest := by
  induction l with
  | nil => exact hrest
  | cons c l ih =>
    obtain ⟨hc, hl⟩ := not_or.1 (mt List.mem_cons.2 h)
    rw [List.cons_append, List.infix_cons_iff, List.cons_prefix_cons]
    exact not_or.2 ⟨fun hfront => hc hfront.1, ih hl⟩

theorem ne_cons_of_not_infix {α : Type} {a b c : α} {l rest tail : List α}
    (h : ¬ [a, b] <:+: c :: l) (hab : a ≠ b) (hc : c = a) : l ++ a :: rest ≠ b :: tail := by
  subst hc
  cases l with
  | nil => exact fun heq => hab (List.cons.inj heq).1
  | cons d l =>
    intro heq
    obtain rfl := (List.cons.inj heq).1
    exact h ⟨[], l, rfl⟩

-- ---------------------------------------------------------------------------
-- Headers
-- ---------------------------------------------------------------------------

/-- The bytes are a header, the first empty line among them, and a remainder. -/
structure Parted (bytes header rest : Bytes) : Prop where
  whole : bytes = header ++ emptyLine ++ rest
  first : ∀ header' rest', bytes = header' ++ emptyLine ++ rest' → header.length ≤ header'.length

theorem exists_splitHeader? (header rest : Bytes) :
    ∃ header' rest', splitHeader? (header ++ emptyLine ++ rest) = some (header', rest') ∧
      header'.length ≤ header.length := by
  induction header with
  | nil => exact ⟨[], rest, rfl, Nat.le_refl _⟩
  | cons b header ih =>
    obtain ⟨header', rest', hsplit, hle⟩ := ih
    rw [List.cons_append, List.cons_append]
    by_cases hhere : b = 13 ∧ ∃ tail, header ++ emptyLine ++ rest = 10 :: 13 :: 10 :: tail
    · obtain ⟨rfl, tail, htail⟩ := hhere
      rw [htail]
      exact ⟨[], tail, rfl, Nat.zero_le _⟩
    · refine ⟨b :: header', rest', ?_, Nat.succ_le_succ hle⟩
      rw [splitHeader?.eq_3 _ _ fun tail hb htail => hhere ⟨hb, tail, htail⟩, hsplit]
      rfl

theorem parted_iff {bytes header rest : Bytes} :
    Parted bytes header rest ↔ splitHeader? bytes = some (header, rest) := by
  constructor
  · rintro ⟨rfl, hfirst⟩
    obtain ⟨header', rest', hsplit, hle⟩ := exists_splitHeader? header rest
    have heq := splitHeader?_eq hsplit
    have hlength : header.length = header'.length := Nat.le_antisymm (hfirst _ _ heq) hle
    rw [List.append_assoc, List.append_assoc] at heq
    obtain ⟨rfl, hrest⟩ := List.append_inj heq hlength
    rw [hsplit, (List.append_cancel_left hrest)]
  · refine fun h => ⟨splitHeader?_eq h, fun header' rest' heq => ?_⟩
    obtain ⟨header'', rest'', hsplit, hle⟩ := exists_splitHeader? header' rest'
    rw [← heq, h] at hsplit
    cases hsplit
    exact hle

theorem splitHeader?_eq_none_iff {bytes : Bytes} :
    splitHeader? bytes = none ↔ ¬ emptyLine <:+: bytes := by
  constructor
  · rintro h ⟨header, rest, rfl⟩
    obtain ⟨header', rest', hsplit, -⟩ := exists_splitHeader? header rest
    cases h.symm.trans hsplit
  · refine fun h => Option.eq_none_iff_forall_ne_some.2 fun (header, rest) hsplit => h ?_
    exact ⟨header, rest, (splitHeader?_eq hsplit).symm⟩

theorem splitHeader?_line {line : Bytes} (plain : ¬ [13, 10] <:+: line) (rest : Bytes) :
    splitHeader? (line ++ 13 :: rest) =
      (splitHeader? (13 :: rest)).map fun (header, body) => (line ++ header, body) := by
  induction line with
  | nil => simp
  | cons b line ih =>
    rw [List.cons_append, splitHeader?.eq_3, ih (not_infix_of_cons plain)]
    · cases splitHeader? (13 :: rest) <;> rfl
    · exact fun _ hb => ne_cons_of_not_infix plain (by decide) hb

theorem splitHeader?_lineBreak {line : Bytes} (plain : ¬ [13, 10] <:+: line) (nonempty : line ≠ [])
    (rest : Bytes) :
    splitHeader? (13 :: 10 :: (line ++ 13 :: rest)) =
      (splitHeader? (13 :: rest)).map
        fun (header, body) => (13 :: 10 :: (line ++ header), body) := by
  obtain ⟨b, tail, rfl⟩ := List.exists_cons_of_ne_nil nonempty
  rw [splitHeader?.eq_3, splitHeader?.eq_3, splitHeader?_line plain]
  · cases splitHeader? (13 :: rest) <;> rfl
  · exact fun _ h => absurd h (by decide)
  · rintro rest' - h
    obtain ⟨hb, htail⟩ := List.cons.inj (List.cons.inj h).2
    exact ne_cons_of_not_infix plain (by decide) hb htail

-- ---------------------------------------------------------------------------
-- Lines
-- ---------------------------------------------------------------------------

def lineBreak : List Char := ['\r', '\n']

def Unbroken (line : List Char) : Prop := ¬ lineBreak <:+: line

structure LinesOf (text : List Char) (ls : List (List Char)) : Prop where
  nonempty : ls ≠ []
  joined : lineBreak.intercalate ls = text
  unbroken : ∀ line ∈ ls, Unbroken line

theorem unbroken_of_notMem {line : List Char} (plain : '\r' ∉ line) : Unbroken line :=
  not_infix_of_notMem plain

theorem lines_of_unbroken {line : List Char} (h : Unbroken line) : lines line = [line] := by
  induction line with
  | nil => rfl
  | cons c line ih =>
    rw [lines.eq_3, ih (not_infix_of_cons h)]
    rintro rest rfl rfl
    exact h ⟨[], rest, rfl⟩

theorem lines_lineBreak {line : List Char} (h : Unbroken line) (rest : List Char) :
    lines (line ++ '\r' :: '\n' :: rest) = line :: lines rest := by
  induction line with
  | nil => exact lines.eq_2 rest
  | cons c line ih =>
    rw [List.cons_append, lines.eq_3, ih (not_infix_of_cons h)]
    exact fun _ hc => ne_cons_of_not_infix h (by decide) hc

theorem lines_intercalate {ls : List (List Char)} (nonempty : ls ≠ [])
    (unbroken : ∀ line ∈ ls, Unbroken line) : lines (lineBreak.intercalate ls) = ls := by
  induction ls with
  | nil => exact absurd rfl nonempty
  | cons line ls ih =>
    obtain ⟨hline, hls⟩ := List.forall_mem_cons.1 unbroken
    cases ls with
    | nil => rw [List.intercalate_singleton, lines_of_unbroken hline]
    | cons next ls =>
      rw [List.intercalate_cons_cons, List.append_assoc]
      exact (lines_lineBreak hline _).trans (congrArg _ (ih (List.cons_ne_nil _ _) hls))

theorem prefix_intercalate (line : List Char) (ls : List (List Char)) :
    line <+: lineBreak.intercalate (line :: ls) := by
  cases ls with
  | nil => exact List.intercalate_singleton ▸ List.prefix_rfl
  | cons next ls =>
    rw [List.intercalate_cons_cons, List.append_assoc]
    exact List.prefix_append _ _

theorem linesOf_lines (text : List Char) : LinesOf text (lines text) := by
  fun_induction lines text with
  | case1 => exact ⟨by simp, rfl, by simp [Unbroken, lineBreak]⟩
  | case2 rest ih =>
    obtain ⟨hne, hjoined, hunbroken⟩ := ih
    obtain ⟨line, ls, hls⟩ := List.exists_cons_of_ne_nil hne
    rw [hls] at hjoined hunbroken ⊢
    refine ⟨List.cons_ne_nil _ _, ?_,
      List.forall_mem_cons.2 ⟨by simp [Unbroken, lineBreak], hunbroken⟩⟩
    rw [List.intercalate_cons_cons, hjoined]
    rfl
  | case3 c rest hbreak hnil ih => exact absurd hnil ih.nonempty
  | case4 c rest hbreak line ls hls ih =>
    rw [hls] at ih
    obtain ⟨-, hjoined, hunbroken⟩ := ih
    obtain ⟨hline, hothers⟩ := List.forall_mem_cons.1 hunbroken
    have hcons : lineBreak.intercalate ((c :: line) :: ls) = c :: rest := by
      rw [← hjoined]
      cases ls <;> rfl
    refine ⟨List.cons_ne_nil _ _, hcons, List.forall_mem_cons.2 ⟨fun hbroken => ?_, hothers⟩⟩
    obtain hfront | hbroken := List.infix_cons_iff.1 hbroken
    · obtain ⟨tail, htail⟩ := hfront.trans (hcons ▸ prefix_intercalate (c :: line) ls)
      obtain ⟨rfl, rfl⟩ := List.cons.inj htail
      exact hbreak _ rfl rfl
    · exact hline hbroken

theorem linesOf_iff {text : List Char} {ls : List (List Char)} :
    LinesOf text ls ↔ ls = lines text := by
  constructor
  · rintro ⟨hne, rfl, hunbroken⟩
    exact (lines_intercalate hne hunbroken).symm
  · rintro rfl
    exact linesOf_lines text

end DebugAdapter.Packet
