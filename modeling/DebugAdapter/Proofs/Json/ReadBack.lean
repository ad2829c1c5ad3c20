import DebugAdapter.Json.Reader
import DebugAdapter.Proofs.Json.Scalars

/-!
# Written values are read back

The main statement is `ofBytes?_utf8_text`: the compact text of a message is read as that message.
The message has to be one that a text can hold (`Legible`), nested no deeper than a reader follows.
-/

namespace DebugAdapter.Json

-- ---------------------------------------------------------------------------
-- Values that a text can hold
-- ---------------------------------------------------------------------------

mutual

def depth : Json → Nat
  | .arr items => itemsDepth items + 1
  | .obj entries => entriesDepth entries + 1
  | _ => 0

def itemsDepth : List Json → Nat
  | [] => 0
  | j :: rest => max j.depth (itemsDepth rest)

def entriesDepth : List (String × Json) → Nat
  | [] => 0
  | (_, j) :: rest => max j.depth (entriesDepth rest)

end

def Ascending (entries : List (String × Json)) : Prop := entries.Pairwise (·.1 < ·.1)

/-- The values that a text can stand for: integers have 64 bits, signed or unsigned, keys ascend,
and a float is one that its own text is read as. -/
inductive Legible : Json → Prop
  | null : Legible .null
  | bool (b : Bool) : Legible (.bool b)
  | int {n : Int} : -2 ^ 63 ≤ n → n < 2 ^ 64 → Legible (.int n)
  | float {x : Binary64} :
      ofNumeral? (Decimal.scientificBeyond x).toList = some (.float x) → Legible (.float x)
  | str (s : String) : Legible (.str s)
  | arr {items : List Json} : (∀ j ∈ items, Legible j) → Legible (.arr items)
  | obj {entries : List (String × Json)} :
      Ascending entries → (∀ e ∈ entries, Legible e.2) → Legible (.obj entries)

theorem Ascending.above {entries rest : List (String × Json)} {e : String × Json}
    (h : Ascending (entries ++ e :: rest)) : ∀ f ∈ entries, f.1 < e.1 :=
  fun f hf => (List.pairwise_append.1 h).2.2 f hf e (by simp)

theorem insertKey_eq_append {key : String} {j : Json} {entries : List (String × Json)}
    (above : ∀ e ∈ entries, e.1 < key) : insertKey key j entries = entries ++ [(key, j)] := by
  induction entries with
  | nil => rfl
  | cons e entries ih =>
    have below : e.1 < key := above e (by simp)
    rw [insertKey, if_neg (String.lt_asymm below), if_neg (String.ne_of_lt below).symm,
      ih fun e he => above e (by simp [he])]
    rfl

-- ---------------------------------------------------------------------------
-- The text of a container
-- ---------------------------------------------------------------------------

theorem itemChars_cons_cons (j i : Json) (items : List Json) :
    itemChars (j :: i :: items) = chars j ++ ',' :: itemChars (i :: items) := by
  rw [itemChars]
  exact nofun

theorem entryChars_cons_cons (k : String) (j : Json) (e : String × Json)
    (entries : List (String × Json)) :
    entryChars ((k, j) :: e :: entries) =
      quoted k ++ ':' :: (chars j ++ ',' :: entryChars (e :: entries)) := by
  rw [entryChars]
  · simp
  · exact nofun

-- ---------------------------------------------------------------------------
-- Reading on
-- ---------------------------------------------------------------------------

theorem isSpace_of_token? {c : Char} {cs rest : List Char} {t : Token}
    (h : token? (c :: cs) = some (t, rest)) : isSpace c = false := by
  cases space : isSpace c with
  | false => rfl
  | true =>
    simp only [isSpace, Bool.or_eq_true, beq_iff_eq] at space
    rcases space with ((rfl | rfl) | rfl) | rfl <;>
      simp [token?, show isNumeric ' ' = false by decide, show isNumeric '\t' = false by decide,
        show isNumeric '\n' = false by decide, show isNumeric '\r' = false by decide] at h

theorem tokens?_of_token? {cs rest : List Char} {t : Token} (h : token? cs = some (t, rest)) :
    tokens? cs = (tokens? rest).map (t :: ·) := by
  cases cs with
  | nil => cases h
  | cons c cs =>
    have start : (c :: cs).dropWhile isSpace = c :: cs := by simp [isSpace_of_token? h]
    rw [tokens?]
    split
    · simp_all
    · rename_i c' cs' heq
      rw [start] at heq
      obtain ⟨rfl, rfl⟩ := List.cons.inj heq
      split <;> simp_all

def Expect.Starts (e : Expect) : Prop := e = .value ∨ e = .valueOrClose

/-- No number goes on in a text. -/
def Ends (rest : List Char) : Prop := ∀ c ∈ rest.head?, isNumeric c = false

theorem ends_cons {c : Char} (h : isNumeric c = false) (rest : List Char) : Ends (c :: rest) := by
  simpa [Ends] using h

namespace Reader

variable {limit : Nat}

/-- What becomes of a reader over the rest of a text. -/
def resume (limit : Nat) (r : Reader) (cs : List Char) : Option Json :=
  (tokens? cs).bind (run limit r)

theorem resume_token {r after : Reader} {cs rest : List Char} {t : Token}
    (first : token? cs = some (t, rest)) (step : r.step limit t = some after) :
    r.resume limit cs = after.resume limit rest := by
  rw [resume, tokens?_of_token? first, resume]
  cases tokens? rest with
  | none => rfl
  | some ts => simp [run, step]

theorem resume_nil (j : Json) : resume limit ⟨.done j, []⟩ [] = some j := by
  simp [resume, tokens?, run]

theorem step_start {e : Expect} {stack : List Open} {t : Token} (starts : e.Starts)
    (opens : t ≠ .closeBracket) : step limit ⟨e, stack⟩ t = startValue limit stack t := by
  rcases starts with rfl | rfl
  · rfl
  · cases t with
    | closeBracket => exact absurd rfl opens
    | _ => rfl

/-- Wherever a value may come next, its text is taken whole and the value delivered. -/
def Takes (limit : Nat) (j : Json) : Prop :=
  ∀ {e : Expect} {stack : List Open} {rest : List Char}, e.Starts → Ends rest →
    stack.length + j.depth ≤ limit →
    resume limit ⟨e, stack⟩ (chars j ++ rest) = resume limit (deliver j stack) rest

theorem takes_token {j : Json} {t : Token}
    (first : ∀ {rest}, Ends rest → token? (chars j ++ rest) = some (t, rest))
    (opens : t ≠ .closeBracket)
    (value : ∀ stack, startValue limit stack t = some (deliver j stack)) : Takes limit j :=
  fun starts ends _ => resume_token (first ends) ((step_start starts opens).trans (value _))

theorem takes_number {j : Json} (text : ofNumeral? (chars j) = some j) : Takes limit j :=
  takes_token (token?_numeral text) nofun fun _ => rfl

-- Both inductions are on the items behind the first one, for every state that the reader is in
-- when it comes to it: the container may be fresh or have items already.

theorem resume_itemChars {j : Json} {items : List Json}
    (takes : ∀ i ∈ j :: items, Takes limit i) {e : Expect} {acc : List Json} {stack : List Open}
    {rest : List Char} (starts : e.Starts)
    (fits : stack.length + 1 + itemsDepth (j :: items) ≤ limit) :
    resume limit ⟨e, .array acc :: stack⟩ (itemChars (j :: items) ++ ']' :: rest) =
      resume limit (deliver (.arr (acc.reverse ++ j :: items)) stack) rest := by
  induction items generalizing j acc e with
  | nil =>
    simp only [itemsDepth] at fits
    rw [itemChars, takes j (by simp) starts (ends_cons (by decide) _) (by simp; omega), deliver,
      resume_token rfl rfl]
    simp
  | cons i items ih =>
    simp only [itemsDepth] at fits
    rw [itemChars_cons_cons, List.append_assoc, List.cons_append,
      takes j (by simp) starts (ends_cons (by decide) _) (by simp; omega), deliver,
      resume_token rfl rfl,
      ih (fun i h => takes i (by simp [h])) (.inl rfl) (by simp [itemsDepth]; omega)]
    simp

theorem resume_entry {k : String} {j : Json} (takes : Takes limit j) {e : Expect}
    {acc : List (String × Json)} {stack : List Open} {rest : List Char}
    (starts : e = .keyOrClose acc ∨ e = .key acc) (above : ∀ e ∈ acc, e.1 < k) (ends : Ends rest)
    (fits : stack.length + 1 + j.depth ≤ limit) :
    resume limit ⟨e, stack⟩ (quoted k ++ ':' :: (chars j ++ rest)) =
      resume limit ⟨.commaOrClose, .object (acc ++ [(k, j)]) k :: stack⟩ rest := by
  have key : step limit ⟨e, stack⟩ (.text k) = some ⟨.colon acc k, stack⟩ := by
    rcases starts with rfl | rfl <;> rfl
  rw [resume_token (token?_quoted k _) key, resume_token rfl rfl,
    takes (.inl rfl) ends (by simpa using fits), deliver, insertKey_eq_append above]

theorem resume_entryChars {k : String} {j : Json} {entries : List (String × Json)}
    (takes : ∀ e ∈ (k, j) :: entries, Takes limit e.2) {e : Expect} {acc : List (String × Json)}
    {stack : List Open} {rest : List Char} (starts : e = .keyOrClose acc ∨ e = .key acc)
    (ascending : Ascending (acc ++ (k, j) :: entries))
    (fits : stack.length + 1 + entriesDepth ((k, j) :: entries) ≤ limit) :
    resume limit ⟨e, stack⟩ (entryChars ((k, j) :: entries) ++ '\x7d' :: rest) =
      resume limit (deliver (.obj (acc ++ (k, j) :: entries)) stack) rest := by
  induction entries generalizing k j acc e with
  | nil =>
    simp only [entriesDepth] at fits
    have entry : resume limit ⟨e, stack⟩ (quoted k ++ ':' :: (chars j ++ '\x7d' :: rest)) = _ :=
      resume_entry (takes (k, j) (by simp)) starts ascending.above (ends_cons (by decide) _)
        (by simp; omega)
    rw [entryChars, List.append_assoc, List.cons_append, entry, resume_token rfl rfl]
  | cons i entries ih =>
    obtain ⟨l, i⟩ := i
    simp only [entriesDepth] at fits
    have entry : resume limit ⟨e, stack⟩ (quoted k ++ ':' :: (chars j ++ ',' ::
        (entryChars ((l, i) :: entries) ++ '\x7d' :: rest))) = _ :=
      resume_entry (takes (k, j) (by simp)) starts ascending.above (ends_cons (by decide) _)
        (by simp; omega)
    rw [entryChars_cons_cons, List.append_assoc, List.cons_append, List.append_assoc,
      List.cons_append, entry, resume_token rfl rfl,
      ih (fun e h => takes e (by simp [h])) (.inr rfl) (by simpa using ascending)
        (by simp [entriesDepth]; omega)]
    simp

theorem takes_of_legible {j : Json} (h : Legible j) : Takes limit j := by
  induction h with
  | null => exact takes_token (t := .scalar .null) (fun _ => rfl) nofun fun _ => rfl
  | bool b =>
    cases b <;> exact takes_token (t := .scalar (.bool _)) (fun _ => rfl) nofun fun _ => rfl
  | int low high =>
    refine takes_number ?_
    rw [chars]
    exact ofNumeral?_integerText low high
  | float text =>
    refine takes_number ?_
    rw [chars]
    exact text
  | str s =>
    refine takes_token (t := .text s) (fun _ => ?_) nofun fun _ => rfl
    rw [chars]
    exact token?_quoted s _
  | @arr items _ ih =>
    intro e stack rest starts _ fits
    simp only [Json.depth] at fits
    have opens : step limit ⟨e, stack⟩ .openBracket = some ⟨.valueOrClose, .array [] :: stack⟩ := by
      rw [step_start starts (by simp), startValue, if_pos (by omega)]
    rw [chars, List.cons_append, List.cons_append, resume_token rfl opens]
    -- Only the first item may find the array closed instead.
    cases items with
    | nil => exact resume_token rfl rfl
    | cons j items =>
      rw [List.append_assoc, List.singleton_append, resume_itemChars ih (.inr rfl) (by omega)]
      rfl
  | @obj entries ascending _ ih =>
    intro e stack rest starts _ fits
    simp only [Json.depth] at fits
    have opens : step limit ⟨e, stack⟩ .openBrace = some ⟨.keyOrClose [], stack⟩ := by
      rw [step_start starts (by simp), startValue, if_pos (by omega)]
    rw [chars, List.cons_append, List.cons_append, resume_token rfl opens]
    cases entries with
    | nil => exact resume_token rfl rfl
    | cons e entries =>
      obtain ⟨k, j⟩ := e
      rw [List.append_assoc, List.singleton_append,
        resume_entryChars ih (.inl rfl) ascending (by omega)]
      rfl

end Reader

theorem read?_text {limit : Nat} {j : Json} (legible : Legible j) (fits : j.depth ≤ limit) :
    read? limit j.text = some j := by
  have taken : Reader.resume limit ⟨.value, []⟩ (chars j ++ []) = _ :=
    Reader.takes_of_legible legible (.inl rfl) (by simp [Ends]) (by simpa using fits)
  rw [Reader.deliver, Reader.resume_nil] at taken
  simpa [read?, text, Reader.resume] using taken

/-- The compact text of a message that a text can hold is read as that message. -/
theorem ofBytes?_utf8_text {j : Json} (legible : Legible j) (fits : j.depth ≤ messageDepth) :
    ofBytes? (Text.utf8 j.text) = some j := by
  simp [ofBytes?, read?_text legible fits]

end DebugAdapter.Json
