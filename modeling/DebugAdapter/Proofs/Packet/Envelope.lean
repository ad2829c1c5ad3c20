import DebugAdapter.Proofs.Packet.Lines
import DebugAdapter.Settings.Basic

/-!
# A packet that is written is found again

The main statement is `Buffer.next_encode`: under an endpoint that settings accept, a packet comes
out of a buffer whole, whatever its body holds and whatever follows it. The endpoint can neither end
the header nor stand for the length; the body is never looked at.
-/

namespace DebugAdapter

-- ---------------------------------------------------------------------------
-- Endpoints
-- ---------------------------------------------------------------------------

def Settings.Accepts (endpoint : String) : Prop :=
  ∃ draft settings, ofDraft draft = .ok settings ∧ settings.endpoint = endpoint

/-- Settings accept just the absolute paths without white space. -/
theorem Settings.accepts_iff {endpoint : String} :
    Accepts endpoint ↔
      endpoint.toList.head? = some '/' ∧ ∀ c ∈ endpoint.toList, Text.isBlank c = false := by
  have check : isEndpoint endpoint = true ↔
      endpoint.toList.head? = some '/' ∧ ∀ c ∈ endpoint.toList, Text.isBlank c = false := by
    simp [isEndpoint]
  rw [← check]
  constructor
  · rintro ⟨draft, settings, h, rfl⟩
    unfold ofDraft at h
    simp only at h
    split at h
    · cases h
    · split at h
      · cases h
        assumption
      · cases h
  · intro h
    have listen : SocketAddress.ofText? (SocketAddress.quad ⟨0, 0, 0, 0⟩ 8845).text =
        some (.quad ⟨0, 0, 0, 0⟩ 8845) := by decide +kernel
    refine ⟨{ endpoint := some endpoint }, { endpoint := endpoint }, ?_, rfl⟩
    simp [ofDraft, listen, h]

-- ---------------------------------------------------------------------------
-- Bytes of a text
-- ---------------------------------------------------------------------------

namespace Text

theorem utf8_ofList (cs : List Char) :
    utf8 (String.ofList cs) = cs.flatMap String.utf8EncodeChar := by
  simp [utf8, List.utf8Encode]

theorem utf8_append (s t : String) : utf8 (s ++ t) = utf8 s ++ utf8 t := by
  simp [utf8]

/-- A byte of the ASCII range stands for its character and for no part of another one. -/
theorem toNat_eq_of_mem_utf8EncodeChar {b : UInt8} {c : Char} (h : b ∈ String.utf8EncodeChar c)
    (ascii : b.toNat < 128) : c.toNat = b.toNat := by
  have low : ∀ n, 128 ≤ n → n < 256 → b ≠ UInt8.ofNat n := by
    rintro n _ _ rfl
    simp at ascii
    omega
  rw [String.utf8EncodeChar.eq_1] at h
  repeat' split at h
  all_goals simp only [List.mem_cons, List.not_mem_nil, or_false] at h
  · obtain rfl := h
    simp at *
    omega
  · rcases h with h | h <;> exact absurd h (low _ (by omega) (by omega))
  · rcases h with h | h | h <;> exact absurd h (low _ (by omega) (by omega))
  · rcases h with h | h | h | h <;> exact absurd h (low _ (by omega) (by omega))

theorem isBlank_of_isDigit {c : Char} (h : c.isDigit = true) : isBlank c = false := by
  simp only [Char.isDigit, Bool.and_eq_true, decide_eq_true_eq] at h
  have bounds : 48 ≤ c.toNat ∧ c.toNat ≤ 57 := h
  simp [isBlank, inRanges, blankRanges]
  omega

theorem head?_trim {c : Char} {cs : List Char} (h : isBlank c = false) :
    (trim (c :: cs)).head? = some c := by
  have front : (c :: cs).dropWhile isBlank = c :: cs := by simp [h]
  rw [trim, front, List.reverse_cons, List.dropWhile_append]
  split <;> simp [h]

theorem utf8_ne_nil {cs : List Char} (h : cs ≠ []) : utf8 (String.ofList cs) ≠ [] := by
  obtain ⟨c, cs, rfl⟩ := List.exists_cons_of_ne_nil h
  rw [utf8_ofList, List.flatMap_cons]
  simp [String.utf8EncodeChar_ne_nil]

theorem notMem_utf8 {cs : List Char} (plain : '\r' ∉ cs) : 13 ∉ utf8 (String.ofList cs) := by
  rw [utf8_ofList, List.mem_flatMap]
  rintro ⟨c, hc, hb⟩
  have : c = '\r' := Char.toNat_inj.1 (toNat_eq_of_mem_utf8EncodeChar hb (by decide))
  exact plain (this ▸ hc)

theorem toList_loop (bs : ByteArray) (i : Nat) (r : Bytes) :
    ByteArray.toList.loop bs i r = r.reverse ++ bs.data.toList.drop i := by
  fun_induction ByteArray.toList.loop bs i r with
  | case1 i r h ih =>
    have hi : i < bs.data.toList.length := h
    have hget : bs.get! i = bs.data.toList[i] := getElem!_pos bs.data i h
    rw [ih, List.reverse_cons, List.append_assoc, hget, List.singleton_append,
      List.getElem_cons_drop]
  | case2 i r h =>
    have hi : bs.data.toList.length ≤ i := Nat.not_lt.1 h
    rw [List.drop_eq_nil_of_le hi, List.append_nil]

theorem toList_toUTF8 (s : String) : s.toUTF8.toList = utf8 s := toList_loop _ 0 []

end Text

-- ---------------------------------------------------------------------------
-- Headers
-- ---------------------------------------------------------------------------

namespace Packet

def requestLine (endpoint : String) : List Char :=
  'P' :: 'O' :: 'S' :: 'T' :: ' ' :: endpoint.toList ++
    [' ', 'H', 'T', 'T', 'P', '/', '1', '.', '1']

def typeLine : List Char := "Content-Type: application/json".toList

def lengthLine (n : Nat) : List Char := lengthName ++ ':' :: ' ' :: Decimal.numeral n

theorem lengthName_eq :
    lengthName = ['C', 'o', 'n', 't', 'e', 'n', 't', '-', 'L', 'e', 'n', 'g', 't', 'h'] :=
  String.toList_ofList

theorem typeLine_eq :
    typeLine = ['C', 'o', 'n', 't', 'e', 'n', 't', '-', 'T', 'y', 'p', 'e', ':', ' ', 'a', 'p', 'p',
      'l', 'i', 'c', 'a', 't', 'i', 'o', 'n', '/', 'j', 's', 'o', 'n'] :=
  String.toList_ofList

def header (endpoint : String) (n : Nat) : List Char :=
  requestLine endpoint ++ '\r' :: '\n' :: (typeLine ++ '\r' :: '\n' :: lengthLine n)

theorem encode_eq (endpoint : String) (body : Bytes) :
    encode endpoint body =
      Text.utf8 (String.ofList (header endpoint body.length)) ++ emptyLine ++ body := by
  have post : "POST ".toList = ['P', 'O', 'S', 'T', ' '] := String.toList_ofList
  have middle : " HTTP/1.1\r\nContent-Type: application/json\r\nContent-Length: ".toList =
      [' ', 'H', 'T', 'T', 'P', '/', '1', '.', '1'] ++ '\r' :: '\n' :: (typeLine ++
        '\r' :: '\n' :: (lengthName ++ [':', ' '])) := by
    rw [typeLine_eq, lengthName_eq]
    exact String.toList_ofList
  have text : s!"POST {endpoint} HTTP/1.1\r\nContent-Type: application/json\r\nContent-Length: "
      ++ String.ofList (Decimal.numeral body.length) =
        String.ofList (header endpoint body.length) := by
    apply String.toList_inj.1
    simp [toString, post, middle, header, requestLine, lengthLine]
  rw [encode, ← Text.utf8_append, text, emptyLine]

theorem utf8_lineBreak (line rest : List Char) :
    Text.utf8 (String.ofList (line ++ '\r' :: '\n' :: rest)) =
      Text.utf8 (String.ofList line) ++ 13 :: 10 :: Text.utf8 (String.ofList rest) := by
  simp only [Text.utf8_ofList, List.flatMap_append, List.flatMap_cons]
  rfl

theorem plain_lengthLine (n : Nat) : '\r' ∉ lengthLine n := by
  have digits : '\r' ∉ Decimal.numeral n := fun h =>
    absurd (Decimal.isDigit_of_mem_numeral h) (by decide)
  simp [lengthLine, lengthName_eq, digits]

theorem plain_lines {endpoint : String} (accepted : Settings.Accepts endpoint) (n : Nat) :
    '\r' ∉ requestLine endpoint ∧ '\r' ∉ typeLine ∧ '\r' ∉ lengthLine n := by
  obtain ⟨-, blanks⟩ := Settings.accepts_iff.1 accepted
  have path : '\r' ∉ endpoint.toList := fun h => absurd (blanks _ h) (by decide)
  exact ⟨by simp [requestLine, path], by simp [typeLine_eq], plain_lengthLine n⟩

-- ---------------------------------------------------------------------------
-- Where the header ends
-- ---------------------------------------------------------------------------

theorem splitHeader?_header {endpoint : String} (accepted : Settings.Accepts endpoint) (n : Nat)
    (rest : Bytes) :
    splitHeader? (Text.utf8 (String.ofList (header endpoint n)) ++ emptyLine ++ rest) =
      some (Text.utf8 (String.ofList (header endpoint n)), rest) := by
  obtain ⟨request, type, length⟩ := plain_lines accepted n
  rw [header, utf8_lineBreak, utf8_lineBreak]
  simp only [emptyLine, List.append_assoc, List.cons_append, List.nil_append]
  rw [splitHeader?_line (not_infix_of_notMem (Text.notMem_utf8 request)),
    splitHeader?_lineBreak (not_infix_of_notMem (Text.notMem_utf8 type))
      (Text.utf8_ne_nil (by simp [typeLine_eq])),
    splitHeader?_lineBreak (not_infix_of_notMem (Text.notMem_utf8 length))
      (Text.utf8_ne_nil (by simp [lengthLine]))]
  simp [splitHeader?]

-- ---------------------------------------------------------------------------
-- What the header says
-- ---------------------------------------------------------------------------

theorem lines_lengthLine (n : Nat) : lines (lengthLine n) = [lengthLine n] :=
  lines_of_unbroken (unbroken_of_notMem (plain_lengthLine n))

theorem lines_header {endpoint : String} (accepted : Settings.Accepts endpoint) (n : Nat) :
    lines (header endpoint n) = [requestLine endpoint, typeLine, lengthLine n] := by
  obtain ⟨request, type, -⟩ := plain_lines accepted n
  rw [header, lines_lineBreak (unbroken_of_notMem request),
    lines_lineBreak (unbroken_of_notMem type), lines_lengthLine]

/-- The request line is never taken for the length, also where the endpoint holds a colon. -/
theorem lengthField?_requestLine (endpoint : String) :
    lengthField? (requestLine endpoint) = none := by
  obtain ⟨rest, start⟩ : ∃ rest, requestLine endpoint = 'P' :: rest := ⟨_, rfl⟩
  have other : ∀ name, Text.sameIgnoringCase (Text.trim ('P' :: name)) lengthName = false := by
    intro name
    rw [Bool.eq_false_iff, Ne, Text.sameIgnoringCase_iff]
    intro same
    have first := congrArg List.head? same
    rw [Text.lower, List.head?_map, Text.head?_trim (by decide)] at first
    rw [lengthName_eq] at first
    exact absurd first (by decide)
  rw [start, lengthField?, field?]
  split
  · rfl
  · simp [other]

theorem lengthField?_lengthLine (n : Nat) :
    lengthField? (lengthLine n) = some (Decimal.numeral n) := by
  have digits : ∀ c ∈ Decimal.numeral n, Text.isBlank c = false :=
    fun c h => Text.isBlank_of_isDigit (Decimal.isDigit_of_mem_numeral h)
  have value : Text.trim (' ' :: Decimal.numeral n) = Decimal.numeral n := by
    have self := Text.trim_eq_self (fun c h => digits c (List.mem_of_mem_head? h))
      (fun c h => digits c (List.mem_of_mem_getLast? h))
    simpa [Text.trim, show Text.isBlank ' ' = true by decide] using self
  have field : field? (lengthLine n) = some (lengthName, ' ' :: Decimal.numeral n) := by
    have colon : ∀ c ∈ lengthName, (c != ':') = true := by simp [lengthName_eq]
    rw [field?, lengthLine, List.dropWhile_append_of_pos colon, List.takeWhile_append_of_pos colon]
    simp
  have name : Text.sameIgnoringCase (Text.trim lengthName) lengthName = true := by
    rw [lengthName_eq]
    decide
  simp only [lengthField?, field, Option.bind_some, name, if_true, value]

theorem bodyLength_header {endpoint : String} (accepted : Settings.Accepts endpoint) (n : Nat) :
    bodyLength (Text.utf8 (String.ofList (header endpoint n))) =
      length? (Decimal.numeral n) := by
  have typeField : lengthField? typeLine = none := by
    rw [typeLine_eq]
    decide
  simp [bodyLength, lines_header accepted, lengthField?_requestLine, typeField,
    lengthField?_lengthLine]

theorem unsigned?_numeral (n : Nat) : unsigned? (Decimal.numeral n) = some n := by
  unfold unsigned?
  split
  · rename_i digits
    have plus : '+' ∈ Decimal.numeral n := by simp [digits]
    exact absurd (Decimal.isDigit_of_mem_numeral plus) (by decide)
  · exact Decimal.ofNumeral?_numeral n

theorem length?_numeral {n : Nat} (fits : n ≤ maxLength) :
    length? (Decimal.numeral n) = .ok n := by
  have small : ¬ UInt64.size ≤ n := by
    simp only [maxLength, UInt64.size] at *
    omega
  simp only [length?, unsigned?_numeral, if_neg small, if_neg (Nat.not_lt.2 fits)]

namespace Buffer

variable {endpoint : String} {body : Bytes}

theorem splitHeader?_encode (accepted : Settings.Accepts endpoint) (rest : Bytes) :
    splitHeader? (encode endpoint body ++ rest) =
      some (Text.utf8 (String.ofList (header endpoint body.length)), body ++ rest) := by
  rw [encode_eq, List.append_assoc, splitHeader?_header accepted]

/-- A packet comes out of a buffer whole, and takes nothing of what follows it. -/
theorem next_encode (accepted : Settings.Accepts endpoint) (fits : body.length ≤ maxLength)
    (rest : Bytes) : next ⟨encode endpoint body ++ rest⟩ = (.ok (some body), ⟨rest⟩) := by
  simp [next, splitHeader?_encode accepted, bodyLength_header accepted, length?_numeral fits]

theorem next_brief (fits : body.length ≤ maxLength) (rest : Bytes) :
    next ⟨Text.utf8 (String.ofList (lengthLine body.length)) ++ emptyLine ++ body ++ rest⟩ =
      (.ok (some body), ⟨rest⟩) := by
  have split : splitHeader? (Text.utf8 (String.ofList (lengthLine body.length)) ++
        (emptyLine ++ (body ++ rest))) =
      some (Text.utf8 (String.ofList (lengthLine body.length)), body ++ rest) := by
    have plain := Text.notMem_utf8 (plain_lengthLine body.length)
    exact (splitHeader?_line (not_infix_of_notMem plain) _).trans (by simp [splitHeader?])
  have length : bodyLength (Text.utf8 (String.ofList (lengthLine body.length))) =
      .ok body.length := by
    simp [bodyLength, lines_lengthLine, lengthField?_lengthLine, length?_numeral fits]
  simp [next, split, length]

end Buffer

theorem utf8_brief (text : String) :
    Text.utf8 ("Content-Length: " ++ toString text.utf8ByteSize ++ "\r\n\r\n" ++ text) =
      Text.utf8 (String.ofList (lengthLine (Text.utf8 text).length)) ++ emptyLine ++
        Text.utf8 text := by
  have name : "Content-Length: ".toList = lengthName ++ [':', ' '] := by
    rw [lengthName_eq]
    exact String.toList_ofList
  have line : "Content-Length: " ++ toString text.utf8ByteSize =
      String.ofList (lengthLine (Text.utf8 text).length) := by
    apply String.toList_inj.1
    simp [lengthLine, name, Decimal.numeral, toString]
    rfl
  have empty : Text.utf8 "\r\n\r\n" = emptyLine := rfl
  rw [Text.utf8_append, Text.utf8_append, line, empty]

end Packet

end DebugAdapter
