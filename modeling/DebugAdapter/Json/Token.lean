import DebugAdapter.Json.Number
import DebugAdapter.Text.Hexadecimal

/-!
# JSON tokens

A text is first cut into tokens. Blanks are space, tab, line feed and carriage return. A string may
hold any character from U+0020 on other than the quote and the backslash; `\u` escapes of
surrogates count only in pairs.
-/

namespace DebugAdapter.Json

inductive Token where
  | openBrace
  | closeBrace
  | openBracket
  | closeBracket
  | colon
  | comma
  | text (s : String)
  | scalar (j : Json)

def isSpace (c : Char) : Bool := c == ' ' || c == '\t' || c == '\n' || c == '\r'

def unescape? : Char → Option Char
  | '"' => some '"'
  | '\\' => some '\\'
  | '/' => some '/'
  | 'b' => some '\x08'
  | 'f' => some '\x0c'
  | 'n' => some '\n'
  | 'r' => some '\r'
  | 't' => some '\t'
  | _ => none

def isHigh (n : Nat) : Bool := 0xD800 ≤ n && n < 0xDC00

def isLow (n : Nat) : Bool := 0xDC00 ≤ n && n < 0xE000

/-- The characters of a string up to its closing quote, and what follows the quote. -/
def stringBody (acc : List Char) : List Char → Option (List Char × List Char)
  | [] => none
  | '"' :: r => some (acc.reverse, r)
  | '\\' :: 'u' :: a :: b :: c :: d :: '\\' :: 'u' :: a' :: b' :: c' :: d' :: r =>
    match Text.hexadecimal? [a, b, c, d] with
    | none => none
    | some n =>
      if isHigh n then
        match Text.hexadecimal? [a', b', c', d'] with
        | none => none
        | some m =>
          if isLow m then
            stringBody (Char.ofNat (0x10000 + (n - 0xD800) * 0x400 + (m - 0xDC00)) :: acc) r
          else none
      else if isLow n then none
      else stringBody (Char.ofNat n :: acc) ('\\' :: 'u' :: a' :: b' :: c' :: d' :: r)
  | '\\' :: 'u' :: a :: b :: c :: d :: r =>
    match Text.hexadecimal? [a, b, c, d] with
    | none => none
    | some n => if isHigh n || isLow n then none else stringBody (Char.ofNat n :: acc) r
  | '\\' :: e :: r =>
    match unescape? e with
    | none => none
    | some c => stringBody (c :: acc) r
  | c :: r => if c.toNat < 0x20 || c == '\\' then none else stringBody (c :: acc) r

theorem length_of_stringBody {acc cs body rest : List Char}
    (h : stringBody acc cs = some (body, rest)) : rest.length < cs.length := by
  fun_induction stringBody acc cs <;> simp_all <;> omega

def isNumeric (c : Char) : Bool :=
  c.isDigit || c == '-' || c == '+' || c == '.' || c == 'e' || c == 'E'

theorem length_dropWhile_le {α : Type} (p : α → Bool) (l : List α) :
    (l.dropWhile p).length ≤ l.length :=
  (List.dropWhile_sublist p).length_le

/-- The first token of a text, and what follows it. -/
def token? : List Char → Option (Token × List Char)
  | [] => none
  | '{' :: r => some (.openBrace, r)
  | '}' :: r => some (.closeBrace, r)
  | '[' :: r => some (.openBracket, r)
  | ']' :: r => some (.closeBracket, r)
  | ':' :: r => some (.colon, r)
  | ',' :: r => some (.comma, r)
  | '"' :: r =>
    match stringBody [] r with
    | none => none
    | some (body, rest) => some (.text (String.ofList body), rest)
  | 'n' :: 'u' :: 'l' :: 'l' :: r => some (.scalar .null, r)
  | 't' :: 'r' :: 'u' :: 'e' :: r => some (.scalar (.bool true), r)
  | 'f' :: 'a' :: 'l' :: 's' :: 'e' :: r => some (.scalar (.bool false), r)
  | c :: r =>
    if isNumeric c then
      match ofNumeral? (c :: r.takeWhile isNumeric) with
      | none => none
      | some j => some (.scalar j, r.dropWhile isNumeric)
    else none

theorem length_of_token? {cs rest : List Char} {t : Token}
    (h : token? cs = some (t, rest)) : rest.length < cs.length := by
  unfold token? at h
  split at h <;> try (simp at h; done)
  all_goals try (simp at h; obtain ⟨-, rfl⟩ := h; simp; try omega)
  · split at h
    · simp at h
    · rename_i hb
      simp at h
      obtain ⟨-, rfl⟩ := h
      have := length_of_stringBody hb
      simp; omega
  · split at h
    · split at h
      · simp at h
      · simp at h
        obtain ⟨-, rfl⟩ := h
        have := length_dropWhile_le isNumeric ‹_›
        simp; omega
    · simp at h

/-- All tokens of a text, or none where some part of it is no token. -/
def tokens? (cs : List Char) : Option (List Token) :=
  match _start : cs.dropWhile isSpace with
  | [] => some []
  | c :: r =>
    match _first : token? (c :: r) with
    | none => none
    | some (t, rest) => (tokens? rest).map (t :: ·)
termination_by cs.length
decreasing_by
  have := length_of_token? _first
  have := length_dropWhile_le isSpace cs
  rw [_start] at this
  omega

end DebugAdapter.Json
