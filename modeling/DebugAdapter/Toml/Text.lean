import DebugAdapter.Text.Hexadecimal

/-!
# TOML strings

The four kinds of strings, each read from behind its opening quotes: escapes are known between
double quotes only, and line ends between three quotes only. They stay as they are written, but
for one right behind the opening quotes, which is dropped.
-/

namespace DebugAdapter.Toml

def isBlank (c : Char) : Bool := c == ' ' || c == '\t'

/-- Every character but the control characters; a tab is allowed. -/
def isAllowed (c : Char) : Bool := c == '\t' || (0x20 ≤ c.toNat && c.toNat != 0x7F)

-- ---------------------------------------------------------------------------
-- Escapes
-- ---------------------------------------------------------------------------

def letterEscapes : List (Char × Char) :=
  [('b', '\x08'), ('t', '\t'), ('n', '\n'), ('f', '\x0c'), ('r', '\r'), ('e', '\x1b'),
   ('"', '"'), ('\\', '\\')]

def escape? : List Char → Option (Char × List Char)
  | 'x' :: a :: b :: r => (Text.codePoint? [a, b]).map fun c => (c, r)
  | 'u' :: a :: b :: c :: d :: r => (Text.codePoint? [a, b, c, d]).map fun c => (c, r)
  | 'U' :: a :: b :: c :: d :: e :: f :: g :: h :: r =>
    (Text.codePoint? [a, b, c, d, e, f, g, h]).map fun c => (c, r)
  | c :: r => (letterEscapes.lookup c).map fun c => (c, r)
  | [] => none

theorem length_of_escape? {cs rest : List Char} {c : Char} (h : escape? cs = some (c, rest)) :
    rest.length < cs.length := by
  unfold escape? at h
  split at h <;> simp at h
  all_goals
    obtain ⟨_, -, -, rfl⟩ := h
    simp
  all_goals omega

-- ---------------------------------------------------------------------------
-- One line
-- ---------------------------------------------------------------------------

def basic (cs : List Char) : Option (List Char × List Char) :=
  match cs with
  | [] => none
  | '"' :: r => some ([], r)
  | '\\' :: r =>
    match _h : escape? r with
    | none => none
    | some (c, r) => (basic r).map fun (s, rest) => (c :: s, rest)
  | c :: r => if isAllowed c then (basic r).map fun (s, rest) => (c :: s, rest) else none
termination_by cs.length
decreasing_by
  · have := length_of_escape? _h
    simp; omega
  · simp

def literal : List Char → Option (List Char × List Char)
  | [] => none
  | '\'' :: r => some ([], r)
  | c :: r => if isAllowed c then (literal r).map fun (s, rest) => (c :: s, rest) else none

-- ---------------------------------------------------------------------------
-- Several lines
-- ---------------------------------------------------------------------------

def afterLineEnd? : List Char → Option (List Char)
  | '\n' :: r => some r
  | '\r' :: '\n' :: r => some r
  | _ => none

/-- Three quotes close a string of several lines. Up to two more in front of them belong to it. -/
def closing? (quote : Char) (cs : List Char) : Option (List Char × List Char) :=
  let quotes := (cs.takeWhile (· == quote)).length
  if quotes < 3 then none
  else
    let inside := min (quotes - 3) 2
    some (List.replicate inside quote, cs.drop (inside + 3))

/-- What follows a backslash at the end of a line: the next text, whatever blanks and line ends
come first. -/
def continuation? (cs : List Char) : Option (List Char) :=
  match afterLineEnd? (cs.dropWhile isBlank) with
  | none => none
  | some r => some (skip r)
where
  skip : List Char → List Char
    | '\n' :: r => skip r
    | '\r' :: '\n' :: r => skip r
    | c :: r => if isBlank c then skip r else c :: r
    | [] => []

theorem length_skip_le (cs : List Char) : (continuation?.skip cs).length ≤ cs.length := by
  fun_induction continuation?.skip cs <;> simp_all <;> omega

theorem length_of_continuation? {cs rest : List Char} (h : continuation? cs = some rest) :
    rest.length < cs.length := by
  unfold continuation? at h
  split at h
  · cases h
  · rename_i r hr
    cases h
    have skipped := length_skip_le r
    have blanks : (cs.dropWhile isBlank).length ≤ cs.length :=
      (List.dropWhile_suffix isBlank).length_le
    unfold afterLineEnd? at hr
    split at hr <;> simp at hr <;> simp_all <;> omega

/-- What a string of several lines may hold: what one line may hold, and line ends. -/
def isAllowedInside (c : Char) (rest : List Char) : Bool :=
  isAllowed c || c == '\n' || (c == '\r' && rest.head? == some '\n')

def multilineBasic (cs : List Char) : Option (List Char × List Char) :=
  match closing? '"' cs with
  | some closed => some closed
  | none =>
    match cs with
    | [] => none
    | '\\' :: r =>
      match _h : continuation? r with
      | some r => multilineBasic r
      | none =>
        match _h : escape? r with
        | none => none
        | some (c, r) => (multilineBasic r).map fun (s, rest) => (c :: s, rest)
    | c :: r =>
      if isAllowedInside c r then (multilineBasic r).map fun (s, rest) => (c :: s, rest)
      else none
termination_by cs.length
decreasing_by
  · have := length_of_continuation? _h
    simp; omega
  · have := length_of_escape? _h
    simp; omega
  · simp

def multilineLiteral (cs : List Char) : Option (List Char × List Char) :=
  match closing? '\'' cs with
  | some closed => some closed
  | none =>
    match cs with
    | [] => none
    | c :: r =>
      if isAllowedInside c r then (multilineLiteral r).map fun (s, rest) => (c :: s, rest)
      else none

def string? (cs : List Char) : Option (List Char × List Char) :=
  match cs with
  | '"' :: '"' :: '"' :: r =>
    multilineBasic ((afterLineEnd? r).getD r)
  | '\'' :: '\'' :: '\'' :: r =>
    multilineLiteral ((afterLineEnd? r).getD r)
  | '"' :: r => basic r
  | '\'' :: r => literal r
  | _ => none

end DebugAdapter.Toml
