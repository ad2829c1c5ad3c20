import DebugAdapter.Json.Token
import DebugAdapter.Text.Utf8

/-!
# Reading JSON

A value is read from its tokens by a machine with a stack of open containers. Containers may be
nested to a given depth, and a text holds one value and nothing else.
-/

namespace DebugAdapter.Json

/-- A container that is still open, its items so far in reverse. An object also holds the key that
waits for its value. -/
inductive Open where
  | array (items : List Json)
  | object (entries : List (String × Json)) (key : String)

/-- What may come next. -/
inductive Expect where
  | value
  | valueOrClose
  | keyOrClose (entries : List (String × Json))
  | key (entries : List (String × Json))
  | colon (entries : List (String × Json)) (key : String)
  | commaOrClose
  | done (j : Json)

structure Reader where
  expect : Expect
  /-- Innermost container first. -/
  stack : List Open

/-- A finished value goes into the innermost open container. -/
def Reader.deliver (j : Json) : List Open → Reader
  | [] => ⟨.done j, []⟩
  | .array items :: rest => ⟨.commaOrClose, .array (j :: items) :: rest⟩
  | .object entries key :: rest => ⟨.commaOrClose, .object (insertKey key j entries) key :: rest⟩

def Reader.startValue (depth : Nat) (stack : List Open) : Token → Option Reader
  | .text s => some (deliver (.str s) stack)
  | .scalar j => some (deliver j stack)
  | .openBracket =>
    if stack.length < depth then some ⟨.valueOrClose, .array [] :: stack⟩ else none
  | .openBrace =>
    -- The object is pushed with its first key.
    if stack.length < depth then some ⟨.keyOrClose [], stack⟩ else none
  | _ => none

def Reader.step (depth : Nat) (r : Reader) (t : Token) : Option Reader :=
  match r.expect, t, r.stack with
  | .value, t, stack => startValue depth stack t
  | .valueOrClose, .closeBracket, .array items :: stack => some (deliver (.arr items.reverse) stack)
  | .valueOrClose, t, stack => startValue depth stack t
  | .keyOrClose entries, .closeBrace, stack => some (deliver (.obj entries) stack)
  | .keyOrClose entries, .text key, stack => some ⟨.colon entries key, stack⟩
  | .key entries, .text key, stack => some ⟨.colon entries key, stack⟩
  | .colon entries key, .colon, stack => some ⟨.value, .object entries key :: stack⟩
  | .commaOrClose, .comma, .array items :: stack => some ⟨.value, .array items :: stack⟩
  | .commaOrClose, .closeBracket, .array items :: stack => some (deliver (.arr items.reverse) stack)
  | .commaOrClose, .comma, .object entries _ :: stack => some ⟨.key entries, stack⟩
  | .commaOrClose, .closeBrace, .object entries _ :: stack => some (deliver (.obj entries) stack)
  | _, _, _ => none

def Reader.run (depth : Nat) : Reader → List Token → Option Json
  | ⟨.done j, _⟩, [] => some j
  | _, [] => none
  | r, t :: ts => (r.step depth t).bind fun r => run depth r ts

/-- The value that a text holds, with containers nested at most `depth` deep. -/
def read? (depth : Nat) (text : String) : Option Json :=
  (tokens? text.toList).bind (Reader.run depth ⟨.value, []⟩)

def messageDepth : Nat := 127

def ofBytes? (body : Bytes) : Option Json :=
  (Text.ofUtf8? body).bind (read? messageDepth)

end DebugAdapter.Json
