import DebugAdapter.Codec.Error

/-!
# Codecs

A codec reads a type from JSON and writes it back. What it reads may have had another form than what
it writes; a value that was read is read again from what is written for it.
-/

namespace DebugAdapter

theorem map_eq_ok {ε α β : Type} {x : Except ε α} {f : α → β} {b : β} :
    x.map f = .ok b ↔ ∃ a, x = .ok a ∧ f a = b := by
  cases x with
  | error e => simp [Except.map]
  | ok a => simp [Except.map]

structure Codec (α : Type) where
  decode : Json → Except DecodeError α
  encode : α → Json

namespace Codec

variable {α β : Type}

def text : Codec String where
  decode
    | .str s => .ok s
    | j => .error (.wrongType (.of j) "a string")
  encode := .str

@[simp] theorem text_decode_encode (s : String) : text.decode (text.encode s) = .ok s := rfl

def bool : Codec Bool where
  decode
    | .bool b => .ok b
    | j => .error (.wrongType (.of j) "a boolean")
  encode := .bool

@[simp] theorem bool_decode_encode (b : Bool) : bool.decode (bool.encode b) = .ok b := rfl

/-- Whole numbers of 32 bits; a float is none, even without a fraction. -/
def word : Codec UInt32 where
  decode
    | .int n =>
      if 0 ≤ n ∧ n < UInt32.size then .ok (.ofNat n.toNat)
      else .error (.wrongValue (.integer n) "u32")
    | j => .error (.wrongType (.of j) "u32")
  encode n := .int n.toNat

@[simp] theorem word_decode_encode (n : UInt32) : word.decode (word.encode n) = .ok n := by
  have := n.toNat_lt
  have bound : (0 : Int) ≤ (n.toNat : Int) ∧ (n.toNat : Int) < UInt32.size := by
    simp only [UInt32.size]; omega
  simp only [word, if_pos bound]
  simp

def any : Codec Json := ⟨.ok, id⟩

@[simp] theorem any_decode_encode (j : Json) : any.decode (any.encode j) = .ok j := rfl

-- ---------------------------------------------------------------------------
-- Lists
-- ---------------------------------------------------------------------------

def decodeItems (c : Codec α) : List Json → Except DecodeError (List α)
  | [] => .ok []
  | j :: rest => do
    let a ← c.decode j
    let as ← decodeItems c rest
    .ok (a :: as)

def list (c : Codec α) : Codec (List α) where
  decode
    | .arr items => decodeItems c items
    | j => .error (.wrongType (.of j) "a sequence")
  encode as := .arr (as.map c.encode)

-- ---------------------------------------------------------------------------
-- Enumerations
-- ---------------------------------------------------------------------------

def named? (cases : List (String × α)) (name : String) : Except DecodeError α :=
  match cases.lookup name with
  | some a => .ok a
  | none => .error (.unknownVariant name (cases.map Prod.fst))

/-- A case is written as its name; an object with the name as its only key and null as its value is
read too. -/
def enumeration (cases : List (String × α)) (name : α → String) : Codec α where
  decode
    | .str s => named? cases s
    | .obj [(s, payload)] =>
      match named? cases s, payload with
      | .ok a, .null => .ok a
      | .ok _, j => .error (.wrongType (.of j) "unit")
      | .error e, _ => .error e
    | .obj _ => .error (.wrongValue .map "map with a single key")
    | j => .error (.wrongType (.of j) "string or map")
  encode a := .str (name a)

end Codec

end DebugAdapter
