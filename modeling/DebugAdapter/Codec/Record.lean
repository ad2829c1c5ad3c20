import DebugAdapter.Codec.Basic

/-!
# Records

The codec of a structure comes from the list of its fields. An object is read entry by entry, in
the order of its entries, keys that name no field being passed over; afterwards the fields that got
no value are looked at in declaration order. An array is read as the fields in declaration order.
Records are written as objects with the fields in declaration order.
-/

namespace DebugAdapter

/-- One field: how its value is read and written, and what counts where it is left out. -/
structure Field (α : Type) where
  name : String
  /-- A second key under which the field is read. -/
  alias? : Option String
  decode : Json → Except DecodeError α
  /-- None where the value is written by leaving the field out. -/
  encode : α → Option Json
  /-- The value where an object lacks the field. -/
  absent : Option α
  /-- The value where an array ends before the field. -/
  short : Option α

namespace Field

variable {α : Type}

def required (name : String) (c : Codec α) : Field α where
  name := name
  alias? := none
  decode := c.decode
  encode a := some (c.encode a)
  absent := none
  short := none

def aliased (name other : String) (c : Codec α) : Field α :=
  { required name c with alias? := some other }

/-- Null counts as left out, and an array has to hold the field all the same. -/
def optional (name : String) (c : Codec α) : Field (Option α) where
  name := name
  alias? := none
  decode
    | .null => .ok none
    | j => (c.decode j).map some
  encode a := a.map c.encode
  absent := some none
  short := none

/-- A field that may be left out but not null. -/
def defaulted (name : String) (c : Codec α) (value : α) : Field α :=
  { required name c with absent := some value, short := some value }

/-- A list that is left out where it is empty. -/
def nonempty (name : String) (c : Codec α) : Field (List α) :=
  { defaulted name c.list [] with
    encode := fun as => if as.isEmpty then none else some (c.list.encode as) }

def answersTo (f : Field α) (key : String) : Bool := f.name == key || f.alias? == some key

end Field

-- ---------------------------------------------------------------------------
-- Field lists
-- ---------------------------------------------------------------------------

inductive Fields : List Type → Type 1 where
  | nil : Fields []
  | cons {α : Type} {αs : List Type} (field : Field α) (rest : Fields αs) : Fields (α :: αs)

@[reducible] def Row : List Type → Type
  | [] => Unit
  | α :: αs => α × Row αs

@[reducible] def Slots : List Type → Type
  | [] => Unit
  | α :: αs => Option α × Slots αs

namespace Fields

def size : {αs : List Type} → Fields αs → Nat
  | _, .nil => 0
  | _, .cons _ rest => rest.size + 1

def vacant : {αs : List Type} → Fields αs → Slots αs
  | _, .nil => ()
  | _, .cons _ rest => (none, rest.vacant)

def put (key : String) (j : Json) :
    {αs : List Type} → Fields αs → Slots αs → Except DecodeError (Slots αs)
  | _, .nil, () => .ok ()
  | _, .cons f rest, (slot, slots) =>
    if f.answersTo key then
      match slot with
      | some _ => .error (.duplicateField f.name)
      | none => (f.decode j).map fun a => (some a, slots)
    else (put key j rest slots).map fun slots => (slot, slots)

def putAll {αs : List Type} (fields : Fields αs) :
    List (String × Json) → Slots αs → Except DecodeError (Slots αs)
  | [], slots => .ok slots
  | (key, j) :: entries, slots => (fields.put key j slots).bind (fields.putAll entries)

/-- Gives every empty slot the value of its absent field. -/
def complete : {αs : List Type} → Fields αs → Slots αs → Except DecodeError (Row αs)
  | _, .nil, () => .ok ()
  | _, .cons f rest, (slot, slots) =>
    match slot.or f.absent with
    | none => .error (.missingField f.name)
    | some a => (rest.complete slots).map fun row => (a, row)

def takeItems (wanted : String) (before : Nat) :
    {αs : List Type} → Fields αs → List Json → Except DecodeError (Row αs × List Json)
  | _, .nil, items => .ok ((), items)
  | _, .cons f rest, j :: items =>
    (f.decode j).bind fun a =>
      (takeItems wanted (before + 1) rest items).map fun (row, left) => ((a, row), left)
  | _, .cons f rest, [] =>
    match f.short with
    | none => .error (.wrongLength before wanted)
    | some a =>
      (takeItems wanted (before + 1) rest []).map fun (row, left) => ((a, row), left)

def entries : {αs : List Type} → Fields αs → Row αs → List (String × Json)
  | _, .nil, () => []
  | _, .cons f rest, (a, row) =>
    match f.encode a with
    | none => rest.entries row
    | some j => (f.name, j) :: rest.entries row

end Fields

-- ---------------------------------------------------------------------------
-- The codec of a structure
-- ---------------------------------------------------------------------------

/-- What an array too short for a record should have been. -/
def recordOfSize (name : String) (n : Nat) : String :=
  if n = 1 then s!"struct {name} with 1 element" else s!"struct {name} with {n} elements"

def Codec.record {α : Type} {αs : List Type} (name : String) (fields : Fields αs)
    (ofRow : Row αs → α) (toRow : α → Row αs) : Codec α where
  decode
    | .obj entries => ((fields.putAll entries fields.vacant).bind fields.complete).map ofRow
    | .arr items =>
      match fields.takeItems (recordOfSize name fields.size) 0 items with
      | .error e => .error e
      | .ok (row, []) => .ok (ofRow row)
      | .ok (_, _ :: _) => .error (.wrongLength items.length "fewer elements in array")
    | j => .error (.wrongType (.of j) s!"struct {name}")
  encode a := .obj (fields.entries (toRow a))

end DebugAdapter
