import DebugAdapter.Decimal.Shortest

/-!
# JSON values

A value keeps its object entries as a list. The reader builds every object with its keys in
ascending order and each key once (`insertKey`); typed messages list their fields in declaration
order, and `ordered` brings such a value into the order of the wire. Integers and floats are kept
apart: `1` and `1.0` are different values.
-/

namespace DebugAdapter

inductive Json where
  | null
  | bool (b : Bool)
  | int (n : Int)
  | float (x : Binary64)
  | str (s : String)
  | arr (items : List Json)
  | obj (entries : List (String × Json))
deriving Inhabited

namespace Json

-- ---------------------------------------------------------------------------
-- Objects
-- ---------------------------------------------------------------------------

/-- Enters a key into an ascending list of entries; a present key gets the new value. -/
def insertKey {α : Type} (key : String) (value : α) : List (String × α) → List (String × α)
  | [] => [(key, value)]
  | (k, v) :: rest =>
    if key < k then (key, value) :: (k, v) :: rest
    else if key = k then (key, value) :: rest
    else (k, v) :: insertKey key value rest

/-- The entries in ascending key order; of entries with one key the last counts. -/
def sortKeys {α : Type} (entries : List (String × α)) : List (String × α) :=
  entries.foldl (fun sorted e => insertKey e.1 e.2 sorted) []

def get? (key : String) : Json → Option Json
  | .obj entries => entries.lookup key
  | _ => none

mutual

/-- Every object inside the value with its keys in ascending order. -/
def ordered : Json → Json
  | .arr items => .arr (orderedItems items)
  | .obj entries => .obj (sortKeys (orderedEntries entries))
  | j => j

def orderedItems : List Json → List Json
  | [] => []
  | j :: rest => ordered j :: orderedItems rest

def orderedEntries : List (String × Json) → List (String × Json)
  | [] => []
  | (k, j) :: rest => (k, ordered j) :: orderedEntries rest

end

-- ---------------------------------------------------------------------------
-- Equality
-- ---------------------------------------------------------------------------

mutual

/-- Equality of values. The two zeros among the floats are equal; an integer and a float never
are. -/
def same : Json → Json → Bool
  | .null, .null => true
  | .bool a, .bool b => a == b
  | .int m, .int n => m == n
  | .float x, .float y => x.sameValue y
  | .str s, .str t => s == t
  | .arr xs, .arr ys => sameItems xs ys
  | .obj xs, .obj ys => sameEntries xs ys
  | _, _ => false

def sameItems : List Json → List Json → Bool
  | [], [] => true
  | x :: xs, y :: ys => same x y && sameItems xs ys
  | _, _ => false

def sameEntries : List (String × Json) → List (String × Json) → Bool
  | [], [] => true
  | (k, x) :: xs, (l, y) :: ys => k == l && same x y && sameEntries xs ys
  | _, _ => false

end

instance : BEq Json := ⟨same⟩

end Json

end DebugAdapter
