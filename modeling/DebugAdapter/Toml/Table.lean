/-!
# TOML tables

The values of a TOML document. A table remembers how it came about, for that decides what may
still be added to it: each table has one definition, and a value is set once. Arrays of tables are
not kept.
-/

namespace DebugAdapter.Toml

inductive TableKind where
  /-- Defined by a header of its own. -/
  | header
  /-- Only named on the way to another table; a header may still define it. -/
  | implied
  /-- Made by dotted keys, which may add to it. -/
  | dotted
  /-- Written in braces, and complete. -/
  | inline
deriving DecidableEq, Repr

inductive Value where
  | text (s : String)
  /-- A number, a truth value or a moment. -/
  | scalar
  | array (items : List Value)
  | table (kind : TableKind) (entries : List (String × Value))
deriving Inhabited

abbrev Entries := List (String × Value)

def Entries.replace (entries : Entries) (key : String) (value : Value) : Entries :=
  entries.map fun e => if e.1 = key then (key, value) else e

def Entries.define (entries : Entries) : List String → Option Entries
  | [] => none
  | [key] =>
    match entries.lookup key with
    | none => some (entries ++ [(key, .table .header [])])
    | some (.table .implied inner) => some (entries.replace key (.table .header inner))
    | some _ => none
  | key :: keys =>
    match entries.lookup key with
    | none => (define [] keys).map fun inner => entries ++ [(key, .table .implied inner)]
    | some (.table .inline _) => none
    | some (.table kind inner) =>
      (define inner keys).map fun inner => entries.replace key (.table kind inner)
    | some _ => none

/-- Sets the value of a dotted key. The last table on its way must come from dotted keys. -/
def Entries.assign (entries : Entries) : List String → Value → Option Entries
  | [], _ => none
  | [key], value =>
    match entries.lookup key with
    | none => some (entries ++ [(key, value)])
    | some _ => none
  | key :: keys, value =>
    match entries.lookup key with
    | none => (assign [] keys value).map fun inner => entries ++ [(key, .table .dotted inner)]
    | some (.table .dotted inner) =>
      (assign inner keys value).map fun inner => entries.replace key (.table .dotted inner)
    | some (.table .implied inner) =>
      if keys.length = 1 then none
      else (assign inner keys value).map fun inner => entries.replace key (.table .implied inner)
    | some _ => none

def Entries.assignBelow (entries : Entries) (header keys : List String) (value : Value) :
    Option Entries :=
  match header with
  | [] => entries.assign keys value
  | key :: header =>
    match entries.lookup key with
    | some (.table kind inner) =>
      (assignBelow inner header keys value).map fun inner =>
        entries.replace key (.table kind inner)
    | _ => none

end DebugAdapter.Toml
