/-!
# TOML documents

A document is a tree of tables. Whether a table may still be extended depends on how it came about,
so each one remembers that.

* A table under a *header* is complete when the next header comes, and has only one header.
* A table that a longer header *implied* may still get a header of its own.
* A table that *dotted* keys made is extended by more of them, and by headers below it.
* An *inline* table is a value and is never extended.
-/

namespace RwxScene.Toml

/-- How a table came about. -/
inductive Origin where
  | header
  | implied
  | dotted
  | inline
deriving DecidableEq

/-- What a key stands for. -/
inductive Item where
  | string (s : String)
  | integer (n : Int)
  | float (x : Float)
  | bool (b : Bool)
  /-- A date, a time or both. -/
  | moment
  | array (items : List Item)
  | table (origin : Origin) (entries : List (String × Item))
  /-- Tables under the same header in double brackets. -/
  | tables (elements : List (List (String × Item)))

/-- The keys of a table with what they stand for. -/
abbrev Entries := List (String × Item)

namespace Entries

/-- The entries with another item for a key that is there. -/
def replace (e : Entries) (key : String) (item : Item) : Entries :=
  e.map fun (k, old) ↦ if k = key then (k, item) else (k, old)

/-- The entries with a new key, unless it is there already. -/
def add? (e : Entries) (key : String) (item : Item) : Option Entries :=
  if (e.lookup key).isSome then none else some (e ++ [(key, item)])

/-! ### Dotted keys -/

/-- The entries with an item under a dotted key, of which `path` is all but the last part. What the
key leads through has to be open for it, and what it leads to has to come from dotted keys. -/
def insert? (e : Entries) (path : List String) (key : String) (item : Item) : Option Entries :=
  match path with
  | [] => e.add? key item
  | p :: path =>
    match e.lookup p with
    | none => (insert? [] path key item).map fun sub ↦ e ++ [(p, .table .dotted sub)]
    | some (.table .dotted sub) =>
      (insert? sub path key item).map fun sub ↦ e.replace p (.table .dotted sub)
    | some (.table .implied sub) =>
      if path.isEmpty then none
      else (insert? sub path key item).map fun sub ↦ e.replace p (.table .implied sub)
    | some (.tables ts) =>
      match ts.getLast? with
      | none => none
      | some last =>
        if path.isEmpty then none
        else
          (insert? last path key item).map fun last ↦ e.replace p (.tables (ts.dropLast ++ [last]))
    | some _ => none

/-! ### Headers -/

/-- Changes the table that a header leads to; of tables in double brackets the last one is meant.
Tables on the way that are not there yet are implied. -/
def modify? (f : Entries → Option Entries) (e : Entries) : List String → Option Entries
  | [] => f e
  | p :: path =>
    match e.lookup p with
    | none => (modify? f [] path).map fun sub ↦ e ++ [(p, .table .implied sub)]
    | some (.table .inline _) => none
    | some (.table origin sub) =>
      (modify? f sub path).map fun sub ↦ e.replace p (.table origin sub)
    | some (.tables ts) =>
      match ts.getLast? with
      | none => none
      | some last =>
        (modify? f last path).map fun last ↦ e.replace p (.tables (ts.dropLast ++ [last]))
    | some _ => none

/-- Gives a table its header. -/
def openTable? (key : String) (e : Entries) : Option Entries :=
  match e.lookup key with
  | none => some (e ++ [(key, .table .header [])])
  | some (.table .implied sub) => some (e.replace key (.table .header sub))
  | some _ => none

/-- Adds a table under a header in double brackets. -/
def openElement? (key : String) (e : Entries) : Option Entries :=
  match e.lookup key with
  | none => some (e ++ [(key, .tables [[]])])
  | some (.tables ts) => some (e.replace key (.tables (ts ++ [[]])))
  | some _ => none

end Entries

/-- A key with dots: all parts but the last, and the last. -/
structure Key where
  path : List String
  last : String

/-- A key as the parts of a header. -/
def Key.parts (k : Key) : List String := k.path ++ [k.last]

end RwxScene.Toml
