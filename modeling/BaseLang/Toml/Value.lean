/-!
# Values of a TOML document

* `Toml.Value` : the values; numbers with a fraction or exponent and dates keep only their kind;
* `Toml.Item`, `Toml.Entries` : a document while it is put together, with how each table was made;
* `Toml.define`, `Toml.openTable`, `Toml.openElement` : a key, a table header, and the header of one
  more table in an array, each refused where it would define something twice;
* `Toml.Entries.value` : the finished document.
-/

namespace BaseLang.Toml

inductive Value where
  | string (text : String)
  | integer (value : Int)
  | float
  | boolean (value : Bool)
  | date
  | array (elems : List Value)
  | table (entries : List (String × Value))
  deriving Inhabited

/-- How a table came to be: by its own header, on the way to a header further down, or by a key with
dots. -/
inductive Origin where
  | header
  | passed
  | dotted
  deriving DecidableEq

/-- Part of a document under construction: a value, a table that may still grow, or an array of tables
of which the last may still grow. -/
inductive Item where
  | value (v : Value)
  | table (origin : Origin) (entries : List (String × Item))
  | tables (elems : List (List (String × Item)))

abbrev Entries := List (String × Item)

/-- The entry of a key put in with what `f` makes of the one that is there. -/
def alter (key : String) (f : Option Item → Option Item) : Entries → Option Entries
  | [] => (f none).map fun item => [(key, item)]
  | (k, item) :: rest =>
    if k = key then (f (some item)).map fun item => (k, item) :: rest
    else (alter key f rest).map fun rest => (k, item) :: rest

def alterLast {α : Type} (f : α → Option α) : List α → Option (List α)
  | [] => none
  | [a] => (f a).map fun a => [a]
  | a :: as => (alterLast f as).map fun as => a :: as

/-- The table reached along a path changed by `f`. Missing tables are made on the way, with the given
origin. A key with dots does not enter a table that has a header. -/
def descend (made : Origin) (f : Origin → Entries → Option (Origin × Entries)) :
    List String → Origin → Entries → Option (Origin × Entries)
  | [], origin, entries => f origin entries
  | key :: path, origin, entries =>
    (alter key (fun
      | none => (descend made f path made []).map fun r => .table r.1 r.2
      | some (.value _) => none
      | some (.table o es) =>
        if made = .dotted && o = .header then none
        else (descend made f path o es).map fun r => .table r.1 r.2
      | some (.tables elems) =>
        (alterLast (fun es => (descend made f path .header es).map (·.2)) elems).map .tables)
      entries).map fun es => (origin, es)

/-- Defines a key below a table. The last of its names must be new, and the table that it is put into
must have been made by keys with dots as well, unless it is the table itself. -/
def define (path : List String) (key : String) (v : Value) (entries : Entries) : Option Entries :=
  (descend .dotted (fun origin es =>
    if path ≠ [] && origin ≠ .dotted then none
    else (alter key (fun
      | none => some (.value v)
      | some _ => none) es).map fun es => (origin, es)) path .header entries).map (·.2)

/-- Opens a table by its header. It may have been passed before, but not defined. -/
def openTable (path : List String) (key : String) (entries : Entries) : Option Entries :=
  (descend .passed (fun origin es => (alter key (fun
    | none => some (.table .header [])
    | some (.table .passed es) => some (.table .header es)
    | some _ => none) es).map fun es => (origin, es)) path .header entries).map (·.2)

def openElement (path : List String) (key : String) (entries : Entries) : Option Entries :=
  (descend .passed (fun origin es => (alter key (fun
    | none => some (.tables [[]])
    | some (.tables elems) => some (.tables (elems ++ [[]]))
    | some _ => none) es).map fun es => (origin, es)) path .header entries).map (·.2)

/-- Changes the table that a header has opened. -/
def inTable (path : List String) (f : Entries → Option Entries) (entries : Entries) :
    Option Entries :=
  (descend .passed (fun origin es => (f es).map fun es => (origin, es)) path .header entries).map
    (·.2)

mutual

def Item.finish : Item → Value
  | .value v => v
  | .table _ entries => .table (finishEntries entries)
  | .tables elems => .array (finishTables elems)

def finishEntries : List (String × Item) → List (String × Value)
  | [] => []
  | (key, item) :: rest => (key, item.finish) :: finishEntries rest

def finishTables : List (List (String × Item)) → List Value
  | [] => []
  | entries :: rest => .table (finishEntries entries) :: finishTables rest

end

end BaseLang.Toml
