/-!
# TOML tables

The items of a TOML document and the rules by which its statements build up tables. A table
that a header defines can be defined only once, a table that dotted keys define takes further
dotted keys only, and an inline table is closed. The entries of a table keep the order in which
they were defined.
-/

namespace Rollout.Toml

/-- How a table came about: by its own header, as a part of the path of another header, by
dotted keys, or inline. -/
inductive TableKind where
  | header
  | implied
  | dotted
  | inline
deriving DecidableEq, Repr

/-- A value or a table. Numbers are kept as written, dates and times in their normal form. -/
inductive Item where
  | text (s : String)
  | bool (b : Bool)
  | number (written : String)
  | moment (normal : String)
  | array (items : List Item)
  | table (kind : TableKind) (entries : List (String × Item))
  | tables (elements : List (List (String × Item)))
deriving Repr, Inhabited

/-- The entries of a table in order. -/
abbrev Entries := List (String × Item)

/-- A key with its value; the path leads to the table that gets the entry. -/
structure Pair where
  path : List String
  key : String
  value : Item
deriving Repr

/-- A header: of a table, or of the next element of an array of tables. -/
structure Header where
  path : List String
  key : String
  isElement : Bool
deriving Repr

/-- A statement of a document. -/
inductive Statement where
  | pair (p : Pair)
  | header (h : Header)
deriving Repr

namespace Entries

def get? (es : Entries) (key : String) : Option Item := es.lookup key

/-- Puts another item in the place of an entry. -/
def replace (es : Entries) (key : String) (item : Item) : Entries :=
  es.map fun (k, old) => (k, if k = key then item else old)

def add (es : Entries) (key : String) (item : Item) : Entries := es ++ [(key, item)]

/-- Changes the last element. -/
def onLast {α : Type} (f : α → Option α) : List α → Option (List α)
  | [] => none
  | [x] => (f x).map fun y => [y]
  | x :: xs => (onLast f xs).map (x :: ·)

/-- Changes the table that the path of a header leads to; missing tables are implied. -/
def along (f : Entries → Option Entries) : List String → Entries → Option Entries
  | [], es => f es
  | key :: path, es =>
    match es.get? key with
    | none => (along f path []).map fun inner => es.add key (.table .implied inner)
    | some (.table .inline _) => none
    | some (.table kind inner) =>
      (along f path inner).map fun inner => es.replace key (.table kind inner)
    | some (.tables elements) =>
      (onLast (along f path) elements).map fun elements => es.replace key (.tables elements)
    | some _ => none

/-- Adds an entry to the table that a dotted key leads to. -/
def addDotted (key : String) (item : Item) : List String → Entries → Option Entries
  | [], es => if (es.get? key).isSome then none else some (es.add key item)
  | name :: path, es =>
    match es.get? name with
    | none => (addDotted key item path []).map fun inner => es.add name (.table .dotted inner)
    | some (.table .dotted inner) =>
      (addDotted key item path inner).map fun inner => es.replace name (.table .dotted inner)
    | some (.table .implied inner) =>
      if path = [] then none
      else (addDotted key item path inner).map fun inner =>
        es.replace name (.table .implied inner)
    | some (.tables elements) =>
      if path = [] then none
      else (onLast (addDotted key item path) elements).map fun elements =>
        es.replace name (.tables elements)
    | some _ => none

def addPairs (pairs : List Pair) (es : Entries) : Option Entries :=
  pairs.foldlM (fun es p => addDotted p.key p.value p.path es) es

/-- Adds a table with its pairs. A table that was implied so far moves to the end. -/
def addTable (h : Header) (pairs : List Pair) : Entries → Option Entries :=
  along (fun es =>
    match es.get? h.key, h.isElement with
    | none, false => (addPairs pairs []).map fun inner => es.add h.key (.table .header inner)
    | some (.table .implied inner), false =>
      (addPairs pairs inner).map fun inner =>
        add (es.filter (·.1 ≠ h.key)) h.key (.table .header inner)
    | none, true => (addPairs pairs []).map fun inner => es.add h.key (.tables [inner])
    | some (.tables elements), true =>
      (addPairs pairs []).map fun inner => es.replace h.key (.tables (elements ++ [inner]))
    | _, _ => none) h.path

/-- The pairs before the first header, and each header with the pairs below it. -/
def sections : List Statement → List Pair × List (Header × List Pair)
  | [] => ([], [])
  | .pair p :: rest => ((p :: (sections rest).1), (sections rest).2)
  | .header h :: rest => ([], (h, (sections rest).1) :: (sections rest).2)

/-- The table of a document. -/
def ofStatements? (statements : List Statement) : Option Entries := do
  let (pairs, tables) := sections statements
  let es ← addPairs pairs []
  tables.foldlM (fun es (h, pairs) => addTable h pairs es) es

end Entries
end Rollout.Toml
