import Rollout.Dict
import Rollout.Path

/-!
# Nodes

A node is a file or a folder of named nodes. A location, the list of names that leads from a
node to one inside it, is followed by `at?`; `alter` changes what a location leads to, and
`find?_alter_append` and `entry_find?_alter` say what is found afterwards.
-/

namespace Rollout

/-- The names that lead to a node. -/
abbrev Location := List String

/-- The content of a file: a text, or bytes that are the encoding of none. -/
inductive Content where
  | text (s : String)
  | bytes (bs : List UInt8)
deriving DecidableEq, Repr, Inhabited

/-- What a node is, the entries of a folder aside. -/
inductive Entry where
  | folder
  | file (content : Content)
deriving DecidableEq, Repr, Inhabited

/-- A file, or a folder with its entries by name. -/
inductive Node where
  | file (content : Content)
  | folder (entries : List (String × Node))
deriving Repr, Inhabited

namespace Node

/-- A node with nothing in it. -/
def ofEntry : Entry → Node
  | .folder => .folder []
  | .file content => .file content

def entry : Node → Entry
  | .file content => .file content
  | .folder _ => .folder

/-- The nodes in a folder. -/
def entries : Node → Dict Node
  | .file _ => []
  | .folder es => es

/-- The node that names lead to. -/
def at? : Location → Node → Option Node
  | [], n => some n
  | name :: rest, n => (Dict.get? name n.entries).bind (at? rest)

/-- Changes what names lead to, where a folder is there to hold it. -/
def alter (f : Option Node → Option Node) : Location → Option Node → Option Node
  | [], n => f n
  | name :: rest, some (.folder es) =>
    some (.folder (Dict.set name (alter f rest (Dict.get? name es)) es))
  | _ :: _, n => n

/-- An entry where names lead to, in folders that are made where they are missing. A folder that
is there already stays. -/
def planted (e : Entry) : Location → Option Node → Node
  | [], some (.folder es) => if e = .folder then .folder es else .ofEntry e
  | [], _ => .ofEntry e
  | name :: rest, n =>
    let es := (n.map entries).getD []
    .folder (Dict.insert name (planted e rest (Dict.get? name es)) es)

mutual

/-- The nodes inside a node, in the order of their names. -/
def inside : Node → List (Location × Node)
  | .file _ => []
  | .folder es => insideAll es

def insideAll : List (String × Node) → List (Location × Node)
  | [] => []
  | (name, n) :: es => ([name], n) :: (inside n).map (fun (l, m) => (name :: l, m)) ++ insideAll es

end

/-- What names lead to, from a node if there is one. -/
def find? (l : Location) (n : Option Node) : Option Node := n.bind (at? l)

theorem find?_none (l : Location) : find? l none = none := rfl

theorem find?_nil (n : Option Node) : find? [] n = n := by cases n <;> rfl

theorem find?_cons (name : String) (l : Location) (n : Option Node) :
    find? (name :: l) n = find? l (n.bind fun m => Dict.get? name m.entries) := by
  cases n <;> rfl

theorem find?_append (k l : Location) (n : Option Node) :
    find? (k ++ l) n = find? l (find? k n) := by
  induction k generalizing n with
  | nil => rw [find?_nil, List.nil_append]
  | cons name k ih => rw [List.cons_append, find?_cons, find?_cons, ih]

/-- A change is found at its location, if a folder is there to hold it. -/
theorem find?_alter_append (f : Option Node → Option Node) (k l : Location) (n : Option Node)
    (h : k = [] ∨ (find? k.dropLast n).map entry = some .folder) :
    find? (k ++ l) (alter f k n) = find? l (f (find? k n)) := by
  induction k generalizing n with
  | nil => simp [alter, find?_nil]
  | cons name k ih =>
    match n with
    | none => simp [find?_none] at h
    | some (.file c) =>
      cases k <;> simp [find?, at?, entry, entries, Dict.get?] at h
    | some (.folder es) =>
      simp only [alter, List.cons_append, find?_cons, Option.bind_some, entries, Dict.get?_set,
        if_true]
      refine ih _ ?_
      cases k with
      | nil => exact Or.inl rfl
      | cons name' k =>
        right
        simpa [find?_cons, entries] using h

/-- What is not at or below its location is not affected by a change. -/
theorem entry_find?_alter (f : Option Node → Option Node) {k l : Location} (n : Option Node)
    (h : ¬ k <+: l) : (find? l (alter f k n)).map entry = (find? l n).map entry := by
  induction k generalizing n l with
  | nil => exact absurd l.nil_prefix h
  | cons name k ih =>
    match n, l with
    | none, _ => rfl
    | some (.file c), _ => rfl
    | some (.folder es), [] => rfl
    | some (.folder es), name' :: l =>
      simp only [alter, find?_cons, Option.bind_some, entries, Dict.get?_set]
      by_cases hn : name = name'
      · subst hn
        rw [if_pos rfl]
        exact ih _ fun hp => h ((List.cons_prefix_cons).2 ⟨rfl, hp⟩)
      · rw [if_neg hn]

/-- Nothing is found at or below a location from which a node was taken. -/
theorem find?_alter_none {k : Location} (l : Location) (n : Option Node) (h : k ≠ []) :
    find? (k ++ l) (alter (fun _ => none) k n) = none := by
  induction k generalizing n with
  | nil => exact absurd rfl h
  | cons name k ih =>
    match n with
    | none => rfl
    | some (.file c) => rfl
    | some (.folder es) =>
      simp only [alter, List.cons_append, find?_cons, Option.bind_some, entries, Dict.get?_set,
        if_true]
      cases k with
      | nil => rfl
      | cons name' k => exact ih _ (by simp)

end Node
end Rollout
