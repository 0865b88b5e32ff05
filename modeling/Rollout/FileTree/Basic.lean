import Rollout.FileTree.Node

/-!
# File trees

A tree is a folder from which all others are reached. `get?` is the view by which the edits are
described: `get?_put`, `get?_remove`, `get?_clear` and `get?_move` say what is where after each.
Edits do not fail: they are what remains of an operation once its checks are done.
-/

namespace Rollout

/-- The entries of the top folder. -/
structure Tree where
  entries : List (String × Node)
deriving Repr, Inhabited

/-- A change of a tree. -/
inductive Edit where
  | put (at_ : Location) (entry : Entry)
  | remove (at_ : Location)
  /-- Takes everything out of a folder. -/
  | clear (at_ : Location)
  | move (source target : Location)
deriving Repr

namespace Tree

def node? (t : Tree) (l : Location) : Option Node := Node.find? l (some (.folder t.entries))

def get? (t : Tree) (l : Location) : Option Entry := (t.node? l).map Node.entry

def isFolder (t : Tree) (l : Location) : Bool := t.get? l = some .folder

/-- What is in a folder, by name. -/
def entriesOf (t : Tree) (l : Location) : Dict Node := ((t.node? l).map Node.entries).getD []

def ofNode (n : Option Node) : Tree := ⟨(n.map Node.entries).getD []⟩

/-- Changes what is at a location, where a folder is there to hold it. -/
def alter (f : Option Node → Option Node) (l : Location) (t : Tree) : Tree :=
  ofNode (Node.alter f l (some (.folder t.entries)))

/-- Puts an entry at a location in place of what was there. -/
def put (t : Tree) (l : Location) (e : Entry) : Tree := t.alter (fun _ => some (.ofEntry e)) l

/-- Puts an entry at a location with the folders that lead there. -/
def plant (t : Tree) (l : Location) (e : Entry) : Tree :=
  ofNode (Node.planted e l (some (.folder t.entries)))

/-- Removes a location with everything below it. -/
def remove (t : Tree) (l : Location) : Tree := t.alter (fun _ => none) l

/-- Removes everything below a location. -/
def clear (t : Tree) (l : Location) : Tree := t.alter (·.map fun n => .ofEntry n.entry) l

/-- Moves a location with everything below it, in place of what was at the target. -/
def move (t : Tree) (source target : Location) : Tree :=
  (t.remove source).alter (fun _ => t.node? source) target

theorem get?_nil (t : Tree) : t.get? [] = some .folder := rfl

theorem node?_alter (t : Tree) (f : Option Node → Option Node) {k : Location} (h : k ≠ []) :
    some (.folder (t.alter f k).entries) = Node.alter f k (some (.folder t.entries)) := by
  match k with
  | [] => exact absurd rfl h
  | _ :: _ => rfl

/-- What is not at or below its location is not affected by a change. -/
theorem get?_alter_of_not_prefix (t : Tree) (f : Option Node → Option Node) {k l : Location}
    (h : ¬ k <+: l) : (t.alter f k).get? l = t.get? l := by
  have hk : k ≠ [] := by
    rintro rfl
    exact h l.nil_prefix
  unfold get? node?
  rw [node?_alter t f hk]
  exact Node.entry_find?_alter f _ h

theorem node?_alter_append (t : Tree) (f : Option Node → Option Node) {k : Location} (l : Location)
    (hk : k ≠ []) (h : t.isFolder k.dropLast) :
    (t.alter f k).node? (k ++ l) = Node.find? l (f (t.node? k)) := by
  unfold node?
  rw [node?_alter t f hk]
  exact Node.find?_alter_append f k l _ (Or.inr (by simpa [isFolder, get?, node?] using h))

theorem get?_remove (t : Tree) {k : Location} (l : Location) (hk : k ≠ []) :
    (t.remove k).get? l = if k <+: l then none else t.get? l := by
  by_cases h : k <+: l
  · obtain ⟨r, rfl⟩ := h
    rw [if_pos (List.prefix_append k r)]
    unfold get? node? remove
    rw [node?_alter t _ hk, Node.find?_alter_none r _ hk]
    rfl
  · rw [if_neg h]
    exact get?_alter_of_not_prefix t _ h

theorem entry_find?_ofEntry (e : Entry) (l : Location) :
    (Node.find? l (some (.ofEntry e))).map Node.entry = if l = [] then some e else none := by
  cases e <;> cases l <;> rfl

theorem get?_put (t : Tree) {k : Location} (l : Location) (e : Entry) (hk : k ≠ [])
    (h : t.isFolder k.dropLast) :
    (t.put k e).get? l = if l = k then some e else if k <+: l then none else t.get? l := by
  by_cases hp : k <+: l
  · obtain ⟨r, rfl⟩ := hp
    unfold get? put
    rw [node?_alter_append t _ r hk h, entry_find?_ofEntry]
    simp
  · have hl : l ≠ k := by
      rintro rfl
      exact hp List.prefix_rfl
    rw [if_neg hl, if_neg hp]
    exact get?_alter_of_not_prefix t _ hp

theorem get?_clear (t : Tree) {k : Location} (l : Location) (hk : k ≠ [])
    (h : t.isFolder k.dropLast) :
    (t.clear k).get? l = if k <+: l ∧ l ≠ k then none else t.get? l := by
  by_cases hp : k <+: l
  · obtain ⟨r, rfl⟩ := hp
    unfold clear
    rw [get?, node?_alter_append t _ r hk h]
    cases hn : t.node? k with
    | none =>
      have : t.get? (k ++ r) = none := by
        unfold get? node? at *
        rw [Node.find?_append, hn]
        rfl
      rw [this]
      simp [Node.find?]
    | some n =>
      rw [Option.map_some, entry_find?_ofEntry]
      cases r with
      | nil => simp [get?, hn]
      | cons name r => simp
  · rw [if_neg fun hl => hp hl.1]
    exact get?_alter_of_not_prefix t _ hp

/-- After a move the target holds what the source held, and the source nothing. -/
theorem get?_move (t : Tree) {a b : Location} (l : Location) (ha : a ≠ []) (hb : b ≠ [])
    (h : (t.remove a).isFolder b.dropLast) :
    (t.move a b).get? l =
      if b <+: l then t.get? (a ++ l.drop b.length) else if a <+: l then none else t.get? l := by
  by_cases hp : b <+: l
  · obtain ⟨r, rfl⟩ := hp
    rw [if_pos (List.prefix_append b r), List.drop_left]
    unfold move get? node?
    rw [← node?, node?_alter_append _ _ r hb h, Node.find?_append]
  · rw [if_neg hp, ← get?_remove t l ha]
    exact get?_alter_of_not_prefix _ _ hp

/-- The nodes below a location, by their names from there, in the order of the names. -/
def nodesBelow (t : Tree) (l : Location) : List (Location × Node) :=
  ((t.node? l).map Node.inside).getD []

/-- The files below a location, by their names from there, in the order of the names. -/
def filesBelow (t : Tree) (l : Location) : List (Location × Content) :=
  (t.nodesBelow l).filterMap fun (k, n) => match n with
    | .file content => some (k, content)
    | .folder _ => none

/-- The folders below a location that hold nothing. -/
def emptyFoldersBelow (t : Tree) (l : Location) : List Location :=
  (t.nodesBelow l).filterMap fun (k, n) => match n with
    | .folder [] => some k
    | _ => none

end Tree

def Edit.apply (t : Tree) : Edit → Tree
  | .put l e => t.put l e
  | .remove l => t.remove l
  | .clear l => t.clear l
  | .move source target => t.move source target

end Rollout
