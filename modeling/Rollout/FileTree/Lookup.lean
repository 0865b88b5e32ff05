import Rollout.FileTree.Basic

/-!
# Where a path leads

A path is followed name by name from the current folder or from the top. On the way every
entry must be a folder, and double dots lead to the folder above. Following a path fails when
something is absent, or because the path is unusable: it runs through a file, a name cannot be
one, or the path itself cannot.
-/

namespace Rollout

/-- Why a path leads nowhere, or an operation on it is refused. -/
inductive Trouble where
  | absent
  | unusable
deriving DecidableEq, Repr

/-- The length in bytes up to which a name is accepted. -/
def maxNameSize : Nat := 255

/-- The length in bytes up to which a path is accepted. -/
def maxPathSize : Nat := 4095

def isTooLong (name : String) : Bool := maxNameSize < name.utf8ByteSize

namespace Tree

/-- Follows names from a location; each step needs a folder to step from. -/
def follow (t : Tree) : Location → List String → Except Trouble Location
  | l, [] => .ok l
  | l, name :: rest =>
    if t.isFolder l then
      if Path.isIdle name then follow t l rest
      else if name = ".." then follow t l.dropLast rest
      else if isTooLong name then .error .unusable
      else if t.get? (l ++ [name]) = none then .error .absent
      else follow t (l ++ [name]) rest
    else .error .unusable

end Tree

/-- A path as a place for an entry: the folder it is in and its name there. A path that ends in
dots has no name; `slashed` says that it ends in a slash. -/
structure Place where
  folder : Location
  name : Option String
  slashed : Bool
deriving DecidableEq, Repr

/-- The location for an entry with the name of a place. -/
def Place.location? (p : Place) : Except Trouble Location :=
  match p.name with
  | none => .error .unusable
  | some name => if isTooLong name then .error .unusable else .ok (p.folder ++ [name])

/-- A tree seen from a current folder. -/
structure View where
  tree : Tree
  current : Location
deriving Repr, Inhabited

namespace View

def start (v : View) (p : Path) : Location := if p.isAbsolute then [] else v.current

def holdsNull (p : Path) : Bool := p.text.toList.any (·.toNat == 0)

/-- Texts that are no path for any operation. -/
def isUnusable (p : Path) : Bool := holdsNull p || maxPathSize < p.text.utf8ByteSize

/-- The location of the entry that a path leads to. -/
def locate (v : View) (p : Path) : Except Trouble Location :=
  if p.text = "" then .error .absent
  else if isUnusable p then .error .unusable
  else v.tree.follow (v.start p) p.segments

/-- The place that a path names, whether something is there or not. -/
def place (v : View) (p : Path) : Except Trouble Place := do
  if p.text = "" then throw .absent
  if isUnusable p then throw .unusable
  let reversed := p.segments.reverse
  let slashed := reversed.head? = some ""
  match reversed.dropWhile (· = "") with
  | [] => return ⟨v.start p, none, slashed⟩
  | last :: before =>
    let folder ← v.tree.follow (v.start p) before.reverse
    if !v.tree.isFolder folder then throw .unusable
    if last = "." ∨ last = ".." then return ⟨folder, none, slashed⟩
    return ⟨folder, some last, slashed⟩

def exists? (v : View) (p : Path) : Bool := (v.locate p).toOption.isSome

def isFile (v : View) (p : Path) : Bool :=
  match v.locate p with
  | .ok l => match v.tree.get? l with
    | some (.file _) => true
    | _ => false
  | .error _ => false

def isFolder (v : View) (p : Path) : Bool :=
  match v.locate p with
  | .ok l => v.tree.isFolder l
  | .error _ => false

end View
end Rollout
