import Rollout.FileTree.Lookup
import Rollout.Text.Quoted

/-!
# File operations

The operations that the program uses on a tree of files, with the ways in which each is
refused. An operation does its checks first and then a few edits; a disk keeps the journal of
the edits done, the newest first, so that the states in between can be asked about.
-/

namespace Rollout

/-- The cause of a failed file operation. -/
inductive FileError where
  | notFound (path : Path)
  | permissionDenied (path : Path)
  | io
  | other (text : String)
deriving DecidableEq, Repr

namespace FileError

def message : FileError → String
  | notFound path => "File not found: " ++ path.text
  | permissionDenied path => "Permission denied: " ++ path.text
  | io => "I/O error"
  | other text => text

/-- The cause for a path that gave trouble. -/
def ofTrouble (path : Path) : Trouble → FileError
  | .absent => notFound path
  | .unusable => io

end FileError

/-- A tree that is being worked on. -/
structure Disk extends View where
  journal : List Edit
deriving Repr, Inhabited

/-- A disk with the tree and the current folder as given and nothing done yet. -/
def Disk.ofTree (tree : Tree) (current : Location) : Disk := ⟨⟨tree, current⟩, []⟩

/-- Something done on a disk that can fail with an error of its own. What was done before a
failure stays done. -/
abbrev DiskTask (ε α : Type) := ExceptT ε (StateM Disk) α

abbrev DiskM (α : Type) := DiskTask FileError α

/-- How a task ends on a disk, and the disk that it leaves. -/
def DiskTask.on {ε α : Type} (task : DiskTask ε α) (d : Disk) : Except ε α × Disk := task.run.run d

namespace Disk

def edit (e : Edit) : StateM Disk Unit :=
  modify fun d => { d with tree := e.apply d.tree, journal := e :: d.journal }

def orFail {α : Type} (path : Path) : Except Trouble α → DiskM α
  | .ok a => pure a
  | .error trouble => throw (.ofTrouble path trouble)

/-- Makes the folders that names lead through from a location; those that are there are kept.
Where a dot follows the last of them, that one is not made. -/
def makeFoldersFrom : Location → List String → DiskTask Trouble Unit
  | l, [] => do
    unless (← get).tree.isFolder l do throw .unusable
  | l, name :: rest => do
    unless (← get).tree.isFolder l do throw .unusable
    if Path.isIdle name then makeFoldersFrom l rest
    else if name = ".." then makeFoldersFrom l.dropLast rest
    else if isTooLong name then throw .unusable
    else
      let inner := l ++ [name]
      if (← get).tree.get? inner = none then
        if rest.all Path.isIdle && rest.contains "." then throw .absent
        edit (.put inner .folder)
      makeFoldersFrom inner rest

/-- Makes a folder and every folder above it that is missing. -/
def makeFolders (p : Path) : DiskM Unit :=
  ExceptT.adapt (.ofTrouble p) do
    if p.text = "" then return
    if View.isUnusable p then throw .unusable
    makeFoldersFrom ((← get).start p) p.segments

/-- Makes the folders that lead to a path, where the path names any. -/
def makeFoldersTo (p : Path) : DiskM Unit :=
  match p.parent? with
  | some q => unless q.text = "" do makeFolders q
  | none => pure ()

/-- The content of a text file. -/
def read (p : Path) : DiskM String := do
  let d ← get
  let l ← orFail p (d.locate p)
  match d.tree.get? l with
  | some (.file (.text s)) => return s
  | some _ => throw .io
  | none => throw (.notFound p)

/-- The checks of a move: where from and where to, or `none` when the two are one place. -/
def movement? (v : View) (source target : Path) : Except Trouble (Option (Location × Location)) := do
  if View.holdsNull source || View.holdsNull target then throw .unusable
  let a ← v.place source
  let b ← v.place target
  let a' ← a.location?
  if b.name = none then throw .unusable
  match v.tree.get? a' with
  | none => throw .absent
  | some entry =>
    let b' ← b.location?
    let isFolder : Bool := entry = .folder
    if !isFolder && (a.slashed || b.slashed) then throw .unusable
    if a' = b' then return none
    if a'.isPrefixOf b' then throw .unusable
    match v.tree.get? b' with
    | none => return some (a', b')
    | some .folder =>
      if isFolder && (v.tree.entriesOf b').isEmpty then return some (a', b') else throw .unusable
    | some (.file _) => if isFolder then throw .unusable else return some (a', b')

/-- Moves an entry, over an empty folder or a file at most; the folders of the target are made
first. -/
def rename (source target : Path) : DiskM Unit := do
  makeFoldersTo target
  match movement? (← get).toView source target with
  | .ok none => pure ()
  | .ok (some (a, b)) => edit (.move a b)
  | .error trouble => throw (.ofTrouble source trouble)

/-- A path from the top: relative paths are seen from the current folder. -/
def fromTop (v : View) (p : Path) : Path :=
  if p.isAbsolute then p else (Path.ofSegments true v.current).join p

/-- Names for files that are being written, in order. -/
def temporaryName (n : Nat) : String :=
  let digits := Nat.toDigits 10 n
  ".tmp" ++ String.ofList (List.replicate (6 - digits.length) '0' ++ digits)

/-- The first temporary name from `n` on that is not among the entries of a folder. -/
def unusedName (entries : Dict Node) : Nat → Nat → String
  | 0, n => temporaryName n
  | tries + 1, n =>
    if entries.has (temporaryName n) then unusedName entries tries (n + 1) else temporaryName n

/-- Puts a file with a new name into a folder. -/
def addTemporary (folder : Path) (content : String) : DiskM Location := do
  let d ← get
  let l ← orFail folder (d.locate folder)
  let entries := d.tree.entriesOf l
  let name := unusedName entries entries.length 0
  if View.isUnusable ((fromTop d.toView folder).child name) then throw .io
  edit (.put (l ++ [name]) (.file (.text content)))
  return l ++ [name]

/-- The location for a file at a path, or why none can be there. -/
def fileLocation? (v : View) (p : Path) : Except Trouble Location := do
  let place ← v.place p
  let l ← place.location?
  if place.slashed || v.tree.isFolder l then throw .unusable
  return l

/-- Writes a file whole or not at all: the content goes to a temporary file beside it, which
then takes its place. Missing folders are made. -/
def write (p : Path) (content : String) : DiskM Unit := do
  makeFolders p.folder
  let temporary ← addTemporary p.folder content
  match fileLocation? (← get).toView p with
  | .ok l => edit (.move temporary l)
  | .error trouble =>
    edit (.remove temporary)
    throw (.ofTrouble p trouble)

/-- Opens a file for writing, which makes it if it is not there. -/
def openFile (p : Path) : DiskTask Trouble Unit := do
  let d ← get
  match fileLocation? d.toView p with
  | .error trouble => throw trouble
  | .ok l => if d.tree.get? l = none then edit (.put l (.file (.text "")))

/-- Removes a folder with everything in it. The folder is emptied first: a path that leads
through what was in it then leads nowhere, and one that ends in dots has nothing to remove. -/
def removeFolder (p : Path) : DiskM Unit := do
  let d ← get
  let l ← orFail p (d.locate p)
  unless d.tree.isFolder l do throw .io
  let emptied : View := { d.toView with tree := d.tree.clear l }
  match emptied.place p with
  | .ok ⟨_, some _, _⟩ => edit (.remove l)
  | .ok ⟨_, none, _⟩ | .error .unusable =>
    edit (.clear l)
    throw .io
  | .error .absent => edit (.clear l)

/-- The files below a folder, in the order of their names. -/
def listFiles (p : Path) : DiskM (List Path) := do
  let d ← get
  let l ← orFail p (d.locate p)
  unless d.tree.isFolder l do throw .io
  let found := (d.tree.nodesBelow l).map fun (names, n) => (p.child (Text.joined "/" names), n)
  if found.any fun (q, n) => n.entry = .folder && View.isUnusable q then throw .io
  return found.filterMap fun (q, n) => if n.entry = .folder then none else some q

/-- The cause for a temporary folder that cannot be made. -/
def temporaryFailure (p : Path) (reason : String) : FileError :=
  .other (reason ++ " at path " ++ Text.quoted p.text)

/-- Makes a folder of its own in `folder` and returns its path. -/
def makeTemporary (folder : Path) (name : String) : DiskM Path := do
  let d ← get
  let p := (fromTop d.toView folder).child name
  match d.place p >>= Place.location? with
  | .ok l =>
    unless d.tree.get? l = none do throw (temporaryFailure p "File exists (os error 17)")
    edit (.put l .folder)
    return p
  | .error .absent => throw (temporaryFailure p "No such file or directory (os error 2)")
  | .error .unusable => throw (temporaryFailure p "File name too long (os error 36)")

/-- Removes a folder if it is there, and does not fail. -/
def discard (p : Path) : StateM Disk Unit := do
  let _ ← (removeFolder p).run

end Disk
end Rollout
