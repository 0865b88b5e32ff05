import Rollout.FileTree.Disk
import Rollout.Workspace.Document

/-!
# The workspace document on disk

Loading and saving the document of a workspace. Saving writes the document whole or leaves the
old one as it was.
-/

namespace Rollout

/-- Why a document could not be loaded or saved. -/
inductive StoreError where
  | notFound (path : Path)
  | invalid (error : WorkspaceError)
  | access (path : Path) (message : String)
deriving DecidableEq, Repr

def StoreError.message : StoreError → String
  | notFound path => "workspace document not found: " ++ path.text
  | invalid error => error.message
  | access path message => "failed to access " ++ path.text ++ ": " ++ message

/-- Which writes of a component are refused, counted from one, and why. -/
abbrev WriteFaults := Nat → Path → Option FileError

def WriteFaults.never : WriteFaults := fun _ _ => none

/-- Only the `n`-th write is refused, for want of permission. -/
def WriteFaults.nth (n : Nat) : WriteFaults := fun i path =>
  if i = n then some (.permissionDenied path) else none

/-- The `n`-th write of a component. -/
def WriteFaults.write (faults : WriteFaults) (n : Nat) (path : Path) (content : String) :
    DiskM Unit :=
  match faults n path with
  | some error => throw error
  | none => Disk.write path content

namespace Document

def loadError (document : Path) : FileError → StoreError
  | .notFound _ => .notFound document
  | error => .access document error.message

/-- Loads the workspace of a document. -/
def load (document : Path) : DiskTask StoreError Workspace := do
  let content ← ExceptT.adapt (loadError document) (Disk.read document)
  liftExcept ((read document content).mapError .invalid)
where
  liftExcept {α : Type} : Except StoreError α → DiskTask StoreError α
    | .ok a => pure a
    | .error e => throw e

/-- Saves a workspace as its document. -/
def save (faults : WriteFaults) (document : Path) (w : Workspace) : DiskTask StoreError Unit :=
  ExceptT.adapt (fun error => .access document error.message)
    (faults.write 1 document (write w))

/-- The folder of a document, to which the project roots are relative. -/
def rootOf (document : Path) : Path := document.folder

end Document
end Rollout
