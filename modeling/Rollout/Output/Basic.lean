import Rollout.Workspace.Store

/-!
# Generated files

A generator is a list of files, paths with contents, and the files are written in order. The
first one that cannot be written ends the work; the ones before it stay.
-/

namespace Rollout

/-- Why files could not be generated. -/
inductive OutputError where
  | write (path : Path) (message : String)
  | render (subject message : String)
deriving DecidableEq, Repr

def OutputError.message : OutputError → String
  | write path message => "failed to write " ++ path.text ++ ": " ++ message
  | render subject message => "failed to render " ++ subject ++ ": " ++ message

/-- Writes files, the first of them as write number `n`, and returns their paths. -/
def writeFiles (faults : WriteFaults) :
    Nat → List (Path × String) → DiskTask OutputError (List Path)
  | _, [] => pure []
  | n, (path, content) :: files => do
    ExceptT.adapt (fun error => .write path error.message) (faults.write n path content)
    let paths ← writeFiles faults (n + 1) files
    return path :: paths

end Rollout
