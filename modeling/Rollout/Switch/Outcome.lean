import Rollout.Deployer
import Rollout.Switch.Event
import Rollout.Workspace.Basic

/-!
# Outcomes of a switch

How a switch ends: nothing to do, cancelled, done with a report, or an error. The errors after
the old folder was moved away say where its files and the new files are kept.
-/

namespace Rollout.Switch

/-- What a completed switch did. -/
structure Report where
  project : String
  /-- The tool of the deploy spec before. -/
  origin : Option String
  target : Deployer
  /-- The folder that holds the new files. -/
  configFolder : Path
  /-- The old folder, if one was replaced. -/
  removed : Option Path
  /-- Where the old folder is kept if it could not be deleted. -/
  leftover : Option Path
  written : List Path
  workflows : List Path
deriving DecidableEq, Repr

/-- How a switch ends without an error. -/
inductive Outcome where
  | alreadyActive (project : String) (deployer : Deployer)
  | cancelled (project : String)
  | switched (report : Report)
deriving DecidableEq, Repr

/-- Why a switch failed. -/
inductive Failure where
  | workspace (error : WorkspaceError)
  | phase (phase : Phase) (message : String)
  /-- The old folder is gone and the new files did not reach their place. -/
  | inconsistent (project : String) (staging : Path) (retired : Option Path) (message : String)
  /-- The new files are in place and the workspace does not know it. -/
  | unrecorded (project : String) (configFolder : Path) (recorded : Option String)
      (active : Deployer) (retired : Option Path) (message : String)
deriving DecidableEq, Repr

namespace Failure

/-- The phase that failed, if one did. -/
def phase? : Failure → Option Phase
  | workspace _ => none
  | phase p _ => some p
  | inconsistent .. => some .promote
  | unrecorded .. => some .updateConfig

def keptPrevious : Option Path → String
  | some path => "; previous files kept at " ++ path.text
  | none => ""

def message : Failure → String
  | workspace error => error.message
  | phase p text => "switch failed during " ++ p.name ++ ": " ++ text
  | inconsistent project staging retired text =>
    "project '" ++ project ++ "' left without deployment files: " ++ text ++
      "; staged files kept at " ++ staging.text ++ keptPrevious retired
  | unrecorded project configFolder recorded active retired text =>
    "project '" ++ project ++ "' has " ++ active.id ++ " files in " ++ configFolder.text ++
      " but the workspace still records " ++ recorded.getD "no deployer" ++ ": " ++ text ++
      keptPrevious retired

end Failure

def textOrNull (s : Option String) : Json := (s.map Json.text).getD .null

def pathsJson (paths : List Path) : Json := .array (paths.map (.text ·.text))

def Report.members (r : Report) : List (String × Json) :=
  [("project", .text r.project), ("from", textOrNull r.origin), ("to", .text r.target.id),
    ("configDir", .text r.configFolder.text), ("removed", textOrNull (r.removed.map Path.text))] ++
  (match r.leftover with
    | some path => [("leftover", .text path.text)]
    | none => []) ++
  [("written", pathsJson r.written), ("workflows", pathsJson r.workflows)]

/-- The members of an outcome's JSON form, its status first. -/
def Outcome.members : Outcome → List (String × Json)
  | alreadyActive project deployer =>
    [("status", .text "already-active"), ("project", .text project), ("deployer", .text deployer.id)]
  | cancelled project => [("status", .text "cancelled"), ("project", .text project)]
  | switched report => ("status", .text "switched") :: report.members

/-- The JSON form of an outcome, its members in the order of their keys. -/
def Outcome.toJson (o : Outcome) : Json := .object (Dict.ofEntries o.members)

end Rollout.Switch
