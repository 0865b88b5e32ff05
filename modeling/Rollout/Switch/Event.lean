import Rollout.Json.Printer
import Rollout.Path

/-!
# Events of a switch

A switch goes through seven phases in order and tells what it does by events. An event has a
JSON form with a time stamp, one line in a stream of events.
-/

namespace Rollout.Switch

/-- The phases of a switch. -/
inductive Phase where
  | detectOld
  | confirmDeletion
  | stage
  | removeOld
  | promote
  | updateConfig
  | updateWorkflows
deriving DecidableEq, Repr

def Phase.name : Phase → String
  | detectOld => "detect-old"
  | confirmDeletion => "confirm-deletion"
  | stage => "stage"
  | removeOld => "remove-old"
  | promote => "promote"
  | updateConfig => "update-config"
  | updateWorkflows => "update-workflows"

/-- The place of a phase in a switch. -/
def Phase.index : Phase → Nat
  | detectOld => 0
  | confirmDeletion => 1
  | stage => 2
  | removeOld => 3
  | promote => 4
  | updateConfig => 5
  | updateWorkflows => 6

/-- Something that a switch did or came upon. -/
inductive Event where
  | started (project : String) (origin : Option String) (target : String)
  | phaseStarted (phase : Phase)
  | phaseSkipped (phase : Phase) (reason : String)
  | fileWritten (path : Path)
  | folderRemoved (path : Path)
  | phaseFailed (phase : Phase) (error : String)
  | completed (project deployer : String)
deriving DecidableEq, Repr

namespace Event

/-- The name of the kind of event. -/
def kind : Event → String
  | started .. => "start"
  | phaseStarted _ => "phase_start"
  | phaseSkipped .. => "phase_skipped"
  | fileWritten _ => "item_written"
  | folderRemoved _ => "folder_removed"
  | phaseFailed .. => "phase_error"
  | completed .. => "complete"

/-- What an event says besides its kind. -/
def details : Event → List (String × Json)
  | started project origin target =>
    [("project", .text project), ("from", (origin.map Json.text).getD .null), ("to", .text target)]
  | phaseStarted phase => [("phase", .text phase.name)]
  | phaseSkipped phase reason => [("phase", .text phase.name), ("reason", .text reason)]
  | fileWritten path => [("path", .text path.text)]
  | folderRemoved path => [("path", .text path.text)]
  | phaseFailed phase error => [("phase", .text phase.name), ("error", .text error)]
  | completed project deployer =>
    [("status", .text "success"), ("project", .text project), ("deployer", .text deployer)]

/-- The JSON form of an event, its members in the order of their keys. -/
def toJson (time : String) (e : Event) : Json :=
  .object (Dict.ofEntries ([("event", .text e.kind), ("command", .text "switch"),
    ("timestamp", .text time)] ++ e.details))

/-- The line of an event in a stream, its end included. -/
def line (time : String) (e : Event) : String := (e.toJson time).compact ++ "\n"

end Event
end Rollout.Switch
