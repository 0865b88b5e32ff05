import Rollout.Output.DeployFiles
import Rollout.Output.Workflow
import Rollout.Switch.Outcome
import Rollout.Switch.Plan

/-!
# Running a switch

A switch stages the new files, moves the old folder aside, moves the new files to their place,
records the deployer in the workspace document and only then deletes the old files. It works by
the means it is given, any of which may fail; a phase that fails ends the switch where it is.
-/

namespace Rollout.Switch

/-- The means by which a switch works. -/
structure Means where
  document : Path
  load : DiskTask StoreError Workspace
  save : Workspace → DiskTask StoreError Unit
  generate : Deployer → String → Project → OptionMap → Path → DiskTask OutputError (List Path)
  regenerate : Workspace → Path → DiskTask OutputError (List Path)
  /-- Makes a folder of the switch's own in a folder. -/
  makeFolder : Path → String → DiskM Path
  /-- The `n`-th move of the switch, counted from one. -/
  rename : Nat → Path → Path → DiskM Unit
  removeFolder : Path → DiskM Unit
  /-- Whether the deletion of a project's old folder is approved. -/
  approves : String → Path → Bool
  /-- The names of the folders that a switch makes for its own use. -/
  stagingName : String
  retiredName : String

/-- How far a switch has got. -/
structure Progress where
  disk : Disk
  events : List Event := []
  /-- The deletions that approval was asked for. -/
  asked : List (String × Path) := []
  renames : Nat := 0
  /-- The disk when the staged files were to be kept. -/
  kept : Option Disk := none
  /-- The disk when the workspace had been saved. -/
  saved : Option Disk := none

/-- A part of a switch. -/
abbrev SwitchM (α : Type) := ExceptT Failure (StateM Progress) α

def emit (e : Event) : SwitchM Unit := modify fun s => { s with events := s.events ++ [e] }

def startPhase (phase : Phase) : SwitchM Unit := emit (.phaseStarted phase)

def skipPhase (phase : Phase) (reason : String) : SwitchM Unit :=
  emit (.phaseSkipped phase reason)

def view : SwitchM View := return (← get).disk.toView

/-- Does something on the disk and returns how it ended. -/
def attempt {ε α : Type} (task : DiskTask ε α) : SwitchM (Except ε α) :=
  modifyGet fun s =>
    let (result, disk) := task.on s.disk
    (result, { s with disk })

/-- Ends the switch; a failed phase is told. -/
def fail {α : Type} (failure : Failure) : SwitchM α := do
  match failure.phase? with
  | some phase => emit (.phaseFailed phase failure.message)
  | none => pure ()
  throw failure

/-- Does something on the disk that the phase cannot do without. -/
def need {ε α : Type} (phase : Phase) (message : ε → String) (task : DiskTask ε α) :
    SwitchM α := do
  match ← attempt task with
  | .ok a => return a
  | .error e => fail (.phase phase (message e))

/-- Removes a folder of the switch's own. -/
def discard (folder : Path) : SwitchM Unit :=
  modify fun s => { s with disk := ((Disk.discard folder).run s.disk).2 }

/-- Ends a phase after removing folders of the switch's own. -/
def failDiscarding {α : Type} (folders : List Path) (phase : Phase) (message : String) :
    SwitchM α := do
  folders.forM discard
  fail (.phase phase message)

def rename (m : Means) (source target : Path) : SwitchM (Except FileError Unit) := do
  modify fun s => { s with renames := s.renames + 1 }
  attempt (m.rename (← get).renames source target)

/-- Asks for approval to delete a folder. -/
def ask (m : Means) (project : String) (folder : Path) : SwitchM Bool := do
  modify fun s => { s with asked := s.asked ++ [(project, folder)] }
  return m.approves project folder

/-- Finds the project and where its files are and go. -/
def detect (m : Means) (r : Request) : SwitchM (Workspace × Project) := do
  startPhase .detectOld
  let w ← need .detectOld StoreError.message m.load
  match w.project r.project with
  | .ok p => return (w, p)
  | .error e => fail (.workspace e)

/-- Settles the folders; a folder in the way ends the switch. -/
def makePlan (m : Means) (p : Project) (r : Request) (d : Deployer) : SwitchM Plan := do
  let plan := planFor (Document.rootOf m.document) p r
  if plan.isBlocked (← view) then
    fail (.phase .detectOld ("destination " ++ plan.newFolder.text ++ " already exists"))
  emit (.started p.name plan.origin d.id)
  return plan

/-- Whether the switch may go on, which it may unless there is an old folder and its deletion is
not approved. -/
def confirm (m : Means) (r : Request) (name : String) (old : Option Path) : SwitchM Bool := do
  match old with
  | none =>
    skipPhase .confirmDeletion "no existing deployment folder"
    return true
  | some folder =>
    startPhase .confirmDeletion
    if r.force then return true else ask m name folder

/-- Generates the new files in a folder of their own. -/
def stage (m : Means) (d : Deployer) (name : String) (p : Project) (spec : Spec) :
    SwitchM (Path × List Path) := do
  startPhase .stage
  let folder ← need .stage FileError.message
    (m.makeFolder (Document.rootOf m.document) m.stagingName)
  match ← attempt (m.generate d name (withDeploy p spec) spec.options folder) with
  | .error e => failDiscarding [folder] .stage e.message
  | .ok [] => failDiscarding [folder] .stage (d.id ++ " generator produced no files")
  | .ok files => return (folder, files)

/-- The name of the old folder inside the folder that keeps it. -/
def previousName : String := "previous"

/-- Moves the old folder aside and returns the folder that keeps it. -/
def retire (m : Means) (staging : Path) (old : Option Path) : SwitchM (Option Path) := do
  match old with
  | none =>
    skipPhase .removeOld "nothing to remove"
    return none
  | some folder =>
    startPhase .removeOld
    match ← attempt (m.makeFolder (Document.rootOf m.document) m.retiredName) with
    | .error e => failDiscarding [staging] .removeOld e.message
    | .ok holder =>
      match ← rename m folder (holder.child previousName) with
      | .error e => failDiscarding [holder, staging] .removeOld e.message
      | .ok () =>
        emit (.folderRemoved folder)
        return some holder

/-- The final paths of staged files. -/
def promoted (staging target : Path) (files : List Path) : List Path :=
  files.filterMap fun file => (Path.below? staging file).map target.join

/-- Moves the staged files to their place. -/
def promote (m : Means) (name : String) (plan : Plan) (staging : Path) (files : List Path)
    (retired : Option Path) : SwitchM (List Path) := do
  startPhase .promote
  modify fun s => { s with kept := some s.disk }
  match ← rename m staging plan.newFolder with
  | .error e => fail (.inconsistent name staging retired e.message)
  | .ok () =>
    let written := promoted staging plan.newFolder files
    written.forM fun path => emit (.fileWritten path)
    return written

/-- Notes the deploy spec in the workspace and saves that. -/
def record (m : Means) (name : String) (w : Workspace) (d : Deployer) (spec : Spec) (plan : Plan)
    (retired : Option Path) : SwitchM Workspace := do
  startPhase .updateConfig
  match switchedWorkspace w name d spec with
  | .error e => fail (.workspace e)
  | .ok w =>
    match ← attempt (m.save w) with
    | .error e => fail (.unrecorded name plan.newFolder plan.origin d retired e.message)
    | .ok () =>
      modify fun s => { s with saved := some s.disk }
      return w

/-- Deletes the old files; the folder that keeps them is returned if it cannot be deleted. -/
def dispose (m : Means) (retired : Option Path) : SwitchM (Option Path) := do
  match retired with
  | none => return none
  | some folder =>
    match ← attempt (m.removeFolder folder) with
    | .ok () => return none
    | .error _ => return some folder

/-- Regenerates the workflow. -/
def refresh (m : Means) (w : Workspace) : SwitchM (List Path) := do
  startPhase .updateWorkflows
  let workflows ← need .updateWorkflows OutputError.message
    (m.regenerate w (Document.rootOf m.document))
  workflows.forM fun path => emit (.fileWritten path)
  return workflows

/-- Replaces the deployment files of a project. -/
def replace (m : Means) (r : Request) (w : Workspace) (p : Project) (d : Deployer) (plan : Plan)
    (old : Option Path) : SwitchM Report := do
  let spec := specFor w p d r plan.configPath
  let (staging, files) ← stage m d p.name p spec
  let retired ← retire m staging old
  let written ← promote m p.name plan staging files retired
  let w ← record m p.name w d spec plan retired
  let leftover ← dispose m retired
  let workflows ← refresh m w
  emit (.completed p.name d.id)
  return {
    project := p.name
    origin := plan.origin
    target := d
    configFolder := plan.newFolder
    removed := old
    leftover
    written
    workflows }

/-- Switches a project to a deployer. -/
def execute (m : Means) (r : Request) : SwitchM Outcome := do
  match Deployer.read r.deployer with
  | .error id => fail (.workspace (.unknownDeployer id))
  | .ok d =>
    let (w, p) ← detect m r
    if deploysWith p d then
      skipPhase .detectOld ("already deploying with " ++ d.id)
      return .alreadyActive p.name d
    else
      let plan ← makePlan m p r d
      let old := plan.existing? (← view)
      if ← confirm m r p.name old then
        return .switched (← replace m r w p d plan old)
      else
        return .cancelled p.name

/-- How a switch ends, and how far it got. -/
def run (m : Means) (r : Request) (disk : Disk) : Except Failure Outcome × Progress :=
  (execute m r).run.run { disk }

end Rollout.Switch
