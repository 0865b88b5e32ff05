import Rollout.Switch.Run

/-!
# The standard means of a switch

The means by which the program itself switches, and the same means with faults: moves, writes
and deletions that are refused, so that a failure in any phase can be studied.
-/

namespace Rollout.Switch

/-- The prefixes of the folders that a switch makes for its own use. -/
def stagingPrefix : String := ".keel-stage-"

def retiredPrefix : String := ".keel-retired-"

/-- The means that work as they should; `suffix` sets the folders of this switch apart. -/
def Means.standard (document : Path) (suffix : String) (approves : String → Path → Bool) : Means :=
  { document
    load := Document.load document
    save := Document.save .never document
    generate := DeployFiles.generate .never
    regenerate := Workflow.regenerate .never
    makeFolder := Disk.makeTemporary
    rename := fun _ => Disk.rename
    removeFolder := Disk.removeFolder
    approves
    stagingName := stagingPrefix ++ suffix
    retiredName := retiredPrefix ++ suffix }

/-- How a generator of deployment files goes wrong. -/
inductive GeneratorFault where
  | fails (message : String)
  | empty
deriving DecidableEq, Repr

/-- What goes wrong in a switch. -/
structure Faults where
  /-- The moves that are refused, counted from one. -/
  rename : Nat → Option FileError := fun _ => none
  /-- The deletion is refused after this many files, for this reason. -/
  removal : Option (Nat × FileError) := none
  /-- Saving is refused altogether. -/
  save : Option String := none
  documentWrites : WriteFaults := .never
  fileWrites : WriteFaults := .never
  workflowWrites : WriteFaults := .never
  generator : Option GeneratorFault := none

/-- Removes the first files of a folder. -/
def removeSome (count : Nat) (folder : Path) : DiskM Unit := do
  match (← get).locate folder with
  | .ok l =>
    for (names, _) in ((← get).tree.filesBelow l).take count do
      Disk.edit (.remove (l ++ names))
  | .error _ => pure ()

/-- The means with faults. -/
def Faults.applyTo (f : Faults) (m : Means) : Means :=
  { m with
    rename := fun n source target =>
      match f.rename n with
      | some error => throw error
      | none => m.rename n source target
    removeFolder := fun folder =>
      match f.removal with
      | some (count, error) => do
        removeSome count folder
        throw error
      | none => m.removeFolder folder
    save := fun w =>
      match f.save with
      | some message => throw (.access m.document message)
      | none => Document.save f.documentWrites m.document w
    generate := fun d name p options dest =>
      match f.generator with
      | some (.fails message) => throw (.render d.id message)
      | some .empty => pure []
      | none => DeployFiles.generate f.fileWrites d name p options dest
    regenerate := Workflow.regenerate f.workflowWrites }

end Rollout.Switch
