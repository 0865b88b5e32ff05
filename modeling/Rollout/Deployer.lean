import Rollout.Text.Blank
import Rollout.Text.Lowercase

/-!
# Deployers

The ways in which a project is deployed, and the infrastructure provider behind each.
-/

namespace Rollout

/-- A way of deploying a project. -/
inductive Deployer where
  | helm
  | firebase
  | cloudRun
deriving DecidableEq, Repr, Inhabited

namespace Deployer

def all : List Deployer := [helm, firebase, cloudRun]

def id : Deployer → String
  | helm => "helm"
  | firebase => "firebase"
  | cloudRun => "cloudrun"

/-- The provider whose infrastructure defaults apply. -/
def provider : Deployer → String
  | helm => "kubernetes"
  | firebase => "firebase"
  | cloudRun => "gcp"

/-- Whether a project is released as a chart rather than set up with its provider. -/
def isChartBased : Deployer → Bool
  | helm => true
  | _ => false

/-- Reads a deployer by id or alias, in any letter case; the error is the unknown id. -/
def read (text : String) : Except String Deployer :=
  let name := Text.lowercase (Text.trim text)
  if name = "helm" then .ok helm
  else if name = "firebase" then .ok firebase
  else if name = "cloudrun" ∨ name = "cloud-run" then .ok cloudRun
  else .error name

def read? (text : String) : Option Deployer := (read text).toOption

/-- An id is read as its own deployer. -/
theorem read_id (d : Deployer) : read d.id = .ok d := by
  cases d <;> rfl

theorem read?_id (d : Deployer) : read? d.id = some d := by
  rw [read?, read_id]
  rfl

end Deployer
end Rollout
