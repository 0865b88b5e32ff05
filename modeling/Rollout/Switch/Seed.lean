import Rollout.Settings

/-!
# Seeded configurations

A project that was switched gets one configuration for each environment of the workspace and
each configuration key that it builds; each holds the one option that sets the environments
apart, or the region that they share.
-/

namespace Rollout.Switch

/-- The environments of a project, sorted. -/
def environmentsOf (w : Workspace) (p : Project) : List String :=
  Dict.sortedKeys (w.environments.keys ++ p.buildKeys)

/-- The option that is seeded for a deployer. -/
def seedKey : Deployer → String
  | .helm => "namespace"
  | .firebase => "projectId"
  | .cloudRun => "region"

/-- The first usable value of the options and of the deployer's provider. -/
def seedBase (w : Workspace) (d : Deployer) (options : OptionMap)
    (get : ProviderDefaults → Option String) : Option String :=
  firstUsable [options.text? (seedKey d), Settings.fromProvider w d.provider get]

def seedValue (w : Workspace) (options : OptionMap) (environment : String) : Deployer → String
  | .helm => w.name ++ "-" ++ environment
  | .firebase => (seedBase w .firebase options (·.projectId)).getD w.name ++ "-" ++ environment
  | .cloudRun => (seedBase w .cloudRun options (·.region)).getD Settings.defaultRegion

/-- The configurations of a project that is switched to a deployer. -/
def seed (w : Workspace) (p : Project) (d : Deployer) (options : OptionMap) : Dict OptionMap :=
  (environmentsOf w p).map fun environment =>
    (environment, [(seedKey d, .text (seedValue w options environment d))])

end Rollout.Switch
