import Rollout.Chart
import Rollout.Platform

/-!
# Configuration

What the program takes from its configuration file, and how the environment overrides it. A
variable that is set to a value without meaning leaves the configured value in place.
-/

namespace Rollout

/-- The configuration of the program. -/
structure Config where
  platform : Platform := .host
  /-- The registry where the workspace names none. -/
  registry : Option String := none
  /-- Charts by language, laid over the ones that come with the program. -/
  charts : Dict String := []
  /-- The file name of the workspace document. -/
  document : String := "keel.json"
  /-- Whether results and events are written as JSON. -/
  json : Bool := false
deriving DecidableEq, Repr, Inhabited

namespace Config

def chartTable (c : Config) : ChartTable := ChartTable.builtin.withOverrides c.charts

/-- An environment, variable by variable. -/
abbrev Environment := String → Option String

def platformVariable : String := "KEEL_PLATFORM"

def registryVariable : String := "KEEL_REGISTRY"

def documentVariable : String := "KEEL_WORKSPACE_FILE"

def jsonVariable : String := "KEEL_JSON"

/-- Every value asks for JSON except `0` and, in any letter case, `false`. -/
def asksForJson (value : String) : Bool := Text.lowercase value ≠ "false" && value ≠ "0"

/-- The configuration with the environment's overrides. -/
def override (env : Environment) (c : Config) : Config :=
  { c with
    platform := ((env platformVariable).bind fun v => (Platform.read v).toOption).getD c.platform
    registry := ((env registryVariable).bind Text.nonBlank?).or c.registry
    document := ((env documentVariable).bind Text.nonBlank?).getD c.document
    json := ((env jsonVariable).map asksForJson).getD c.json }

def toJson (c : Config) : Json :=
  .object [
    ("compile", .object (("platform", .text c.platform.id) ::
      match c.registry with
      | some registry => [("registry", .text registry)]
      | none => [])),
    ("charts", .object (c.charts.map fun (language, chart) => (language, .text chart))),
    ("workspace", .object [("file", .text c.document)]),
    ("output", .object [("json", .bool c.json)])]

end Config
end Rollout
