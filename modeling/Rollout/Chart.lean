import Rollout.Dict
import Rollout.Json.Basic
import Rollout.Path
import Rollout.Text.Blank

/-!
# Charts

A chart is named by text: with a scheme it is remote, else it is a folder. The chart table
gives every language a chart, configured entries over the ones that come with the program.
-/

namespace Rollout

/-- The chart of a release. -/
inductive Chart where
  | folder (path : Path)
  | remote (reference : String)
deriving DecidableEq, Repr, Inhabited

namespace Chart

/-- Reads a chart name: a text with `://` in it is remote. -/
def ofText (text : String) : Chart :=
  let name := Text.trim text
  if Text.holds [':', '/', '/'] name.toList then .remote name else .folder ⟨name⟩

def text : Chart → String
  | folder path => path.text
  | remote reference => reference

def folderPath? : Chart → Option Path
  | folder path => some path
  | remote _ => none

def toJson : Chart → Json
  | folder path => .object [("kind", .text "local"), ("ref", .text path.text)]
  | remote reference => .object [("kind", .text "remote"), ("ref", .text reference)]

end Chart

/-- Charts by language, and the one for every other language. -/
structure ChartTable where
  fallback : String
  byLanguage : Dict String
deriving Repr

namespace ChartTable

def builtin : ChartTable :=
  { fallback := "oci://ghcr.io/keel-charts/service"
    byLanguage :=
      [("angular", "oci://ghcr.io/keel-charts/static-site"),
        ("go", "oci://ghcr.io/keel-charts/go-service"),
        ("node-service", "oci://ghcr.io/keel-charts/node-service"),
        ("vue", "oci://ghcr.io/keel-charts/static-site")] }

/-- Lays configured charts over a table; the entry `default` is the fallback. -/
def withOverrides (table : ChartTable) (overrides : Dict String) : ChartTable :=
  { fallback := (overrides.get? "default").getD table.fallback
    byLanguage := Dict.overlay table.byLanguage (Dict.erase "default" overrides) }

/-- The chart for a language; a blank entry counts as none. -/
def forLanguage (table : ChartTable) (language : String) : Chart :=
  Chart.ofText (((table.byLanguage.get? language).bind Text.nonBlank?).getD table.fallback)

end ChartTable
end Rollout
