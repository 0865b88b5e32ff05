import Rollout.Path
import Rollout.Text.EditDistance

/-!
# Warnings about unknown keys

A key of a configuration file that means nothing is no error. The warning names the key, the
first line of the file that holds its text, and the known key that is nearest to it, if one is
near enough.
-/

namespace Rollout.Config

/-- A warning about a key. -/
structure Warning where
  key : String
  file : Path
  line : Option Nat
  suggestion : Option String
deriving DecidableEq, Repr

namespace Warning

/-- The keys that are suggested, in this order. -/
def candidates : List String :=
  ["compile", "platform", "registry", "charts", "default", "workspace", "file", "output", "json"]

/-- The distance up to which a key is suggested. -/
def maxDistance : Nat := 2

/-- The distance of two keys in bytes. -/
def distance (a b : String) : Nat := Text.editDistance a.toUTF8.toList b.toUTF8.toList

/-- The nearer of two keys, the first one when they are equally near. -/
def nearer (key : String) (best : Option String) (candidate : String) : Option String :=
  match best with
  | none => some candidate
  | some known => if distance key candidate < distance key known then some candidate else best

/-- The nearest of the known keys, if it is near enough. -/
def suggest (key : String) : Option String :=
  (candidates.foldl (nearer key) none).filter fun known => distance key known ≤ maxDistance

/-- The number, counted from one, of the first line that holds a text. -/
def lineOf (content key : String) : Option Nat :=
  ((Text.lines content.toList).findIdx? (Text.holds key.toList)).map (· + 1)

/-- The part of a key's path after the last dot. -/
def lastPart (path : String) : String :=
  String.ofList ((Text.splitOn '.' path.toList).getLast?.getD [])

/-- The warning about the key with a path in a file with this content. -/
def make (file : Path) (content path : String) : Warning :=
  let key := lastPart path
  { key, file, line := lineOf content key, suggestion := suggest key }

/-- Where a warning points to. -/
def place (w : Warning) : String :=
  w.file.text ++ match w.line with
    | some n => ":" ++ toString n
    | none => ""

def message (w : Warning) : String :=
  "unknown key '" ++ w.key ++ "' in " ++ w.place ++ match w.suggestion with
    | some known => " (did you mean '" ++ known ++ "'?)"
    | none => ""

end Warning
end Rollout.Config
