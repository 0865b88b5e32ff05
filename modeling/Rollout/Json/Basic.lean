import Rollout.Dict
import Rollout.Json.Number
import Rollout.Json.Reader

/-!
# JSON values

The value of a JSON text: numbers are numbers, every text has content, and an object has each
key once, in sorted order when it was read. Values nest at most `nestingLimit` levels deep.
-/

namespace Rollout

/-- A JSON value. -/
inductive Json where
  | null
  | bool (b : Bool)
  | number (n : Json.Number)
  | text (s : String)
  | array (items : List Json)
  | object (members : List (String × Json))
deriving Repr, Inhabited

namespace Json

/-- The number of arrays and objects that may enclose one another. -/
def nestingLimit : Nat := 127

mutual

/-- The value of a source; `room` is the number of levels that may still be opened. -/
def Source.value? (room : Nat) : Source → Option Json
  | .null => some .null
  | .bool b => some (.bool b)
  | .number n => n.value?.map .number
  | .text content => content.map .text
  | .array items =>
    match room with
    | 0 => none
    | room + 1 => (Source.values? room items).map .array
  | .object members =>
    match room with
    | 0 => none
    | room + 1 => (Source.members? room members).map fun ms => .object (Dict.ofEntries ms)

def Source.values? (room : Nat) : List Source → Option (List Json)
  | [] => some []
  | item :: items => do
    let v ← Source.value? room item
    let vs ← Source.values? room items
    return v :: vs

def Source.members? (room : Nat) :
    List (Option String × Source) → Option (List (String × Json))
  | [] => some []
  | (key, item) :: members => do
    let k ← key
    let v ← Source.value? room item
    let ms ← Source.members? room members
    return (k, v) :: ms

end

/-- Reads a value from a text. -/
def read? (text : String) : Option Json := do
  let source ← Source.read? text
  source.value? nestingLimit

end Json
end Rollout
