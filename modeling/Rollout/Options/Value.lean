import Rollout.Json.Printer
import Rollout.Text.Blank

/-!
# Option values

Builders and deployers take free-form options. An option value is read from JSON by trying a
flag, a 64-bit integer, a floating point number, a text, a list and a map in this order, and
is never null; integers out of range are floating point numbers.
-/

namespace Rollout

open Number (Binary64)

/-- A value of a free-form option. -/
inductive OptionValue where
  | bool (b : Bool)
  | integer (n : Int64)
  | real (x : Binary64)
  | text (s : String)
  | list (items : List OptionValue)
  | map (entries : List (String × OptionValue))
deriving Inhabited

/-- Options by name. -/
abbrev OptionMap := Dict OptionValue

namespace OptionValue

/-- The range of the 64-bit integers. -/
def isInt64 (n : Int) : Bool := -(Nat.pow 2 63 : Int) ≤ n && n < Nat.pow 2 63

/-- The option value of a JSON number. -/
def ofNumber? : Json.Number → Option OptionValue
  | .integer n =>
    if isInt64 n then some (.integer (Int64.ofInt n))
    else (Binary64.ofRatio? (n < 0) n.natAbs 1).map .real
  | .real x => some (.real x)

mutual

/-- The option value of a source; `room` is the number of levels that may still be opened. Of
two entries with one key the later wins, but each must have a value. -/
def ofSource? (room : Nat) : Json.Source → Option OptionValue
  | .null => none
  | .bool b => some (.bool b)
  | .number n => n.value?.bind ofNumber?
  | .text content => content.map .text
  | .array items =>
    match room with
    | 0 => none
    | room + 1 => (ofItems? room items).map .list
  | .object members =>
    match room with
    | 0 => none
    | room + 1 => (ofMembers? room members).map fun entries => .map (Dict.ofEntries entries)

def ofItems? (room : Nat) : List Json.Source → Option (List OptionValue)
  | [] => some []
  | item :: items => do
    let v ← ofSource? room item
    let vs ← ofItems? room items
    return v :: vs

def ofMembers? (room : Nat) :
    List (Option String × Json.Source) → Option (List (String × OptionValue))
  | [] => some []
  | (key, item) :: members => do
    let k ← key
    let v ← ofSource? room item
    let vs ← ofMembers? room members
    return (k, v) :: vs

end

mutual

def toJson : OptionValue → Json
  | .bool b => .bool b
  | .integer n => .number (.integer n.toInt)
  | .real x => .number (.real x)
  | .text s => .text s
  | .list items => .array (toJsonItems items)
  | .map entries => .object (toJsonMembers entries)

def toJsonItems : List OptionValue → List Json
  | [] => []
  | v :: vs => toJson v :: toJsonItems vs

def toJsonMembers : List (String × OptionValue) → List (String × Json)
  | [] => []
  | (key, v) :: vs => (key, toJson v) :: toJsonMembers vs

end

/-- The text of a value that is neither a list nor a map. A floating point number is written
out in full, without an exponent. -/
def scalarText? : OptionValue → Option String
  | .bool true => some "true"
  | .bool false => some "false"
  | .integer n => some (String.ofList (Json.integerText n.toInt))
  | .real x => some (String.ofList (Number.plainLayout.write x))
  | .text s => some s
  | .list _ => none
  | .map _ => none

/-- The text shown for a value: a scalar's own text, else compact JSON. -/
def display (v : OptionValue) : String := v.scalarText?.getD v.toJson.compact

def asText? : OptionValue → Option String
  | .text s => some s
  | _ => none

/-- The text of a value that is a text and not blank, untrimmed. -/
def nonBlankText? (v : OptionValue) : Option String := v.asText?.bind Text.nonBlank?

/-- A port number in decimal digits after an optional plus sign. -/
def readPort? (s : String) : Option UInt16 :=
  let digits := match (Text.trim s).toList with
    | '+' :: cs => cs
    | cs => cs
  match Json.takeDigits digits with
  | ([], _) => none
  | (ds, []) =>
    let n := Json.digitsValue ds
    if n < UInt16.size then some (UInt16.ofNat n) else none
  | _ => none

/-- The port that a value names: an integer or a text in the range of ports. -/
def asPort? : OptionValue → Option UInt16
  | .integer n =>
    if 0 ≤ n.toInt ∧ n.toInt < UInt16.size then some (UInt16.ofNat n.toInt.toNat) else none
  | .text s => readPort? s
  | _ => none

end OptionValue

/-- Reads one option value from a JSON text. -/
def OptionValue.read? (text : String) : Option OptionValue :=
  (Json.Source.read? text).bind (OptionValue.ofSource? Json.nestingLimit)

namespace OptionMap

def ofSource? (room : Nat) (source : Json.Source) : Option OptionMap :=
  match OptionValue.ofSource? room source with
  | some (.map entries) => some entries
  | _ => none

/-- Reads options from a JSON text. -/
def read? (text : String) : Option OptionMap :=
  (Json.Source.read? text).bind (ofSource? Json.nestingLimit)

def toJson (o : OptionMap) : Json := .object (OptionValue.toJsonMembers o)

/-- The option `key` as a text that is not blank. -/
def text? (o : OptionMap) (key : String) : Option String :=
  (o.get? key).bind OptionValue.nonBlankText?

end OptionMap
end Rollout
