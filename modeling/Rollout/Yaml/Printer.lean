import Rollout.Options.Value
import Rollout.Yaml.Scalar

/-!
# Printing YAML

Documents in block style: two blanks a level, the items of a list at the column of their key,
empty lists and maps closed at once, lines never folded. A key with several lines, or a long
one, stands behind a question mark with its value behind a colon on a line of its own.
-/

namespace Rollout

/-- A YAML document. A `word` is a scalar that is not a text, in the form to be written. -/
inductive Yaml where
  | word (chars : List Char)
  | text (s : String)
  | list (items : List Yaml)
  | map (entries : List (String × Yaml))

namespace Yaml

def ofNat (n : Nat) : Yaml := .word (Nat.toDigits 10 n)

/-- One piece below another: a line begins unless the first piece ends in a break. -/
def under (indent : Nat) (first second : List Char) : List Char :=
  first ++ (if endsIn isBreak first then [] else ['\n']) ++ blanks indent ++ second

mutual

/-- A node behind its indicator and a blank, at column `indent`. -/
def node (indent : Nat) : Yaml → List Char
  | .word chars => chars
  | .text s => scalar indent s
  | .list [] => ['[', ']']
  | .list (item :: items) => block indent (item :: items)
  | .map [] => ['\x7b', '\x7d']
  | .map (entry :: entries) => fields indent (entry :: entries)

/-- The items of a list, one below the other. -/
def block (indent : Nat) : List Yaml → List Char
  | [] => []
  | [item] => '-' :: ' ' :: node (indent + 2) item
  | item :: items => under indent ('-' :: ' ' :: node (indent + 2) item) (block indent items)

/-- The entries of a map, one below the other. -/
def fields (indent : Nat) : List (String × Yaml) → List Char
  | [] => []
  | [(key, value)] => field indent key value
  | (key, value) :: entries => under indent (field indent key value) (fields indent entries)

/-- An entry of a map. -/
def field (indent : Nat) (key : String) (value : Yaml) : List Char :=
  if isSimpleKey key then
    scalar indent key ++ ':' :: match value with
      | .list (item :: items) => under indent [] (block indent (item :: items))
      | .map (entry :: entries) => under (indent + 2) [] (fields (indent + 2) (entry :: entries))
      | value => ' ' :: node (indent + 2) value
  else
    under indent ('?' :: ' ' :: scalar (indent + 2) key) (':' :: ' ' :: node (indent + 2) value)

end

/-- The text of a document. -/
def write (y : Yaml) : String := String.ofList (under 0 (node 0 y) [])

end Yaml

/-- Floating point numbers as in JSON, but without a plus sign in the exponent. -/
def Yaml.layout : Number.Layout := { Json.layout with plusSign := "" }

namespace OptionValue

mutual

def toYaml : OptionValue → Yaml
  | .bool true => .word "true".toList
  | .bool false => .word "false".toList
  | .integer n => .word (Json.integerText n.toInt)
  | .real x => .word (Yaml.layout.write x)
  | .text s => .text s
  | .list items => .list (toYamlItems items)
  | .map entries => .map (toYamlEntries entries)

def toYamlItems : List OptionValue → List Yaml
  | [] => []
  | v :: vs => toYaml v :: toYamlItems vs

def toYamlEntries : List (String × OptionValue) → List (String × Yaml)
  | [] => []
  | (key, v) :: vs => (key, toYaml v) :: toYamlEntries vs

end

end OptionValue

/-- Options as a document. -/
def OptionMap.toYaml (o : OptionMap) : Yaml := .map (OptionValue.toYamlEntries o)

end Rollout
