/-!
# Words of a command line

Words are read against a table of switches: long and short names, flags in clusters, values
behind an equals sign or in the next word, and a double dash after which every word is an
operand. A word that does not fit ends the reading at once, as does a request for help.
-/

namespace Rollout.Command

/-- Why the reading of a command line ends early. -/
inductive Stop where
  | misuse
  | help
  | version
deriving DecidableEq, Repr

/-- How often a switch may be given, and whether it takes a value. -/
inductive Arity where
  | flag
  | count
  | single
  | many
  | stop (reason : Stop)
deriving DecidableEq, Repr

def Arity.takesValue : Arity → Bool
  | single => true
  | many => true
  | _ => false

def Arity.isOnce : Arity → Bool
  | flag => true
  | single => true
  | _ => false

/-- A switch; `accepts` says which values it takes. -/
structure Switch where
  name : String
  letter : Option Char := none
  arity : Arity
  accepts : String → Bool := fun _ => true

/-- What was read: switches with their values in order, and operands. -/
structure Words where
  given : List (String × String) := []
  operands : List String := []
deriving DecidableEq, Repr

namespace Words

def values (w : Words) (name : String) : List String :=
  w.given.filterMap fun (n, v) => if n = name then some v else none

def value? (w : Words) (name : String) : Option String := (w.values name).head?

def has (w : Words) (name : String) : Bool := w.given.any (·.1 = name)

end Words

/-- Whether a word is read as switches rather than as a value or an operand. -/
def isSwitchWord (word : String) : Bool :=
  match word.toList with
  | '-' :: _ :: _ => true
  | _ => false

/-- Notes a switch; one that may be given once is not taken twice. -/
def note (seen : List (String × String)) (s : Switch) (value : String) :
    Except Stop (List (String × String)) :=
  match s.arity with
  | .stop reason => .error reason
  | arity =>
    if arity.isOnce && seen.any (·.1 = s.name) then .error .misuse
    else if arity.takesValue && !s.accepts value then .error .misuse
    else .ok (seen ++ [(s.name, value)])

/-- A cluster of letters; a switch that takes a value takes the rest of the cluster, or is left
open for the next word. -/
def cluster (table : List Switch) (seen : List (String × String)) :
    List Char → Except Stop (List (String × String) × Option Switch)
  | [] => .ok (seen, none)
  | c :: cs =>
    match table.find? (·.letter = some c) with
    | none => .error .misuse
    | some s =>
      if s.arity.takesValue then
        match cs with
        | [] => .ok (seen, some s)
        | '=' :: value => (note seen s (String.ofList value)).map (·, none)
        | value => (note seen s (String.ofList value)).map (·, none)
      else do
        let seen ← note seen s ""
        cluster table seen cs

/-- A long name, and the value behind its equals sign. -/
def cutName (cs : List Char) : String × Option String :=
  (String.ofList (cs.takeWhile (· ≠ '=')),
    match cs.dropWhile (· ≠ '=') with
    | _ :: value => some (String.ofList value)
    | [] => none)

/-- One word of switches. -/
def switchWord (table : List Switch) (seen : List (String × String)) (word : String) :
    Except Stop (List (String × String) × Option Switch) :=
  match word.toList with
  | '-' :: '-' :: cs =>
    let (name, value) := cutName cs
    match table.find? (·.name = name), value with
    | none, _ => .error .misuse
    | some s, some value =>
      if s.arity.takesValue then (note seen s value).map (·, none) else .error .misuse
    | some s, none =>
      if s.arity.takesValue then .ok (seen, some s) else (note seen s "").map (·, none)
  | _ :: cs => cluster table seen cs
  | [] => .error .misuse

/-- Reads words with room for so many operands. With `first`, the first operand ends the
reading, and it and the words after it are the operands. -/
def readWords (table : List Switch) (first : Bool) :
    List (String × String) → Nat → List String → Except Stop Words
  | seen, _, [] => .ok { given := seen }
  | seen, room, word :: words =>
    if word = "--" then
      if !first && words.length ≤ room then .ok { given := seen, operands := words }
      else .error .misuse
    else if isSwitchWord word then
      match switchWord table seen word with
      | .error stop => .error stop
      | .ok (seen, none) => readWords table first seen room words
      | .ok (seen, some s) =>
        match words with
        | [] => .error .misuse
        | value :: words =>
          if isSwitchWord value then .error .misuse
          else match note seen s value with
            | .error stop => .error stop
            | .ok seen => readWords table first seen room words
    else if first then .ok { given := seen, operands := word :: words }
    else match room with
      | 0 => .error .misuse
      | room + 1 => (readWords table first seen room words).map fun w =>
        { w with operands := word :: w.operands }

end Rollout.Command
