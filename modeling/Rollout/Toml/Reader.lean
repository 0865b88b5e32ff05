import Rollout.Toml.Basic
import Rollout.Toml.Number
import Rollout.Toml.Text

/-!
# Reading TOML

A reader of TOML documents: statements, one to a line, with comments, and from them the table
of the document. Arrays and inline tables nest less than `nestingLimit` levels deep, and a key
has fewer parts than that.
-/

namespace Rollout.Toml

def nestingLimit : Nat := 80

def isBareKeyChar (c : Char) : Bool := c.isAlphanum || c = '_' || c = '-'

/-- A part of a key. -/
def keyPart? (cs : List Char) : Option (String × List Char) :=
  match cs with
  | [] => none
  | c :: _ =>
    if c = '"' ∨ c = apostrophe then quoted? true cs
    else if isBareKeyChar c then
      some (String.ofList (cs.takeWhile isBareKeyChar), cs.dropWhile isBareKeyChar)
    else none

/-- A key by its parts, with the blanks around it. -/
def keyParts? : Nat → List Char → Option (List String × List Char)
  | 0, _ => none
  | fuel + 1, cs => do
    let (part, rest) ← keyPart? (skipBlanks cs)
    match skipBlanks rest with
    | '.' :: rest =>
      let (parts, rest) ← keyParts? fuel rest
      return (part :: parts, rest)
    | rest => return ([part], rest)

/-- A key as the path to a table and the name in it. -/
def key? (cs : List Char) : Option ((List String × String) × List Char) := do
  let (parts, rest) ← keyParts? (cs.length + 1) cs
  let last ← parts.getLast?
  if parts.length < nestingLimit then return ((parts.dropLast, last), rest) else none

/-- What follows a comment, up to its line end. -/
def skipComment (cs : List Char) : List Char :=
  match cs with
  | '#' :: rest => rest.dropWhile isPlainChar
  | cs => cs

/-- Drops blank space, line ends and comments. -/
def skipTrivia : Nat → List Char → List Char
  | 0, cs => cs
  | fuel + 1, cs =>
    match lineEnd? (skipComment (skipBlanks cs)) with
    | some rest => skipTrivia fuel rest
    | none => skipBlanks cs

/-- What follows the rest of a line, which may hold a comment. -/
def endOfLine? (cs : List Char) : Option (List Char) :=
  match skipComment (skipBlanks cs) with
  | [] => some []
  | cs => lineEnd? cs

def written (cs rest : List Char) : String := String.ofList (cs.take (cs.length - rest.length))

/-- A value that holds no others. -/
def scalar? (cs : List Char) : Option (Item × List Char) :=
  match cs with
  | 't' :: 'r' :: 'u' :: 'e' :: rest => some (.bool true, rest)
  | 'f' :: 'a' :: 'l' :: 's' :: 'e' :: rest => some (.bool false, rest)
  | [] => none
  | c :: _ =>
    if c = '"' ∨ c = apostrophe then (quoted? false cs).map fun (s, rest) => (.text s, rest)
    else match moment? cs with
      | some (normal, rest) => some (.moment normal, rest)
      | none => (number? cs).map fun rest => (.number (written cs rest), rest)

mutual

/-- A value; `room` is the number of levels that may still be opened. -/
def value? : Nat → Nat → List Char → Option (Item × List Char)
  | 0, _, _ => none
  | fuel + 1, room, cs =>
    match cs with
    | '[' :: rest =>
      match room with
      | 0 => none
      | room + 1 => (items? fuel room rest).map fun (items, rest) => (.array items, rest)
    | '{' :: rest =>
      match room, skipBlanks rest with
      | 0, _ => none
      | _, '}' :: rest => some (.table .inline [], rest)
      | room + 1, rest => do
        let (pairs, rest) ← pairs? fuel room rest
        let entries ← Entries.addPairs pairs []
        return (.table .inline entries, rest)
    | cs => scalar? cs

/-- The items of an array, through the closing bracket; a comma may follow the last. -/
def items? : Nat → Nat → List Char → Option (List Item × List Char)
  | 0, _, _ => none
  | fuel + 1, room, cs =>
    match skipTrivia cs.length cs with
    | ']' :: rest => some ([], rest)
    | cs => do
      let (item, rest) ← value? fuel room cs
      match skipTrivia rest.length rest with
      | ',' :: rest =>
        let (items, rest) ← items? fuel room rest
        return (item :: items, rest)
      | ']' :: rest => return ([item], rest)
      | _ => none

/-- The pairs of an inline table that has some, through the closing brace. -/
def pairs? : Nat → Nat → List Char → Option (List Pair × List Char)
  | 0, _, _ => none
  | fuel + 1, room, cs => do
    let ((path, key), rest) ← key? cs
    match rest with
    | '=' :: rest =>
      let (value, rest) ← value? fuel room (skipBlanks rest)
      match skipBlanks rest with
      | ',' :: rest =>
        let (pairs, rest) ← pairs? fuel room rest
        return (⟨path, key, value⟩ :: pairs, rest)
      | '}' :: rest => return ([⟨path, key, value⟩], rest)
      | _ => none
    | _ => none

end

/-- A header after its opening brackets, with the rest of its line. -/
def header? (isElement : Bool) (cs : List Char) : Option (Header × List Char) := do
  let ((path, key), rest) ← key? cs
  let rest ← match isElement, rest with
    | false, ']' :: rest => some rest
    | true, ']' :: ']' :: rest => some rest
    | _, _ => none
  return (⟨path, key, isElement⟩, ← endOfLine? rest)

/-- A pair with the rest of its line. -/
def pair? (cs : List Char) : Option (Pair × List Char) := do
  let ((path, key), rest) ← key? cs
  match rest with
  | '=' :: rest =>
    let rest := skipBlanks rest
    let (value, rest) ← value? (rest.length + 1) (nestingLimit - 1) rest
    return (⟨path, key, value⟩, ← endOfLine? rest)
  | _ => none

/-- The statements of a text. -/
def statements? : Nat → List Char → Option (List Statement)
  | 0, _ => none
  | fuel + 1, cs =>
    match skipBlanks cs with
    | [] => some []
    | '[' :: '[' :: rest => do
      let (h, rest) ← header? true rest
      return .header h :: (← statements? fuel rest)
    | '[' :: rest => do
      let (h, rest) ← header? false rest
      return .header h :: (← statements? fuel rest)
    | c :: rest =>
      if c = '#' ∨ c = '\n' ∨ c = '\r' then do
        statements? fuel (← endOfLine? (c :: rest))
      else do
        let (p, rest) ← pair? (c :: rest)
        return .pair p :: (← statements? fuel rest)

def dropByteOrderMark (cs : List Char) : List Char :=
  match cs with
  | c :: rest => if c.toNat = 0xFEFF then rest else c :: rest
  | [] => []

/-- Reads a whole document. -/
def read? (text : String) : Option Entries := do
  let cs := dropByteOrderMark text.toList
  Entries.ofStatements? (← statements? (cs.length + 1) cs)

end Rollout.Toml
