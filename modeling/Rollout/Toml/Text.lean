import Rollout.Json.Source

/-!
# TOML texts

The four kinds of quoted texts: basic ones with escapes and literal ones without, each on one
line or over several. A line end in a text reads as a line feed; a backslash at the end of a
line takes away the blank space that follows.
-/

namespace Rollout.Toml

def apostrophe : Char := Char.ofNat 39

/-- A character that texts and comments may hold: no control character but the tab. -/
def isPlainChar (c : Char) : Bool := c = '\t' || (0x20 ≤ c.toNat && c.toNat != 0x7F)

def isBlank (c : Char) : Bool := c = ' ' || c = '\t'

def skipBlanks (cs : List Char) : List Char := cs.dropWhile isBlank

/-- What follows a line end. -/
def lineEnd? : List Char → Option (List Char)
  | '\n' :: cs => some cs
  | '\r' :: '\n' :: cs => some cs
  | _ => none

/-- The character with this code, if it is one. -/
def charOf? (code : Nat) : Option Char :=
  if h : code.isValidChar then some (Char.ofNatAux code h) else none

/-- A character by its code in as many hexadecimal digits. -/
def coded? (width : Nat) (cs : List Char) : Option (Char × List Char) := do
  let digits := cs.take width
  if digits.length < width then none
  else
    let c ← charOf? (← Json.hexValue? digits)
    return (c, cs.drop width)

/-- The escape that follows a backslash. -/
def escape? : List Char → Option (Char × List Char)
  | [] => none
  | 'u' :: cs => coded? 4 cs
  | 'U' :: cs => coded? 8 cs
  | '/' :: _ => none
  | c :: cs => (Json.escaped? c).map fun e => (e, cs)

/-- A basic text on one line, after its opening quote. -/
def basicLine? : Nat → List Char → Option (List Char × List Char)
  | 0, _ => none
  | _, [] => none
  | fuel + 1, c :: cs =>
    if c = '"' then some ([], cs)
    else if c = '\\' then do
      let (e, cs) ← escape? cs
      let (text, rest) ← basicLine? fuel cs
      return (e :: text, rest)
    else if isPlainChar c then (basicLine? fuel cs).map fun (text, rest) => (c :: text, rest)
    else none

/-- A literal text on one line, after its opening quote. -/
def literalLine? : List Char → Option (List Char × List Char)
  | [] => none
  | c :: cs =>
    if c = apostrophe then some ([], cs)
    else if isPlainChar c then (literalLine? cs).map fun (text, rest) => (c :: text, rest)
    else none

/-- Drops blank space over lines. -/
def skipSpace : Nat → List Char → List Char
  | 0, cs => cs
  | fuel + 1, cs =>
    let cs := skipBlanks cs
    match lineEnd? cs with
    | some cs => skipSpace fuel cs
    | none => cs

/-- A text over several lines up to three quotes, of which there may be up to five. -/
def block? (quote : Char) (escapes : Bool) : Nat → List Char → Option (List Char × List Char)
  | 0, _ => none
  | _, [] => none
  | fuel + 1, c :: cs =>
    let run := ((c :: cs).takeWhile (· = quote)).length
    if 3 ≤ run then
      let inside := min (run - 3) 2
      some (List.replicate inside quote, (c :: cs).drop (inside + 3))
    else if escapes && c = '\\' then
      match lineEnd? (skipBlanks cs) with
      | some after => block? quote escapes fuel (skipSpace after.length after)
      | none => do
        let (e, cs) ← escape? cs
        let (text, rest) ← block? quote escapes fuel cs
        return (e :: text, rest)
    else
      match lineEnd? (c :: cs) with
      | some after => (block? quote escapes fuel after).map fun (text, rest) => ('\n' :: text, rest)
      | none =>
        if isPlainChar c then
          (block? quote escapes fuel cs).map fun (text, rest) => (c :: text, rest)
        else none

/-- Drops the line end that may follow the opening quotes. -/
def dropLineEnd (cs : List Char) : List Char := (lineEnd? cs).getD cs

/-- A quoted text of any kind, with its quotes; only one line when `single`. -/
def quoted? (single : Bool) (cs : List Char) : Option (String × List Char) := do
  let (text, rest) ← match cs with
    | [] => none
    | c :: rest =>
      let triple := !single && (cs.take 3).length == 3 && (cs.take 3).all (· = c)
      if c = '"' then
        if triple then block? c true (cs.length + 1) (dropLineEnd (cs.drop 3))
        else basicLine? (rest.length + 1) rest
      else if c = apostrophe then
        if triple then block? c false (cs.length + 1) (dropLineEnd (cs.drop 3))
        else literalLine? rest
      else none
  return (String.ofList text, rest)

end Rollout.Toml
