import Rollout.Yaml.Plain

/-!
# Scalars

A text is written plain where a reader gets the same text back, between single quotes where
it would be taken for something else or for structure, as a literal block when it has several
lines, and between double quotes with escapes when it holds what the other styles cannot.
-/

namespace Rollout.Yaml

/-- The styles in which a text can be written. -/
inductive Style where
  | plain
  | single
  | double
  | literal
deriving DecidableEq, Repr

def lineSeparator : Char := Char.ofNat 0x2028

def paragraphSeparator : Char := Char.ofNat 0x2029

/-- The characters that end a line. -/
def isBreak (c : Char) : Bool :=
  c = '\n' || c = '\r' || c.toNat == 0x85 || c = lineSeparator || c = paragraphSeparator

/-- White space as indicators see it; the end of a text counts. -/
def isGap : Option Char → Bool
  | none => true
  | some c => c = ' ' || c = '\t' || isBreak c || c.toNat == 0

/-- The characters that can be written as they are. -/
def isPrintable (c : Char) : Bool :=
  let n := c.toNat
  n == 10 || (0x20 ≤ n && n ≤ 0x7E) || (0xA0 ≤ n && n ≤ 0xD7FF) ||
    (0xE000 ≤ n && n ≤ 0xFFFD && n != 0xFEFF) || 0x10000 ≤ n

def quoteMark : Char := Char.ofNat 39

/-- The characters that mean structure at the start of a scalar. -/
def indicators : List Char :=
  ['#', ',', '[', ']', '\x7b', '\x7d', '&', '*', '!', '|', '>', quoteMark, '"', '%', '@',
    Char.ofNat 96]

/-- Whether a text starts like structure. -/
def startsAsStructure (cs : List Char) : Bool :=
  match cs with
  | [] => false
  | c :: rest =>
    cs.take 3 = ['-', '-', '-'] || cs.take 3 = ['.', '.', '.'] || indicators.contains c ||
      ((c = '?' || c = ':' || c = '-') && isGap rest.head?)

/-- Whether a colon before white space, or a number sign after it, occurs past the start. -/
def holdsStructure : Option Char → List Char → Bool
  | _, [] => false
  | none, c :: rest => holdsStructure (some c) rest
  | some before, c :: rest =>
    (c = ':' && isGap rest.head?) || (c = '#' && isGap (some before)) ||
      holdsStructure (some c) rest

/-- Whether a character of the first kind stands right before one of the second. -/
def holdsPair (first second : Char → Bool) : List Char → Bool
  | a :: b :: rest => (first a && second b) || holdsPair first second (b :: rest)
  | _ => false

def isSpace (c : Char) : Bool := c = ' '

def hasBreak (cs : List Char) : Bool := cs.any isBreak

/-- Spaces before a break, and characters that only an escape can write. -/
def needsEscapes (cs : List Char) : Bool :=
  holdsPair isSpace isBreak cs || cs.any (!isPrintable ·)

def endsIn (p : Char → Bool) (cs : List Char) : Bool := cs.getLast?.any p

def startsIn (p : Char → Bool) (cs : List Char) : Bool := cs.head?.any p

def allowsPlain (cs : List Char) : Bool :=
  !(startsAsStructure cs || holdsStructure none cs || startsIn isSpace cs || endsIn isSpace cs ||
    hasBreak cs || needsEscapes cs)

def allowsSingle (cs : List Char) : Bool := !(holdsPair isBreak isSpace cs || needsEscapes cs)

def allowsLiteral (cs : List Char) : Bool := !(endsIn isSpace cs || needsEscapes cs)

/-- The style of a text. -/
def styleOf (s : String) : Style :=
  let cs := s.toList
  if cs.contains '\n' then if allowsLiteral cs then .literal else .double
  else if !readsAsOther s && allowsPlain cs then .plain
  else if allowsSingle cs then .single
  else .double

/-- Digits of a character code, with zeros in front up to a width. -/
def paddedHex (width n : Nat) : List Char :=
  let digits := (Nat.toDigits 16 n).map Char.toUpper
  List.replicate (width - digits.length) '0' ++ digits

/-- The escapes with a letter of their own. -/
def letterEscapes : List (Nat × Char) :=
  [(0x00, '0'), (0x07, 'a'), (0x08, 'b'), (0x09, 't'), (0x0A, 'n'), (0x0B, 'v'), (0x0C, 'f'),
    (0x0D, 'r'), (0x1B, 'e'), (0x22, '"'), (0x5C, '\\'), (0x85, 'N'), (0x2028, 'L'),
    (0x2029, 'P')]

/-- A character between double quotes. -/
def escape (c : Char) : List Char :=
  let n := c.toNat
  match letterEscapes.find? (·.1 = n) with
  | some (_, letter) => ['\\', letter]
  | none =>
    if isPrintable c then [c]
    else if n ≤ 0xFF then '\\' :: 'x' :: paddedHex 2 n
    else if n ≤ 0xFFFF then '\\' :: 'u' :: paddedHex 4 n
    else '\\' :: 'U' :: paddedHex 8 n

def blanks (n : Nat) : List Char := List.replicate n ' '

/-- The characters of a text with indentation after every run of breaks; `fresh` says that a
line was just begun. -/
def indented (indent : Nat) (write : Char → List Char) : Bool → List Char → List Char
  | _, [] => []
  | fresh, c :: cs =>
    if isBreak c then c :: indented indent write true cs
    else (if fresh then blanks indent else []) ++ write c ++ indented indent write false cs

def doubledQuote (c : Char) : List Char := if c = quoteMark then [c, c] else [c]

def singleQuoted (indent : Nat) (cs : List Char) : List Char :=
  quoteMark :: (indented indent doubledQuote false cs ++
    (if endsIn isBreak cs then blanks indent else []) ++ [quoteMark])

def doubleQuoted (cs : List Char) : List Char := '"' :: (cs.flatMap escape ++ ['"'])

/-- How the breaks at the end of a literal block count: dropped, one kept, all kept. -/
def chomping (cs : List Char) : List Char :=
  match cs.reverse with
  | [] => ['-']
  | last :: before =>
    if !isBreak last then ['-'] else if before.head?.all isBreak then ['+'] else []

/-- A literal block; a text that starts with white space states the indentation. -/
def literal (indent : Nat) (cs : List Char) : List Char :=
  let hint := if startsIn (fun c => isSpace c || isBreak c) cs then ['2'] else []
  '|' :: (hint ++ chomping cs ++ '\n' :: indented indent (fun c => [c]) true cs)

/-- A text as a scalar; the lines after the first are indented. -/
def scalar (indent : Nat) (s : String) : List Char :=
  match styleOf s with
  | .plain => s.toList
  | .single => singleQuoted indent s.toList
  | .double => doubleQuoted s.toList
  | .literal => literal indent s.toList

/-- The size in bytes up to which a key is written in front of its colon. -/
def maxKeySize : Nat := 128

def isSimpleKey (key : String) : Bool := !hasBreak key.toList && key.utf8ByteSize ≤ maxKeySize

end Rollout.Yaml
