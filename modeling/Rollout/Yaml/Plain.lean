import Rollout.Json.Reader
import Rollout.Json.Number

/-!
# Words that a reader of YAML takes for something else

A plain scalar is read as null, a flag or a number when it looks like one (YAML 1.2, core
schema, with binary integers besides). `readsAsOther` says which texts do; these have to be
quoted to remain texts. Digits after a leading zero are quoted as well.
-/

namespace Rollout.Yaml

open Json (takeDigits digitsValue)
open Number (Binary64)

def nullWords : List String := ["", "~", "null", "Null", "NULL"]

def flagWords : List String := ["true", "True", "TRUE", "false", "False", "FALSE"]

def specialFloats : List String :=
  [".inf", ".Inf", ".INF", "+.inf", "+.Inf", "+.INF", "-.inf", "-.Inf", "-.INF", ".nan", ".NaN",
    ".NAN"]

def isSign (c : Char) : Bool := c = '+' || c = '-'

def dropSign : List Char → List Char
  | [] => []
  | c :: cs => if isSign c then cs else c :: cs

def startsSigned : List Char → Bool
  | [] => false
  | c :: _ => isSign c

/-- The digits of a numeral to a base, if there is nothing else and at least one. -/
def numeralTo? (base : Nat) (digits : List Char) : Option Nat :=
  if digits.isEmpty then none
  else digits.foldlM (fun n c => do
    let d ← Json.hexDigitOf? c
    if d < base then some (base * n + d) else none) 0

/-- Whether an integer, of which this is the absolute value, is in the range of 128 bits. -/
def inIntegerRange (negative : Bool) (n : Nat) : Bool :=
  if negative then n ≤ Nat.pow 2 127 else n < Nat.pow 2 128

/-- A digit follows a leading zero, and there are only digits. -/
def hasIdleZero (cs : List Char) : Bool :=
  match dropSign cs with
  | '0' :: c :: rest => (c :: rest).all Char.isDigit
  | _ => false

/-- Base and digits of a text without its sign. -/
def basedDigits : List Char → Nat × List Char
  | '0' :: 'x' :: cs => (16, cs)
  | '0' :: 'o' :: cs => (8, cs)
  | '0' :: 'b' :: cs => (2, cs)
  | cs => (10, cs)

def readsAsInteger (cs : List Char) : Bool :=
  let (base, digits) := basedDigits (dropSign cs)
  match numeralTo? base digits with
  | some n => inIntegerRange (cs.head? = some '-') n
  | none => false

/-- The digits after the point, if there is one, and the rest. -/
def fraction : List Char → List Nat × List Char
  | '.' :: cs => takeDigits cs
  | cs => ([], cs)

/-- The value of an exponent, zero where there is none; `none` for something else. -/
def exponent? : List Char → Option Int
  | [] => some 0
  | c :: cs =>
    if c = 'e' ∨ c = 'E' then
      match Json.exponentDigits? cs with
      | some ((negative, ds), []) =>
        some (if negative then -(digitsValue ds : Int) else digitsValue ds)
      | _ => none
    else none

/-- A decimal with digits before or after its point and an optional exponent. -/
def readsAsFloat (cs : List Char) : Bool :=
  let (whole, rest) := takeDigits (dropSign cs)
  let (frac, rest) := fraction rest
  match exponent? rest with
  | none => false
  | some e => !(whole ++ frac).isEmpty &&
      Binary64.inRange (digitsValue (whole ++ frac)) (e - frac.length)

/-- Whether a plain scalar with this text is not read as the text. -/
def readsAsOther (s : String) : Bool :=
  let cs := s.toList
  nullWords.contains s || flagWords.contains s || specialFloats.contains s || hasIdleZero cs ||
    readsAsInteger cs || readsAsFloat cs

end Rollout.Yaml
