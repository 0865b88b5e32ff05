import Rollout.Json.Number
import Rollout.Json.Reader

/-!
# TOML numbers, dates and times

Integers of 64 bits to four bases, floating point numbers, and dates and times. Underscores may
stand between digits. A date or a time is kept in its normal form, with the letters `T` and `Z`
in capitals and no idle zeros in the fraction of a second.
-/

namespace Rollout.Toml

open Json (digitsValue)

def isDigitTo (base : Nat) (c : Char) : Bool := (Json.hexDigitOf? c).any (· < base)

/-- Digits to a base with underscores between them, and the rest. -/
def digitsTo (base : Nat) : List Char → List Char × List Char
  | [] => ([], [])
  | c :: cs =>
    if isDigitTo base c then
      match cs with
      | '_' :: d :: rest =>
        if isDigitTo base d then
          let (ds, rest) := digitsTo base (d :: rest)
          (c :: ds, rest)
        else ([c], cs)
      | cs =>
        let (ds, rest) := digitsTo base cs
        (c :: ds, rest)
    else ([], c :: cs)

/-- Decimal digits; at least one. -/
def digits? (cs : List Char) : Option (List Char × List Char) :=
  match digitsTo 10 cs with
  | ([], _) => none
  | found => some found

def valueOf (digits : List Char) : Nat := digitsValue (digits.filterMap Json.digitOf?)

/-- Whether a sign stands in front, if so whether it is a minus, and the rest. -/
def sign (cs : List Char) : Bool × List Char :=
  match cs with
  | '+' :: cs => (false, cs)
  | '-' :: cs => (true, cs)
  | cs => (false, cs)

/-- The whole digits of a number: a single zero, or no zero in front. -/
def whole? (cs : List Char) : Option (List Char × List Char) :=
  match cs with
  | '0' :: cs => some (['0'], cs)
  | cs => digits? cs

/-- The digits after the point, if there is one. -/
def fraction? (cs : List Char) : Option (List Char × List Char) :=
  match cs with
  | '.' :: cs => digits? cs
  | cs => some ([], cs)

/-- The exponent, if there is one. -/
def exponent? (cs : List Char) : Option (Option Int × List Char) :=
  match cs with
  | c :: rest =>
    if c = 'e' ∨ c = 'E' then do
      let (negative, rest) := sign rest
      let (ds, rest) ← digits? rest
      return (some (if negative then -(valueOf ds : Int) else valueOf ds), rest)
    else some (none, cs)
  | [] => some (none, [])

/-- An integer or a floating point number to base ten; a positive one must be in range. -/
def decimal? (cs : List Char) : Option (List Char) := do
  let (negative, cs) := sign cs
  let (ds, cs) ← whole? cs
  let (fraction, cs) ← fraction? cs
  let (exponent, cs) ← exponent? cs
  let isInteger := fraction.isEmpty && exponent.isNone
  let inRange :=
    if isInteger then valueOf ds < Nat.pow 2 63 + (if negative then 1 else 0)
    else negative || Number.Binary64.inRange (valueOf (ds ++ fraction))
      (exponent.getD 0 - fraction.length)
  if inRange then return cs else none

/-- An integer to another base, after its letter. -/
def based? (base : Nat) (cs : List Char) : Option (List Char) :=
  let (ds, rest) := digitsTo base cs
  let n := ds.foldl (fun n c => base * n + (Json.hexDigitOf? c).getD 0) 0
  if !ds.isEmpty && n < Nat.pow 2 63 then some rest else none

/-- The two words that stand for numbers. -/
def wordNumber? (cs : List Char) : Option (List Char) :=
  match (sign cs).2 with
  | 'i' :: 'n' :: 'f' :: rest => some rest
  | 'n' :: 'a' :: 'n' :: rest => some rest
  | _ => none

/-- What follows a number. -/
def number? (cs : List Char) : Option (List Char) :=
  match cs with
  | '0' :: 'x' :: rest => based? 16 rest
  | '0' :: 'o' :: rest => based? 8 rest
  | '0' :: 'b' :: rest => based? 2 rest
  | cs => (wordNumber? cs).or (decimal? cs)

/-! ### Dates and times -/

/-- A number in exactly so many digits, within bounds. -/
def field? (width low high : Nat) (cs : List Char) : Option (Nat × List Char) :=
  let digits := cs.take width
  let n := valueOf digits
  if digits.length = width ∧ digits.all Char.isDigit ∧ low ≤ n ∧ n ≤ high then
    some (n, cs.drop width)
  else none

def after? (c : Char) : List Char → Option (List Char)
  | d :: cs => if d = c then some cs else none
  | [] => none

def daysIn (year month : Nat) : Nat :=
  if month = 2 then
    if year % 4 = 0 ∧ (year % 100 ≠ 0 ∨ year % 400 = 0) then 29 else 28
  else if month = 4 ∨ month = 6 ∨ month = 9 ∨ month = 11 then 30
  else 31

/-- A number with zeros in front up to a width. -/
def padded (width n : Nat) : List Char :=
  let ds := Nat.toDigits 10 n
  List.replicate (width - ds.length) '0' ++ ds

def date? (cs : List Char) : Option (List Char × List Char) := do
  let (year, cs) ← field? 4 0 9999 cs
  let (month, cs) ← field? 2 1 12 (← after? '-' cs)
  let (day, cs) ← field? 2 1 (daysIn year month) (← after? '-' cs)
  return (padded 4 year ++ '-' :: (padded 2 month ++ '-' :: padded 2 day), cs)

/-- The digits of a fraction of a second that count: nine, without idle zeros. -/
def secondFraction (digits : List Char) : List Char :=
  let ds := ((digits.take 9).reverse.dropWhile (· = '0')).reverse
  if ds.isEmpty then [] else '.' :: ds

def time? (cs : List Char) : Option (List Char × List Char) := do
  let (hour, cs) ← field? 2 0 23 cs
  let (minute, cs) ← field? 2 0 59 (← after? ':' cs)
  let (second, cs) ← field? 2 0 60 (← after? ':' cs)
  let clock := padded 2 hour ++ ':' :: (padded 2 minute ++ ':' :: padded 2 second)
  match cs with
  | '.' :: d :: rest =>
    if d.isDigit then
      let ds := (d :: rest).takeWhile Char.isDigit
      return (clock ++ secondFraction ds, (d :: rest).dropWhile Char.isDigit)
    else return (clock, cs)
  | cs => return (clock, cs)

/-- The offset of a time, if there is one. -/
def offset (cs : List Char) : List Char × List Char :=
  let hours : Option (List Char × List Char) := do
    let (negative, rest) ← match cs with
      | '+' :: rest => some (false, rest)
      | '-' :: rest => some (true, rest)
      | _ => none
    let (hour, rest) ← field? 2 0 23 rest
    let (minute, rest) ← field? 2 0 59 (← after? ':' rest)
    let mark := if negative ∧ 0 < hour + minute then '-' else '+'
    return (mark :: (padded 2 hour ++ ':' :: padded 2 minute), rest)
  match cs with
  | 'Z' :: rest => (['Z'], rest)
  | 'z' :: rest => (['Z'], rest)
  | cs => hours.getD ([], cs)

/-- A date, a time or both, in normal form. -/
def moment? (cs : List Char) : Option (String × List Char) :=
  match date? cs with
  | none => (time? cs).map fun (clock, rest) => (String.ofList clock, rest)
  | some (day, rest) =>
    let clock := match rest with
      | c :: cs => if c = 'T' ∨ c = 't' ∨ c = ' ' then time? cs else none
      | [] => none
    match clock with
    | none => some (String.ofList day, rest)
    | some (clock, rest) =>
      let (zone, rest) := offset rest
      some (String.ofList (day ++ 'T' :: (clock ++ zone)), rest)

end Rollout.Toml
