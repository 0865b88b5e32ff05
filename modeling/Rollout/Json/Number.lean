import Rollout.Json.Source
import Rollout.Number.Layout

/-!
# The values of JSON numbers

A number written with digits only is an integer as long as it fits 64 bits, signed or not;
every other number is a binary floating point number. Its digits are gathered into a 64-bit
significand, digits that no longer fit count as a power of ten or are dropped, and the
significand is multiplied or divided once by the power of ten. A number out of range has no
value.
-/

namespace Rollout.Json

open Rollout.Number

/-- The value of a JSON number. -/
inductive Number where
  | integer (n : Int)
  | real (x : Binary64)
deriving DecidableEq, Repr, Inhabited

def maxSignificand : Nat := UInt64.size - 1

/-- Appends digits to a significand as long as it fits, and returns the digits left over. -/
def gather (significand : Nat) : List Nat → Nat × List Nat
  | [] => (significand, [])
  | d :: ds =>
    if significand * 10 + d ≤ maxSignificand then gather (significand * 10 + d) ds
    else (significand, d :: ds)

/-- The power of ten as a floating point number; `none` above `10 ^ 308`. -/
def powerOfTen? (n : Nat) : Option Binary64 :=
  if n ≤ 308 then Binary64.ofRatio? false (Nat.pow 10 n) 1 else none

/-- Divides by `10 ^ n`, in steps of `10 ^ 308`. -/
def divideByPower (x : Binary64) (n : Nat) : Nat → Option Binary64
  | 0 => some x
  | fuel + 1 =>
    match powerOfTen? n with
    | some p => x.scaleDown? p
    | none =>
      if x.isZero then some x
      else do
        let p ← powerOfTen? 308
        let y ← x.scaleDown? p
        divideByPower y (n - 308) fuel

/-- The significand times a power of ten. -/
def scaled? (significand : Nat) (exponent : Int) : Option Binary64 := do
  let x ← Binary64.ofRatio? false significand 1
  match exponent with
  | .ofNat n =>
    match powerOfTen? n with
    | some p => x.scaleUp? p
    | none => if x.isZero then some x else none
  | .negSucc n => divideByPower x (n + 1) (n + 2)

def digitsValue (ds : List Nat) : Nat := ds.foldl (fun n d => 10 * n + d) 0

/-- The largest exponent that is computed with. -/
def maxExponent : Nat := Nat.pow 2 31 - 1

/-- The value of a numeral with a fraction, with an exponent or with too many digits. -/
def Numeral.real? (n : Numeral) : Option Binary64 := do
  let (significand, extra) := gather 0 n.whole
  let (significand, dropped) := gather significand n.fraction
  let start : Int := extra.length - (n.fraction.length - dropped.length : Nat)
  let x ← match n.exponent with
    | none => scaled? significand start
    | some (negative, ds) =>
      let e := digitsValue ds
      if maxExponent < e then
        if significand ≠ 0 ∧ negative = false then none else Binary64.ofRatio? false 0 1
      else scaled? significand (start + if negative then -(e : Int) else e)
  return if n.negative then x.negate else x

/-- The value of a numeral. Minus zero is not an integer. -/
def Numeral.value? (n : Numeral) : Option Number :=
  let whole := digitsValue n.whole
  if n.fraction = [] ∧ n.exponent = none ∧
      (if n.negative then 0 < whole ∧ whole ≤ Nat.pow 2 63 else whole ≤ maxSignificand) then
    some (.integer (if n.negative then -(whole : Int) else whole))
  else n.real?.map .real

/-- Numbers are positional from `10 ^ -5` on and below `10 ^ 16`, whole ones end in `.0`, and
every exponent has a sign. -/
def layout : Layout :=
  { positional := fun e => -5 ≤ e && e < 16
    wholeEnding := ".0"
    exponentMark := "e"
    plusSign := "+"
    tie := .even }

def integerText (n : Int) : List Char :=
  if n < 0 then '-' :: Nat.toDigits 10 n.natAbs else Nat.toDigits 10 n.natAbs

def Number.text : Number → List Char
  | .integer n => integerText n
  | .real x => layout.write x

end Rollout.Json
