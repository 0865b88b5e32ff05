import Rollout.Number.Shortest

/-!
# Layouts of floating point text

How the digits of a number become text: a layout says for which exponents the number is written
with its point in place, how whole numbers end, and how an exponent is written otherwise.
-/

namespace Rollout.Number

/-- The decisions of one format. The exponent meant here is that of the first digit. -/
structure Layout where
  positional : Int → Bool
  wholeEnding : String
  exponentMark : String
  plusSign : String
  tie : Tie

/-- Every number with its point in place, whole numbers without a point. -/
def plainLayout : Layout :=
  { positional := fun _ => true
    wholeEnding := ""
    exponentMark := "e"
    plusSign := ""
    tie := .up }

def zeros (n : Nat) : List Char := List.replicate n '0'

/-- Digits with the point after the first `place` of them. -/
def pointAfter (wholeEnding : String) (digits : List Char) (place : Int) : List Char :=
  if place ≤ 0 then '0' :: '.' :: (zeros (-place).toNat ++ digits)
  else
    let whole := place.toNat
    if digits.length ≤ whole then
      digits ++ zeros (whole - digits.length) ++ wholeEnding.toList
    else digits.take whole ++ '.' :: digits.drop whole

def withExponent (layout : Layout) (digits : List Char) (exponent : Int) : List Char :=
  let mantissa := match digits with
    | [] => ['0']
    | [d] => [d]
    | d :: rest => d :: '.' :: rest
  let sign := if exponent < 0 then "-" else layout.plusSign
  mantissa ++ layout.exponentMark.toList ++ sign.toList ++ Nat.toDigits 10 exponent.natAbs

/-- The text of a finite number in a layout. -/
def Layout.write (layout : Layout) (x : Binary64) : List Char :=
  let d := x.shortest layout.tie
  let digits := Nat.toDigits 10 d.digits
  let exponent := d.exponent + digits.length - 1
  let body :=
    if layout.positional exponent then pointAfter layout.wholeEnding digits (exponent + 1)
    else withExponent layout digits exponent
  if x.isNegative then '-' :: body else body

end Rollout.Number
