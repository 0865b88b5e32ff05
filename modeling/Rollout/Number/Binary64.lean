/-!
# Binary floating point numbers of 64 bits

A number is its bit pattern, read as a sign, a significand and an exponent; arithmetic is
exact arithmetic on fractions of naturals followed by one rounding to the nearest number, ties
to the even significand. Only finite numbers arise: a result out of range is `none`. Powers are
spelled `Nat.pow`, so that no import changes what they unfold to.
-/

namespace Rollout.Number

/-- A 64-bit binary floating point number by its bits. -/
structure Binary64 where
  bits : UInt64
deriving DecidableEq, Repr, Inhabited

namespace Binary64

def signWeight : Nat := Nat.pow 2 63

/-- The bits below the sign as a number; finite numbers are ordered by it. -/
def magnitude (x : Binary64) : Nat := x.bits.toNat % signWeight

def isNegative (x : Binary64) : Bool := signWeight ≤ x.bits.toNat

/-- The magnitude of infinity, the first that is out of range. -/
def limit : Nat := 2047 * Nat.pow 2 52

/-- The number with these magnitude bits and this sign. -/
def ofMagnitude (negative : Bool) (m : Nat) : Binary64 :=
  ⟨UInt64.ofNat (m + if negative then signWeight else 0)⟩

def negate (x : Binary64) : Binary64 := ofMagnitude (!x.isNegative) x.magnitude

/-- The significand `m` and the exponent `e` of the absolute value `m * 2 ^ (e - 1074)`. -/
def significand (x : Binary64) : Nat :=
  let fraction := x.magnitude % Nat.pow 2 52
  if x.magnitude / Nat.pow 2 52 = 0 then fraction else fraction + Nat.pow 2 52

def exponent (x : Binary64) : Nat := x.magnitude / Nat.pow 2 52 - 1

def isZero (x : Binary64) : Bool := x.magnitude == 0

/-- The quotient as a natural number, rounded to the nearest, a half to the even neighbour. -/
def roundHalfEven (num den : Nat) : Nat :=
  let q := num / den
  let twice := 2 * (num % den)
  if den < twice ∨ (twice = den ∧ q % 2 = 1) then q + 1 else q

/-- The magnitude of the number nearest to `num / den`. The exponent is the least for which
the quotient is below `2 ^ 53`, and rounding up to `2 ^ 53` carries into the exponent. -/
def nearestMagnitude (num den : Nat) : Nat :=
  let scaled := num * Nat.pow 2 1074
  let e := (scaled / den).log2 - 52
  e * Nat.pow 2 52 + roundHalfEven scaled (den * Nat.pow 2 e)

/-- The number nearest to a fraction, if that is in range. -/
def ofRatio? (negative : Bool) (num den : Nat) : Option Binary64 :=
  let m := nearestMagnitude num den
  if m < limit then some (ofMagnitude negative m) else none

/-- The number nearest to `n * 10 ^ e`, if that is in range. -/
def ofDecimal? (negative : Bool) (n : Nat) (e : Int) : Option Binary64 :=
  match e with
  | .ofNat k => ofRatio? negative (n * Nat.pow 10 k) 1
  | .negSucc k => ofRatio? negative n (Nat.pow 10 (k + 1))

/-- Whether `n * 10 ^ e` is in range; far exponents are decided by the count of digits. -/
def inRange (n : Nat) (e : Int) : Bool :=
  let size := (Nat.toDigits 10 n).length
  n == 0 || e + size < 300 || (e + size < 320 && (ofDecimal? false n e).isSome)

/-- The product of the absolute values, rounded, with the sign of the first. -/
def scaleUp? (x y : Binary64) : Option Binary64 :=
  ofRatio? x.isNegative (x.significand * y.significand * Nat.pow 2 (x.exponent + y.exponent))
    (Nat.pow 2 2148)

/-- The quotient of the absolute values, rounded, with the sign of the first. -/
def scaleDown? (x y : Binary64) : Option Binary64 :=
  ofRatio? x.isNegative (x.significand * Nat.pow 2 x.exponent)
    (y.significand * Nat.pow 2 y.exponent)

end Binary64
end Rollout.Number
