import Rollout.Number.Binary64

/-!
# The shortest decimal that reads back

Of the decimals that round to a given binary number, the ones with the fewest digits, and of
those the nearest. For each count of digits the two neighbours of the number on the decimal
grid are tested in exact arithmetic; the first count for which one of them reads back wins.
-/

namespace Rollout.Number

/-- Which of two equally near decimals is taken. -/
inductive Tie where
  | even
  | up
deriving DecidableEq, Repr

/-- The absolute value `digits * 10 ^ exponent`. -/
structure Decimal where
  digits : Nat
  exponent : Int
deriving DecidableEq, Repr

/-- The fractions that round to a number, over the denominator `den`: from `low` to `high`,
the ends included when `closed`. -/
structure Interval where
  value : Nat
  low : Nat
  high : Nat
  den : Nat
  closed : Bool

def Interval.contains (i : Interval) (n : Nat) : Bool :=
  if i.closed then i.low ≤ n && n ≤ i.high else i.low < n && n < i.high

/-- The interval of a nonzero number, scaled by `10 ^ 400` so that every grid is integral. The
gap below a power of two is half of the gap above it. -/
def Binary64.interval (x : Binary64) : Interval :=
  let m := x.significand
  let scale := Nat.pow 2 x.exponent * Nat.pow 10 400
  let below := if m = Nat.pow 2 52 ∧ 0 < x.exponent then 1 else 2
  { value := 4 * m * scale
    low := (4 * m - below) * scale
    high := (4 * m + 2) * scale
    den := Nat.pow 2 1076
    closed := m % 2 == 0 }

/-- The decimal on the grid of `step` that stands for the interval, if one reads back. -/
def Interval.onGrid? (i : Interval) (tie : Tie) (step : Nat) : Option Nat :=
  let unit := step * i.den
  let below := i.value / unit
  let low := i.contains (below * unit)
  let high := i.contains ((below + 1) * unit)
  if low && high then
    let twice := 2 * (i.value % unit)
    let up := unit < twice ∨ (twice = unit ∧ (tie = .up ∨ below % 2 = 1))
    some (if up then below + 1 else below)
  else if low then some below
  else if high then some (below + 1)
  else none

/-- Tries the grids from `count` digits on; `length` counts the digits of the whole value. -/
def Interval.search (i : Interval) (tie : Tie) (length count : Nat) : Nat → Option Decimal
  | 0 => none
  | tries + 1 =>
    match i.onGrid? tie (Nat.pow 10 (length - count)) with
    | some digits => some ⟨digits, (length : Int) - count - 400⟩
    | none => i.search tie length (count + 1) tries

/-- Drops the zeros at the end of the digits. -/
def Decimal.strip (d : Decimal) : Nat → Decimal
  | 0 => d
  | fuel + 1 =>
    if d.digits ≠ 0 ∧ d.digits % 10 = 0 then Decimal.strip ⟨d.digits / 10, d.exponent + 1⟩ fuel
    else d

/-- The shortest decimal for the absolute value of a finite number; seventeen digits always
read back. -/
def Binary64.shortest (tie : Tie) (x : Binary64) : Decimal :=
  if x.isZero then ⟨0, 0⟩
  else
    let i := x.interval
    let length := (Nat.toDigits 10 (i.value / i.den)).length
    ((i.search tie length 1 17).getD ⟨0, 0⟩).strip 17

end Rollout.Number
