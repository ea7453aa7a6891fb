import ExprLang.Number.Binary64

/-!
# Shortest decimals

The fewest significant digits that read back as a given double-precision number, and
of those the nearest to it.  A number lies on a grid of decimals with `count` digits
or between two neighbours of it; the first grid with a neighbour inside the interval
of reals that round to the number decides.
-/

namespace ExprLang

structure Decimal where
  digits : Nat
  exponent : Int
  deriving DecidableEq, Repr

/-- What becomes of a number halfway between two shortest decimals. -/
inductive Tie where
  | toEven
  | upward
  deriving DecidableEq, Repr

namespace Decimal

def trim : Nat → Decimal → Decimal
  | 0, decimal => decimal
  | count + 1, decimal =>
      if decimal.digits ≠ 0 ∧ decimal.digits % 10 = 0 then
        trim count ⟨decimal.digits / 10, decimal.exponent + 1⟩
      else decimal

end Decimal

namespace Shortest

/-- A positive number and the ends of the interval of reals that round to it, all
over one denominator.  The ends belong to the interval when `closed`. -/
structure Interval where
  low : Nat
  value : Nat
  high : Nat
  denominator : Nat
  closed : Bool
  deriving DecidableEq, Repr

def Interval.ofScaled (number : Binary64.Scaled) : Interval :=
  let quarter := Nat.pow 2 number.scale
  let below :=
    if number.significand = Binary64.leadingBit ∧ number.scale ≠ 0 then 1 else 2
  ⟨(4 * number.significand - below) * quarter, 4 * number.significand * quarter,
    (4 * number.significand + 2) * quarter, Nat.pow 2 1076,
    number.significand % 2 = 0⟩

def Interval.holds (interval : Interval) (digits : Nat) (exponent : Int) : Bool :=
  let point := digits * Nat.pow 10 exponent.toNat * interval.denominator
  let low := interval.low * Nat.pow 10 (-exponent).toNat
  let high := interval.high * Nat.pow 10 (-exponent).toNat
  if interval.closed then low ≤ point && point ≤ high
  else low < point && point < high

def Interval.leading (interval : Interval) : Int :=
  (Nat.toDigits 10 (interval.value * Nat.pow 10 400 / interval.denominator)).length -
    401

def onGrid? (tie : Tie) (interval : Interval) (count : Nat) : Option Decimal :=
  let exponent := interval.leading + 1 - count
  let numerator := interval.value * Nat.pow 10 (-exponent).toNat
  let denominator := interval.denominator * Nat.pow 10 exponent.toNat
  let below := numerator / denominator
  let twice := 2 * (numerator % denominator)
  match interval.holds below exponent, interval.holds (below + 1) exponent with
  | true, false => some ⟨below, exponent⟩
  | false, true => some ⟨below + 1, exponent⟩
  | false, false => none
  | true, true =>
      if twice < denominator then some ⟨below, exponent⟩
      else if denominator < twice then some ⟨below + 1, exponent⟩
      else if tie = .toEven ∧ below % 2 = 0 then some ⟨below, exponent⟩
      else some ⟨below + 1, exponent⟩

/-- The shortest decimal of a positive finite number; seventeen digits always
suffice. -/
def ofScaled (tie : Tie) (number : Binary64.Scaled) : Decimal :=
  let interval := Interval.ofScaled number
  let found :=
    (List.range 17).findSome? fun count => onGrid? tie interval (count + 1)
  (found.getD ⟨0, 0⟩).trim 17

end Shortest

end ExprLang
