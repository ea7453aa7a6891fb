/-!
# Double-precision numbers

A number is kept as its 64-bit pattern: one sign bit, eleven exponent bits and 52
fraction bits.  `Binary64.ofRatio` is the nearest number to a fraction, a half going
to the even neighbour.
-/

namespace ExprLang

structure Binary64 where
  bits : UInt64
  deriving DecidableEq, Repr

namespace Binary64

def signBit : Nat := 0x8000000000000000

/-- The bit above the fraction: one step of the exponent, and the leading bit of a
significand. -/
def leadingBit : Nat := 0x10000000000000

def infinityBits : Nat := 0x7ff0000000000000

def isNegative (number : Binary64) : Bool := signBit ≤ number.bits.toNat

def magnitudeBits (number : Binary64) : Nat := number.bits.toNat % signBit

def isFinite (number : Binary64) : Bool := number.magnitudeBits < infinityBits

def isInfinite (number : Binary64) : Bool := number.magnitudeBits = infinityBits

def ofSign (negative : Bool) (magnitude : Nat) : Binary64 :=
  ⟨(if negative then signBit + magnitude else magnitude).toUInt64⟩

def infinity (negative : Bool) : Binary64 := ofSign negative infinityBits

def notANumber (negative : Bool) : Binary64 := ofSign negative 0x7ff8000000000000

/-! ## The value of a finite number -/

/-- The value of a magnitude pattern is `significand * 2 ^ (scale - 1074)`. -/
structure Scaled where
  significand : Nat
  scale : Nat
  deriving DecidableEq, Repr

def scaled (number : Binary64) : Scaled :=
  let exponent := number.magnitudeBits / leadingBit
  let fraction := number.magnitudeBits % leadingBit
  if exponent = 0 then ⟨fraction, 0⟩ else ⟨leadingBit + fraction, exponent - 1⟩

/-! ## Rounding -/

def roundHalfEven (numerator denominator : Nat) : Nat :=
  let quotient := numerator / denominator
  let twice := 2 * (numerator % denominator)
  if denominator < twice ∨ (twice = denominator ∧ quotient % 2 = 1) then
    quotient + 1
  else quotient

def scaleOf (numerator denominator : Nat) : Nat :=
  let least := 1074 + numerator.log2 - denominator.log2 - 53
  if 2 * leadingBit * (denominator * Nat.pow 2 least) ≤ numerator * Nat.pow 2
    1074 then least + 1
  else least

/-- The magnitude pattern nearest to a fraction.  The significand's leading bit
carries into the exponent bits, and what passes the largest exponent is infinity. -/
def magnitudeOfRatio (numerator denominator : Nat) : Nat :=
  let scale := scaleOf numerator denominator
  let significand :=
    roundHalfEven (numerator * Nat.pow 2 1074) (denominator * Nat.pow 2 scale)
  min infinityBits (scale * leadingBit + significand)

def ofRatio (negative : Bool) (numerator denominator : Nat) : Binary64 :=
  ofSign negative (magnitudeOfRatio numerator denominator)

/-- The nearest number to `significand * 10 ^ exponent`.  Beyond 400 decimal places
on either side every value rounds to infinity or to zero. -/
def ofDecimal (negative : Bool) (significand : Nat) (exponent : Int) : Binary64 :=
  let places := (Nat.toDigits 10 significand).length + exponent
  if significand = 0 ∨ places < -400 then ofSign negative 0
  else if 400 < places then infinity negative
  else ofRatio negative (significand * Nat.pow 10 exponent.toNat)
    (Nat.pow 10 (-exponent).toNat)

end Binary64

end ExprLang
