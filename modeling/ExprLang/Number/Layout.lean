import ExprLang.Number.Shortest

/-!
# Number layouts

How the shortest digits of a number are laid out as text: positionally, with at
least one digit after the point, or with an exponent.
-/

namespace ExprLang

structure NumberLayout where
  /-- The least and the greatest exponent of the leading digit that is written
  positionally. -/
  leastPositional : Int
  greatestPositional : Int
  /-- What stands between `e` and a positive exponent. -/
  exponentPlus : String
  tie : Tie

namespace NumberLayout

def zeros (count : Nat) : String := String.ofList (List.replicate count '0')

def positional (digits : List Char) (leading : Int) : String :=
  if leading < 0 then "0." ++ zeros ((-leading).toNat - 1) ++ String.ofList digits
  else
    let whole := leading.toNat + 1
    if digits.length ≤ whole then
      String.ofList digits ++ zeros (whole - digits.length) ++ ".0"
    else String.ofList (digits.take whole) ++ "." ++
      String.ofList (digits.drop whole)

def exponential (plus : String) (digits : List Char) (leading : Int) : String :=
  let mantissa :=
    if digits.length ≤ 1 then String.ofList digits
    else String.ofList (digits.take 1) ++ "." ++ String.ofList (digits.drop 1)
  let exponent :=
    if leading < 0 then "-" ++ Nat.repr (-leading).toNat
    else plus ++ Nat.repr leading.toNat
  mantissa ++ "e" ++ exponent

def render (layout : NumberLayout) (number : Binary64) : String :=
  let sign := if number.isNegative then "-" else ""
  if number.magnitudeBits = 0 then sign ++ "0.0"
  else
    let decimal := Shortest.ofScaled layout.tie number.scaled
    let digits := Nat.toDigits 10 decimal.digits
    let leading := decimal.exponent + digits.length - 1
    if layout.leastPositional ≤ leading ∧ leading ≤ layout.greatestPositional then
      sign ++ positional digits leading
    else sign ++ exponential layout.exponentPlus digits leading

end NumberLayout

end ExprLang
