import ExprLang.Number.Binary64

/-!
# Number literals

Texts that stand for a 64-bit integer or a double-precision number.  Both take a
sign; the latter also takes an exponent and, in any case of letters, the words for
infinity and for no number.
-/

namespace ExprLang.Number

def spanDigits (text : List Char) : List Char × List Char :=
  (text.takeWhile Char.isDigit, text.dropWhile Char.isDigit)

def value (digits : List Char) : Nat :=
  digits.foldl (fun total digit => 10 * total + (digit.toNat - '0'.toNat)) 0

def natural? (text : List Char) : Option Nat :=
  if !text.isEmpty && text.all Char.isDigit then some (value text) else none

def spanSign : List Char → Bool × List Char
  | '-' :: rest => (true, rest)
  | '+' :: rest => (false, rest)
  | text => (false, text)

/-! ## Integers -/

def int64? (text : String) : Option Int64 :=
  let (negative, digits) := spanSign text.toList
  match natural? digits with
  | none => none
  | some magnitude =>
      if negative then
        if magnitude ≤ 0x8000000000000000 then
          some (Int64.ofInt (-(magnitude : Int)))
        else none
      else if magnitude < 0x8000000000000000 then some (Int64.ofInt magnitude)
      else none

/-! ## Floating-point numbers -/

inductive FloatFault where
  | empty
  | malformed
  deriving DecidableEq, Repr

namespace FloatFault

def message : FloatFault → String
  | .empty => "cannot parse float from empty string"
  | .malformed => "invalid float literal"

end FloatFault

def exponent? : List Char → Option Int
  | [] => some 0
  | letter :: rest =>
      if letter = 'e' ∨ letter = 'E' then
        let (negative, digits) := spanSign rest
        (natural? digits).map fun magnitude =>
          if negative then -(magnitude : Int) else magnitude
      else none

/-- Digits with an optional point among, before or after them, at least one digit,
and an exponent. -/
def unsignedDecimal? (text : List Char) : Option (Nat × Int) :=
  let (whole, afterWhole) := spanDigits text
  let (fraction, rest) :=
    match afterWhole with
    | '.' :: afterPoint => spanDigits afterPoint
    | _ => ([], afterWhole)
  if whole.isEmpty && fraction.isEmpty then none
  else (exponent? rest).map fun exponent =>
    (value (whole ++ fraction), exponent - fraction.length)

def unsignedWord? (negative : Bool) (text : List Char) : Option Binary64 :=
  let word := text.map Char.toLower
  if word = "inf".toList ∨ word = "infinity".toList then some (.infinity negative)
  else if word = "nan".toList then some (.notANumber negative)
  else none

def float (text : String) : Except FloatFault Binary64 :=
  if text.isEmpty then .error .empty
  else
    let (negative, rest) := spanSign text.toList
    match unsignedDecimal? rest with
    | some (significand, exponent) => .ok (.ofDecimal negative significand exponent)
    | none =>
        match unsignedWord? negative rest with
        | some number => .ok number
        | none => .error .malformed

end ExprLang.Number
