/-!
# Binary operators

The twelve operators, their spelling, their classes and the three tiers of
precedence.
-/

namespace ExprLang

inductive Operator where
  | add
  | sub
  | mul
  | div
  | eq
  | notEq
  | or
  | and
  | greater
  | greaterEq
  | less
  | lessEq
  deriving DecidableEq, Repr

/-- Tiers of precedence; an expression is split at its loosest operator first. -/
inductive Tier where
  | comparison
  | additive
  | multiplicative
  deriving DecidableEq, Repr

namespace Operator

def symbol : Operator → String
  | .add => "+"
  | .sub => "-"
  | .mul => "*"
  | .div => "/"
  | .eq => "=="
  | .notEq => "!="
  | .or => "||"
  | .and => "&&"
  | .greater => ">"
  | .greaterEq => ">="
  | .less => "<"
  | .lessEq => "<="

def isLogical : Operator → Bool
  | .or | .and => true
  | _ => false

def isEquality : Operator → Bool
  | .eq | .notEq => true
  | _ => false

def isOrdering : Operator → Bool
  | .greater | .greaterEq | .less | .lessEq => true
  | _ => false

def isArithmetic : Operator → Bool
  | .add | .sub | .mul | .div => true
  | _ => false

def tier : Operator → Tier
  | .add | .sub => .additive
  | .mul | .div => .multiplicative
  | _ => .comparison

end Operator

end ExprLang
