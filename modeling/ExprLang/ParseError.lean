import ExprLang.Number.Literal
import ExprLang.Token.Basic

/-!
# Parse errors

Why a list of tokens is no program, with the line to blame where there is one.
-/

namespace ExprLang

inductive Expectation where
  | assignment
  | statement
  | functionEnd
  | identifier
  | type
  | comma
  | elementType
  | elseBranch
  | callee
  deriving DecidableEq, Repr

namespace Expectation

def text : Expectation → String
  | .assignment => "="
  | .statement => "start of statement"
  | .functionEnd => "end of function"
  | .identifier => "identifier"
  | .type => "type"
  | .comma => "','"
  | .elementType => "element type after []"
  | .elseBranch => "else"
  | .callee => "function after !"

end Expectation

inductive ParseError where
  | illegalCharacter (line : Nat) (character : String)
  | unexpected (line : Nat) (found : String) (expected : Expectation)
  | invalidToken (line : Nat) (token : String)
  | unbalanced (line : Nat) (bracket : Bracket)
  | emptyExpression (line : Nat)
  | branchCount (line : Nat) (found : Nat)
  /-- A function body of several lines needs declared return types. -/
  | undeclaredReturns (line : Nat)
  | unknownTypeName (name : String)
  | floatText (text : String) (fault : Number.FloatFault)
  | notOperator (kind : Kind)
  | noPieces
  | noArgumentList
  | noBody
  deriving DecidableEq, Repr

namespace ParseError

/-- No program text leads to an error without a line. -/
def line? : ParseError → Option Nat
  | .illegalCharacter line _ | .unexpected line _ _ | .invalidToken line _
  | .unbalanced line _ | .emptyExpression line | .branchCount line _
  | .undeclaredReturns line => some line
  | .unknownTypeName _ | .floatText _ _ | .notOperator _ | .noPieces
  | .noArgumentList | .noBody => none

def detail : ParseError → String
  | .illegalCharacter _ character => "illegal character '" ++ character ++ "'"
  | .unexpected _ found expected =>
      "unexpected " ++ found ++ ", expected " ++ expected.text
  | .invalidToken _ token => "invalid token " ++ token
  | .unbalanced _ bracket =>
      "amount of " ++ bracket.opener ++ " and " ++ bracket.closer ++
        " in expression does not match"
  | .emptyExpression _ => "expected an expression"
  | .branchCount _ found =>
      "expected a condition and one expression between if and else, found " ++
        Nat.repr found ++ " expression(s)"
  | .undeclaredReturns _ =>
      "function with multiple lines must have specified return types"
  | .unknownTypeName name => "unknown type name " ++ name
  | .floatText text fault => "float token " ++ text ++ ": " ++ fault.message
  | .notOperator kind => kind.name ++ " is not a binary operator"
  | .noPieces => "application split produced no pieces"
  | .noArgumentList => "function literal without argument list"
  | .noBody => "function literal without body"

def message (error : ParseError) : String :=
  match error.line? with
  | some line => "error on line " ++ Nat.repr line ++ ": " ++ error.detail
  | none => "internal parser error: " ++ error.detail

def ofToken (token : Token) : ParseError := .invalidToken token.line token.describe

end ParseError

def describeHead (whenEmpty : String) : List Token → String
  | [] => whenEmpty
  | token :: _ => token.describe

end ExprLang
