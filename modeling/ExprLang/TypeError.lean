import ExprLang.Ty.Basic

/-!
# Type errors

The rule that a program breaks, and the line of the statement that breaks it.
-/

namespace ExprLang

inductive SinglePlace where
  | arrayElement
  | functionArgument
  deriving DecidableEq, Repr

namespace SinglePlace

def text : SinglePlace → String
  | .arrayElement => "array element"
  | .functionArgument => "function argument"

end SinglePlace

inductive TypeFault where
  | undefinedIdentifier (name : String)
  | operatorTypes (op : Operator) (left right : Ty)
  | multiValueOperand (op : Operator) (left right : List Ty)
  | conditionNotBool (found : List Ty)
  | branchMismatch (thenTypes elseTypes : List Ty)
  | emptyArray
  | elementMismatch (index : Nat) (expected found : Ty)
  | multiValue (place : SinglePlace) (found : List Ty)
  | notAFunction (found : List Ty)
  | argumentCount (expected found : Nat)
  | argumentType (position : Nat) (expected found : Ty)
  | unresolvedHole (name : String)
  | assignmentArity (targets values : Nat)
  | declaredMismatch (name : String) (declared found : Ty)
  | globalMutation (name : String)
  | localTypeChange (name : String) (previous found : Ty)
  | recursiveWithoutReturns (name : String)
  | returnCount (found : Nat)
  | untypedArgument (name : String)
  | returnOutsideFunction
  deriving Repr

namespace TypeFault

def message : TypeFault → String
  | .undefinedIdentifier name => "identifier " ++ name ++ " is not defined"
  | .operatorTypes op left right =>
      "use of operator " ++ op.symbol ++ " on " ++ left.render ++ " and " ++
        right.render ++ " not supported"
  | .multiValueOperand op left right =>
      "operands of " ++ op.symbol ++ " must be single values, found (" ++
        Ty.renderList left ++ ") and (" ++ Ty.renderList right ++ ")"
  | .conditionNotBool found =>
      "condition in if expression must be a single bool, found (" ++
        Ty.renderList found ++ ")"
  | .branchMismatch thenTypes elseTypes =>
      "branches of if expression return (" ++ Ty.renderList thenTypes ++
        ") and (" ++ Ty.renderList elseTypes ++ ")"
  | .emptyArray => "array literal with zero elements is not valid"
  | .elementMismatch index expected found =>
      "can not add element " ++ Nat.repr index ++ " of type " ++ found.render ++
        " to array of type []" ++ expected.render
  | .multiValue place found =>
      place.text ++ " must be a single value, found (" ++ Ty.renderList found ++ ")"
  | .notAFunction found =>
      "expression after ! does not return a function, found (" ++
        Ty.renderList found ++ ")"
  | .argumentCount expected found =>
      "function expects " ++ Nat.repr expected ++ " argument(s), got " ++
        Nat.repr found
  | .argumentType position expected found =>
      "argument " ++ Nat.repr position ++ " does not match, expected " ++
        expected.render ++ ", found " ++ found.render
  | .unresolvedHole name => "type ?" ++ name ++ " is never bound by the arguments"
  | .assignmentArity targets values =>
      Nat.repr targets ++ " variable(s) assigned from " ++ Nat.repr values ++
        " value(s)"
  | .declaredMismatch name declared found =>
      name ++ " is declared " ++ declared.render ++ " but assigned " ++ found.render
  | .globalMutation name => "attempt at mutating global variable " ++ name
  | .localTypeChange name previous found =>
      "attempt at changing type of " ++ name ++ " from " ++ previous.render ++
        " to " ++ found.render
  | .recursiveWithoutReturns name =>
      "recursive function " ++ name ++ " must have specified return types"
  | .returnCount found =>
      "function with no specified return types must have exactly one return statement, found " ++
        Nat.repr found
  | .untypedArgument name => "function argument " ++ name ++ " must have a type"
  | .returnOutsideFunction => "return statement outside of a function"

end TypeFault

structure TypeError where
  line : Nat
  fault : TypeFault
  deriving Repr

def TypeError.message (error : TypeError) : String :=
  "error on line " ++ Nat.repr error.line ++ ": " ++ error.fault.message

end ExprLang
