import ExprLang.Bindings
import ExprLang.Tree.Basic
import ExprLang.TypeError

/-!
# Typing rules

What the types of its parts make of the type of an expression, one rule for each
kind of expression.
-/

namespace ExprLang.Rule

def concrete (types : List Ty) : Except TypeFault Unit :=
  match Ty.firstHoleIn? types with
  | some name => .error (.unresolvedHole name)
  | none => .ok ()

/-- Connectives take booleans, equalities all but strings, all other operators
numbers. -/
def allows (op : Operator) (primitive : Primitive) : Bool :=
  if op.isLogical then primitive = .bool
  else if op.isEquality then primitive.isNumeric || primitive = .bool
  else primitive.isNumeric

def operand (op : Operator) (left right : List Ty) : Except TypeFault Ty :=
  match left, right with
  | [left], [right] =>
      match left.primitive?, right.primitive? with
      | some leftBase, some rightBase =>
          if leftBase = rightBase ∧ allows op leftBase then .ok left
          else .error (.operatorTypes op left right)
      | _, _ => .error (.operatorTypes op left right)
  | _, _ => .error (.multiValueOperand op left right)

def element (index : Nat) (expected? : Option Ty) (found : Ty) :
    Except TypeFault Ty :=
  match expected? with
  | none => .ok found
  | some expected =>
      if expected.same found then .ok expected
      else .error (.elementMismatch index expected found)

def bindParameters (position : Nat) (bindings : Bindings) :
    List Ty → List Ty → Except TypeFault Bindings
  | expected :: parameters, found :: actuals =>
      match bindings.matchOne expected found with
      | (true, bindings) =>
          bindParameters (position + 1) bindings parameters actuals
      | (false, _) => .error (.argumentType position expected found)
  | _, _ => .ok bindings

def application (callee actuals : List Ty) : Except TypeFault (List Ty) :=
  match callee with
  | [.function parameters returns _] =>
      if parameters.length ≠ actuals.length then
        .error (.argumentCount parameters.length actuals.length)
      else do
        let bindings ← bindParameters 1 [] parameters actuals
        match bindings.substituteAll returns with
        | .ok types => return types
        | .error name => throw (.unresolvedHole name)
  | _ => .error (.notAFunction callee)

def declared (arguments : List Variable) (returns : List Ty) :
    Except TypeFault Signature :=
  match declaredSignature? arguments returns with
  | some signature => .ok signature
  | none =>
      .error (.untypedArgument
        ((arguments.find? (·.type?.isNone)).elim "" Variable.name))

/-- The return types of a function: the declared ones, or those of its only return
statement. -/
def returns (returnsOmitted : Bool) (declared : List Ty)
    (candidates : List (List Ty)) :
    Except TypeFault (List Ty) :=
  if returnsOmitted then
    match candidates with
    | [only] => .ok only
    | _ => .error (.returnCount candidates.length)
  else .ok declared

end ExprLang.Rule
