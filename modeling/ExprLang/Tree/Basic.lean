import ExprLang.Number.Binary64
import ExprLang.Ty.Basic

/-!
# Trees

Programs, statements and expressions.  The type fields are empty after parsing and
are filled by checking.
-/

namespace ExprLang

structure Variable where
  name : String
  type? : Option Ty
  deriving Repr

mutual

inductive Expr where
  | reference (target : Variable)
  | function (arguments : List Variable) (returns : List Ty) (returnsOmitted : Bool)
      (body : List Statement) (signature? : Option Signature)
  | apply (callee : Expr) (arguments : List Expr) (returns : List Ty)
  | conditional (condition thenBranch elseBranch : Expr) (returns : List Ty)
  | int (value : Int64)
  | float (value : Binary64)
  | string (value : String)
  | bool (value : Bool)
  | operator (op : Operator) (operandType? : Option Ty) (left right : Expr)
  | array (elementType? : Option Ty) (elements : List Expr)

/-- A statement carries the line of its first token. -/
inductive Statement where
  | assign (targets : List Variable) (value : Expr) (line : Nat)
  | result (expressions : List Expr) (line : Nat)

end

structure Program where
  statements : List Statement

def Statement.line : Statement → Nat
  | .assign _ _ line | .result _ line => line

namespace Expr

def named (name : String) : Expr := .reference ⟨name, none⟩

/-- The types that an expression yields, as far as its type fields say. -/
def types : Expr → List Ty
  | .reference target => target.type?.toList
  | .function _ _ _ _ signature? => signature?.toList.map Signature.toTy
  | .apply _ _ returns => returns
  | .conditional _ _ _ returns => returns
  | .int _ => [.int]
  | .float _ => [.float]
  | .string _ => [.string]
  | .bool _ => [.bool]
  | .operator op operandType? _ _ => operandType?.toList.map op.resultType
  | .array elementType? _ => elementType?.toList.map .array

end Expr

def declaredSignature? (arguments : List Variable) (returns : List Ty) :
    Option Signature :=
  (arguments.mapM Variable.type?).map fun types => ⟨types, returns, none⟩

/-! ## References -/

mutual

/-- Whether a reference to `name` occurs in the expression, nested bodies
included. -/
def Expr.refersTo (name : String) : Expr → Bool
  | .reference target => target.name = name
  | .function _ _ _ body _ => Statement.anyRefersTo name body
  | .apply callee arguments _ =>
      callee.refersTo name || Expr.anyRefersTo name arguments
  | .conditional condition thenBranch elseBranch _ =>
      condition.refersTo name || thenBranch.refersTo name ||
        elseBranch.refersTo name
  | .operator _ _ left right => left.refersTo name || right.refersTo name
  | .array _ elements => Expr.anyRefersTo name elements
  | .int _ | .float _ | .string _ | .bool _ => false

def Expr.anyRefersTo (name : String) : List Expr → Bool
  | [] => false
  | expression :: expressions =>
      expression.refersTo name || Expr.anyRefersTo name expressions

def Statement.refersTo (name : String) : Statement → Bool
  | .assign _ value _ => value.refersTo name
  | .result expressions _ => Expr.anyRefersTo name expressions

def Statement.anyRefersTo (name : String) : List Statement → Bool
  | [] => false
  | statement :: statements =>
      statement.refersTo name || Statement.anyRefersTo name statements

end

def Program.refersTo (name : String) (program : Program) : Bool :=
  Statement.anyRefersTo name program.statements

end ExprLang
