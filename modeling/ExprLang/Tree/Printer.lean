import ExprLang.Number.Layout
import ExprLang.Text.Escape
import ExprLang.Tree.Basic

/-!
# Printed trees

Expressions print with parentheses around every operator, application and
conditional, statements on one line each.
-/

namespace ExprLang

/-- Floating-point literals are positional from `0.0001` up to sixteen digits before
the point. -/
def printedNumber : NumberLayout := ⟨-4, 15, "", .upward⟩

def Binary64.print (number : Binary64) : String :=
  if number.isFinite then printedNumber.render number
  else if number.isInfinite then if number.isNegative then "-inf" else "inf"
  else "NaN"

def printInteger (number : Int64) : String :=
  if number.toInt < 0 then "-" ++ Nat.repr number.toInt.natAbs
  else Nat.repr number.toInt.natAbs

def Variable.print (target : Variable) : String :=
  match target.type? with
  | some type => target.name ++ " " ++ type.render
  | none => target.name

def Variable.printList (targets : List Variable) : String :=
  String.intercalate ", " (targets.map Variable.print)

mutual

def Expr.print : Expr → String
  | .reference target => target.name
  | .int value => printInteger value
  | .float value => value.print
  | .string value => "\"" ++ Text.escape value ++ "\""
  | .bool value => if value then "true" else "false"
  | .operator op _ left right =>
      "(" ++ left.print ++ " " ++ op.symbol ++ " " ++ right.print ++ ")"
  | .apply callee arguments _ =>
      "(!" ++ String.intercalate " " (callee.print :: Expr.printAll arguments) ++
        ")"
  | .conditional condition thenBranch elseBranch _ =>
      "(if " ++ condition.print ++ " " ++ thenBranch.print ++ " else " ++
        elseBranch.print ++ ")"
  | .array _ elements =>
      "[" ++ String.intercalate ", " (Expr.printAll elements) ++ "]"
  | .function arguments returns returnsOmitted body _ =>
      "(" ++ Variable.printList arguments ++ ") -> " ++
        (if returnsOmitted then "" else "(" ++ Ty.renderList returns ++ ") ") ++
        "\x7b " ++ String.intercalate "; " (Statement.printAll body) ++ " \x7d"

def Expr.printAll : List Expr → List String
  | [] => []
  | expression :: expressions => expression.print :: Expr.printAll expressions

def Statement.print : Statement → String
  | .assign targets value _ => Variable.printList targets ++ " = " ++ value.print
  | .result expressions _ =>
      "return " ++ String.intercalate ", " (Expr.printAll expressions)

def Statement.printAll : List Statement → List String
  | [] => []
  | statement :: statements => statement.print :: Statement.printAll statements

end

def Program.print (program : Program) : String :=
  String.intercalate "\n" (Statement.printAll program.statements)

end ExprLang
