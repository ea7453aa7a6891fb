import ExprLang.Check.Checker

/-!
# Checking trees

The checker's walk over a tree fills every type field.  `Expr.check` also gives the
types that the expression yields; `Statement.checkAll` gives the types of each
return statement of a block.
-/

namespace ExprLang

/-- Checks an expression of a statement on `line`; `bound` says that it is all that
one name is assigned. -/
abbrev Expr.check (line : Nat) (bound : Bool) (expression : Expr) :
    Checker (Expr × List Ty) :=
  expression.walk line bound

abbrev Expr.checkElements (line index : Nat) (expected? : Option Ty)
    (elements : List Expr) :
    Checker (List Expr × Option Ty) :=
  Expr.walkElements line index expected? elements

abbrev Expr.checkArguments (line : Nat) (arguments : List Expr) :
    Checker (List Expr × List Ty) :=
  Expr.walkArguments line arguments

abbrev Expr.checkResults (line : Nat) (expressions : List Expr) :
    Checker (List Expr × List Ty) :=
  Expr.walkResults line expressions

abbrev Statement.check (inFunction : Bool) (statement : Statement) :
    Checker (Statement × Option (List Ty)) :=
  statement.walk inFunction

abbrev Statement.checkAll (inFunction : Bool) (statements : List Statement) :
    Checker (List Statement × List (List Ty)) :=
  Statement.walkAll inFunction statements

abbrev Program.check (program : Program) : Checker Program := program.walk

end ExprLang
