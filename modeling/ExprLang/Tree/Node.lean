import ExprLang.Tree.Printer

/-!
# Nodes

Every position of a tree as one kind of thing, and the listing of all positions
below a program in preorder.
-/

namespace ExprLang

inductive Node where
  | program (root : Program)
  | block (statements : List Statement)
  | statement (content : Statement)
  | expression (content : Expr)

namespace Node

def children : Node → List Node
  | .program root => [.block root.statements]
  | .block statements => statements.map .statement
  | .statement (.assign _ value _) => [.expression value]
  | .statement (.result expressions _) => expressions.map .expression
  | .expression (.function _ _ _ body _) => [.block body]
  | .expression (.apply callee arguments _) =>
      .expression callee :: arguments.map .expression
  | .expression (.conditional condition thenBranch elseBranch _) =>
      [.expression condition, .expression thenBranch, .expression elseBranch]
  | .expression (.operator _ _ left right) => [.expression left, .expression right]
  | .expression (.array _ elements) => elements.map .expression
  | .expression _ => []

def types : Node → List Ty
  | .statement (.result expressions _) => expressions.flatMap Expr.types
  | .expression content => content.types
  | _ => []

def label : Node → String
  | .program _ => "program"
  | .block _ => "block"
  | .statement content => "statement " ++ Nat.repr content.line
  | .expression content => content.print

end Node

/-! ## Preorder -/

mutual

def Expr.preorder (depth : Nat) : Expr → List (Nat × Node)
  | .function arguments returns returnsOmitted body signature? =>
      (depth, .expression
          (.function arguments returns returnsOmitted body signature?)) ::
        (depth + 1, .block body) :: Statement.preorderAll (depth + 2) body
  | .apply callee arguments returns =>
      (depth, .expression (.apply callee arguments returns)) ::
        (callee.preorder (depth + 1) ++ Expr.preorderAll (depth + 1) arguments)
  | .conditional condition thenBranch elseBranch returns =>
      (depth, .expression (.conditional condition thenBranch elseBranch returns)) ::
        (condition.preorder (depth + 1) ++ thenBranch.preorder (depth + 1) ++
          elseBranch.preorder (depth + 1))
  | .operator op operandType? left right =>
      (depth, .expression (.operator op operandType? left right)) ::
        (left.preorder (depth + 1) ++ right.preorder (depth + 1))
  | .array elementType? elements =>
      (depth, .expression (.array elementType? elements)) ::
        Expr.preorderAll (depth + 1) elements
  | .reference target => [(depth, .expression (.reference target))]
  | .int value => [(depth, .expression (.int value))]
  | .float value => [(depth, .expression (.float value))]
  | .string value => [(depth, .expression (.string value))]
  | .bool value => [(depth, .expression (.bool value))]

def Expr.preorderAll (depth : Nat) : List Expr → List (Nat × Node)
  | [] => []
  | expression :: expressions =>
      expression.preorder depth ++ Expr.preorderAll depth expressions

def Statement.preorder (depth : Nat) : Statement → List (Nat × Node)
  | .assign targets value line =>
      (depth, .statement (.assign targets value line)) :: value.preorder (depth + 1)
  | .result expressions line =>
      (depth, .statement (.result expressions line)) ::
        Expr.preorderAll (depth + 1) expressions

def Statement.preorderAll (depth : Nat) : List Statement → List (Nat × Node)
  | [] => []
  | statement :: statements =>
      statement.preorder depth ++ Statement.preorderAll depth statements

end

def Program.preorder (program : Program) : List (Nat × Node) :=
  (0, .program program) :: (1, .block program.statements) ::
    Statement.preorderAll 2 program.statements

end ExprLang
