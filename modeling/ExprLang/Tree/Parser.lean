import ExprLang.Token.Lexer
import ExprLang.Tree.Form

/-!
# Trees of tokens

An expression is taken apart into forms until only single tokens are left; a program
is cut into drafts, and the windows of its drafts are parsed in order.  The first
error wins, and what ended the drafts comes after the errors of their windows.

The functions `build` put a form or a draft together, given a way to parse its
windows.
-/

namespace ExprLang

/-! ## Putting parts together -/

def Window.buildAll : (windows : List Window) →
    ((window : Window) → window ∈ windows → Except ParseError Expr) →
    Except ParseError (List Expr)
  | [], _ => .ok []
  | window :: windows, parse => do
      let expression ← parse window List.mem_cons_self
      let expressions ← buildAll windows fun other h =>
          parse other (List.mem_cons_of_mem _ h)
      return expression :: expressions

def Draft.build : (draft : Draft) →
    ((window : Window) → window ∈ draft.windows → Except ParseError Expr) →
    Except ParseError Statement
  | .assign targets value line, parse => do
      let value ← parse value (by simp [windows])
      return .assign targets value line
  | .result expressions line, parse => do
      let expressions ← Window.buildAll expressions parse
      return .result expressions line

def Draft.buildAll :
    (drafts : List Draft) →
      ((window : Window) → window ∈ drafts.flatMap Draft.windows →
        Except ParseError Expr) →
      Except ParseError (List Statement)
  | [], _ => .ok []
  | draft :: drafts, parse => do
      let statement ← draft.build fun window h => parse window (by simp [h])
      let statements ← buildAll drafts fun window h => parse window (by simp_all)
      return statement :: statements

def Drafts.build (drafts : Drafts)
    (parse : (window : Window) → window ∈ drafts.windows → Except ParseError Expr) :
    Except ParseError (List Statement) := do
  let statements ← Draft.buildAll drafts.statements parse
  match drafts.failure? with
  | some error => throw error
  | none => return statements

def Form.build : (form : Form) →
    ((window : Window) → window ∈ form.windows → Except ParseError Expr) →
    Except ParseError Expr
  | .atom value, _ => .ok value
  | .group inner, parse => parse inner (by simp [windows])
  | .operator op left right, parse => do
      let left ← parse left (by simp [windows])
      let right ← parse right (by simp [windows])
      return .operator op none left right
  | .apply callee arguments, parse => do
      let callee ← parse callee (by simp [windows])
      let arguments ← Window.buildAll arguments fun window h =>
          parse window (by simp [windows, h])
      return .apply callee arguments []
  | .conditional condition thenBranch elseBranch, parse => do
      let condition ← parse condition (by simp [windows])
      let thenBranch ← parse thenBranch (by simp [windows])
      let elseBranch ← parse elseBranch (by simp [windows])
      return .conditional condition thenBranch elseBranch []
  | .array elements, parse => do
      let elements ← Window.buildAll elements parse
      return .array none elements
  | .function arguments returns returnsOmitted body, parse => do
      let statements ← body.build parse
      return .function arguments returns returnsOmitted statements none

/-! ## Expressions -/

def Expr.ofWindow (window : Window) : Except ParseError Expr :=
  match h : Form.ofWindow window with
  | .error error => .error error
  | .ok form => form.build fun part hpart =>
      have := Form.length_of_mem_windows h hpart
      Expr.ofWindow part
termination_by window.tokens.length

def Expr.ofTokens (tokens : List Token) : Except ParseError Expr :=
  Expr.ofWindow ⟨tokens, tokens.head?.elim 1 Token.line⟩

/-! ## Programs -/

def Program.ofStream {σ : Type} [TokenStream σ] (stream : σ) :
    Except ParseError Program := do
  let statements ← (Drafts.ofStream stream).build fun window _ =>
      Expr.ofWindow window
  return ⟨statements⟩

def Program.ofTokens (tokens : List Token) (endLine : Nat) :
    Except ParseError Program :=
  Program.ofStream (Listed.mk tokens endLine)

def Program.ofString (text : String) : Except ParseError Program :=
  Program.ofStream (Cursor.ofString text)

end ExprLang
