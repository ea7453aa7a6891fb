import ExprLang.Check.Basic
import ExprLang.Tree.Parser

/-!
# Analysis of a program text

A text is parsed and checked against an empty symbol table.
-/

namespace ExprLang

inductive CompileError where
  | parse (error : ParseError)
  | type (error : TypeError)
  deriving Repr

namespace CompileError

def message : CompileError → String
  | .parse error => error.message
  | .type error => error.message

def line? : CompileError → Option Nat
  | .parse error => error.line?
  | .type error => some error.line

end CompileError

structure Analysis where
  program : Program
  table : SymbolTable

namespace Analysis

def ofString (text : String) : Except CompileError Analysis :=
  match Program.ofString text with
  | .error error => .error (.parse error)
  | .ok program =>
      match program.check .empty with
      | (.error error, _) => .error (.type error)
      | (.ok program, table) => .ok ⟨program, table⟩

def assigned : Statement → List Variable
  | .assign targets _ _ => targets
  | .result _ _ => []

def addBinding (bindings : List (String × Ty)) (target : Variable) :
    List (String × Ty) :=
  match target.type? with
  | some type =>
      if bindings.any (·.1 = target.name) then bindings
      else bindings ++ [(target.name, type)]
  | none => bindings

/-- The names that the program binds at top level, in the order of their first
assignment. -/
def bindings (analysis : Analysis) : List (String × Ty) :=
  (analysis.program.statements.flatMap assigned).foldl addBinding []

end Analysis

end ExprLang
