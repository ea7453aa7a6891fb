import ExprLang.Check.Rule

/-!
# Walkers

What the walk over a tree does besides following the tree: it looks names up,
defines them, opens frames and fails.  Errors are on the line of the statement that
the walk is at.  A walker may take that line from the walk, which hands it down, or
keep a line of its own.
-/

namespace ExprLang

class Walker (m : Type → Type) where
  fail {α : Type} (line : Nat) (fault : TypeFault) : m α
  typeOf (line : Nat) (name : String) : m Ty
  place (line : Nat) (name : String) (type : Ty) : m Unit
  reserve : m Unit
  inFrame {α : Type} (arguments : List (String × Ty)) (walk : m α) : m α
  /-- The line to blame at this point of a statement on `line`. -/
  now (line : Nat) : m Nat
  onLine {α : Type} (line : Nat) (walk : m α) : m α
  block {α : Type} (walk : m α) : m α

namespace Walker

variable {m : Type → Type} [Monad m] [Walker m] {α : Type}

def require (line : Nat) (outcome : Except TypeFault α) : m α :=
  match outcome with
  | .ok value => pure value
  | .error fault => fail line fault

def single (line : Nat) (place : SinglePlace) (types : List Ty) : m Ty :=
  match types with
  | [type] => do
      require (← now line) (Rule.concrete [type])
      return type
  | _ => fail line (.multiValue place types)

def branches (line : Nat) (condition thenTypes elseTypes : List Ty) :
    m (List Ty) := do
  if !Ty.sameAll condition [.bool] then fail line (.conditionNotBool condition)
  if !Ty.sameAll thenTypes elseTypes then
    fail line (.branchMismatch thenTypes elseTypes)
  require (← now line) (Rule.concrete thenTypes)
  return thenTypes

/-- Checks a function literal, given how to walk over its body.  A literal that no
single name is bound to takes a function index of its own. -/
def function (line : Nat) (bound : Bool) (arguments : List Variable)
    (returns : List Ty) (returnsOmitted : Bool)
    (walkBody : m (List Statement × List (List Ty))) :
    m (Expr × List Ty) := do
  let line ← now line
  let signature ← require line (Rule.declared arguments returns)
  let (body, candidates) ←
    inFrame ((arguments.map Variable.name).zip signature.arguments) (block walkBody)
  let returns ← require line (Rule.returns returnsOmitted returns candidates)
  if !bound then reserve
  let signature := ⟨signature.arguments, returns, none⟩
  return (.function arguments returns returnsOmitted body (some signature),
      [signature.toTy])

/-! ## Assignments -/

def agree (line : Nat) (target : Variable) (type : Ty) : m Unit :=
  match target.type? with
  | some declared =>
      if declared.same type then pure ()
      else fail line (.declaredMismatch target.name declared type)
  | none => pure ()

def bind (line : Nat) (target : Variable) (type : Ty) : m Variable := do
  let line ← now line
  agree line target type
  require line (Rule.concrete [type])
  place line target.name type
  return ⟨target.name, some type⟩

def bindEach (line : Nat) : List Variable → List Ty → m (List Variable)
  | target :: targets, type :: types => do
      let target ← bind line target type
      let targets ← bindEach line targets types
      return target :: targets
  | _, _ => return []

def bindAll (line : Nat) (targets : List Variable) (types : List Ty) :
    m (List Variable) := do
  if targets.length ≠ types.length then
    fail line (.assignmentArity targets.length types.length)
  bindEach line targets types

/-- A function literal refers to the one name it is assigned to: the name is bound
to the declared signature before the body is checked.  In all other cases nothing
happens. -/
def bindRecursive (line : Nat) (targets : List Variable) (value : Expr) :
    m (Option (List Variable)) := do
  match targets, value with
  | [target], .function arguments returns returnsOmitted body _ =>
      if Statement.anyRefersTo target.name body then
        if returnsOmitted then fail line (.recursiveWithoutReturns target.name)
        let signature ← require (← now line) (Rule.declared arguments returns)
        let target ← bind line target signature.toTy
        return some [target]
      else return none
  | _, _ => return none

def assignment (targets : List Variable) (value : Expr) (line : Nat)
    (walkValue : Bool → m (Expr × List Ty)) : m (Statement × Option (List Ty)) := do
  let bound? ← bindRecursive line targets value
  let (value, types) ← walkValue (targets.length = 1)
  match bound? with
  | some targets => return (.assign targets value line, none)
  | none => do
      let targets ← bindAll line targets types
      return (.assign targets value line, none)

end Walker

open Walker

/-! ## Trees -/

section Trees

variable {m : Type → Type} [Monad m] [Walker m]

mutual

/-- Walks over an expression of a statement on `line`; `bound` says that it is all
that one name is assigned. -/
def Expr.walk (line : Nat) (bound : Bool) : Expr → m (Expr × List Ty)
  | .int value => return (.int value, [.int])
  | .float value => return (.float value, [.float])
  | .string value => return (.string value, [.string])
  | .bool value => return (.bool value, [.bool])
  | .reference target => do
      let type ← typeOf (← now line) target.name
      return (.reference ⟨target.name, some type⟩, [type])
  | .operator op _ left right => do
      let line ← now line
      let (left, leftTypes) ← left.walk line false
      let (right, rightTypes) ← right.walk line false
      let operand ← require line (Rule.operand op leftTypes rightTypes)
      return (.operator op (some operand) left right, [op.resultType operand])
  | .conditional condition thenBranch elseBranch _ => do
      let line ← now line
      let (condition, conditionTypes) ← condition.walk line false
      let (thenBranch, thenTypes) ← thenBranch.walk line false
      let (elseBranch, elseTypes) ← elseBranch.walk line false
      let types ← branches line conditionTypes thenTypes elseTypes
      return (.conditional condition thenBranch elseBranch types, types)
  | .array _ elements => do
      let line ← now line
      if elements.isEmpty then fail line .emptyArray
      let (elements, type?) ← Expr.walkElements line 0 none elements
      return (.array type? elements, type?.toList.map .array)
  | .apply callee arguments _ => do
      let line ← now line
      let (arguments, actuals) ← Expr.walkArguments line arguments
      let (callee, calleeTypes) ← callee.walk line false
      let types ← require line (Rule.application calleeTypes actuals)
      return (.apply callee arguments types, types)
  | .function arguments returns returnsOmitted body _ =>
      function line bound arguments returns returnsOmitted
        (Statement.walkAll true body)

def Expr.walkElements (line index : Nat) (expected? : Option Ty) :
    List Expr → m (List Expr × Option Ty)
  | [] => return ([], expected?)
  | element :: elements => do
      let (element, types) ← element.walk line false
      let found ← single line .arrayElement types
      let expected ← require line (Rule.element index expected? found)
      let (elements, type?) ← Expr.walkElements line (index + 1)
          (some expected) elements
      return (element :: elements, type?)

def Expr.walkArguments (line : Nat) : List Expr → m (List Expr × List Ty)
  | [] => return ([], [])
  | argument :: arguments => do
      let (argument, types) ← argument.walk line false
      let type ← single line .functionArgument types
      let (arguments, types) ← Expr.walkArguments line arguments
      return (argument :: arguments, type :: types)

def Expr.walkResults (line : Nat) : List Expr → m (List Expr × List Ty)
  | [] => return ([], [])
  | expression :: expressions => do
      let (expression, types) ← expression.walk line false
      require (← now line) (Rule.concrete types)
      let (expressions, otherTypes) ← Expr.walkResults line expressions
      return (expression :: expressions, types ++ otherTypes)

def Statement.walk (inFunction : Bool) :
    Statement → m (Statement × Option (List Ty))
  | .assign targets value line =>
      assignment targets value line fun bound => value.walk line bound
  | .result expressions line => do
      if !inFunction then fail line .returnOutsideFunction
      let (expressions, types) ← Expr.walkResults line expressions
      return (.result expressions line, some types)

def Statement.walkAll (inFunction : Bool) :
    List Statement → m (List Statement × List (List Ty))
  | [] => return ([], [])
  | statement :: statements => do
      let (statement, types?) ← onLine statement.line (statement.walk inFunction)
      let (statements, candidates) ← Statement.walkAll inFunction statements
      return (statement :: statements, types?.toList ++ candidates)

end

def Program.walk (program : Program) : m Program := do
  let (statements, _) ← block (Statement.walkAll false program.statements)
  return ⟨statements⟩

end Trees

end ExprLang
