import ExprLang.Proofs.Check.Derivation
import ExprLang.Proofs.Check.Scopes
import ExprLang.Proofs.SymbolTable.Context

/-!
# Typing rules as a relation

When an expression has certain types is said by rules that mention no table, no
order of checking and no algorithm for holes.  Checking gives exactly the types that
the rules allow, where two types count as one if they differ in table indices only.
-/

namespace ExprLang

open Ty Checker SymbolTable

/-! ## The rules -/

/-- A local name hides a global one, and any name that is defined hides a built-in
function. -/
def Context.lookup (globals locals : Context) (name : String) : Option Ty :=
  (locals name).or
    ((globals name).or ((Builtin.signature? name).map Signature.toTy))

/-- Variables that are assigned values of types become local names.  A visible
global is never assigned, and a local name keeps its type. -/
inductive Assigns (globals : Context) :
    Context → List Variable → List Ty → Context → Prop
  | nil {locals : Context} : Assigns globals locals [] [] locals
  | new {locals after : Context} {target : Variable} {targets : List Variable}
      {type : Ty} {types : List Ty}
      (hdeclared : ∀ declared,
        target.type? = some declared → declared.same type = true)
      (hconcrete : type.hasHole = false) (hglobal : globals target.name = none)
      (hlocal : locals target.name = none)
      (hothers :
        Assigns globals (locals.extend target.name type) targets types after) :
      Assigns globals locals (target :: targets) (type :: types) after
  | again {locals after : Context} {target : Variable} {targets : List Variable}
      {type existing : Ty} {types : List Ty}
      (hdeclared : ∀ declared,
        target.type? = some declared → declared.same type = true)
      (hconcrete : type.hasHole = false)
      (hlocal : locals target.name = some existing)
      (hsame : existing.same type = true)
      (hothers : Assigns globals locals targets types after) :
      Assigns globals locals (target :: targets) (type :: types) after

mutual

/-- The types of an expression where `globals` and then local names are known. -/
inductive HasTypes (globals : Context) : Context → Expr → List Ty → Prop
  | int {locals : Context} {value : Int64} :
      HasTypes globals locals (.int value) [.int]
  | float {locals : Context} {value : Binary64} :
      HasTypes globals locals (.float value) [.float]
  | string {locals : Context} {value : String} :
      HasTypes globals locals (.string value) [.string]
  | bool {locals : Context} {value : Bool} :
      HasTypes globals locals (.bool value) [.bool]
  | reference {locals : Context} {target : Variable} {type : Ty}
      (hname : globals.lookup locals target.name = some type) :
      HasTypes globals locals (.reference target) [type]
  | operator {locals : Context} {op : Operator} {operandType? : Option Ty}
      {left right : Expr} {base : Primitive} (haccepts : op.Accepts base)
      (hleft : HasTypes globals locals left [.primitive base])
      (hright : HasTypes globals locals right [.primitive base]) :
      HasTypes globals locals (.operator op operandType? left right)
        [op.resultType (.primitive base)]
  | conditional {locals : Context} {condition thenBranch elseBranch : Expr}
      {returns types others : List Ty}
      (hcondition : HasTypes globals locals condition [.bool])
      (hthen : HasTypes globals locals thenBranch types)
      (helse : HasTypes globals locals elseBranch others)
      (hsame : sameAll types others = true) (hconcrete : anyHasHole types = false) :
      HasTypes globals locals
        (.conditional condition thenBranch elseBranch returns) types
  | array {locals : Context} {elementType? : Option Ty} {elements : List Expr}
      {type : Ty} {types : List Ty}
      (helements : EachHasType globals locals elements (type :: types))
      (hsame : ∀ other ∈ types, type.same other = true) :
      HasTypes globals locals (.array elementType? elements) [.array type]
  /-- One substitution makes the arguments of the parameters and the types of the
  call of the declared returns. -/
  | apply {locals : Context} {callee : Expr} {arguments : List Expr}
      {returns parameters results actuals : List Ty} {index : Option UInt32}
      {substitution : String → Ty}
      (hcallee :
        HasTypes globals locals callee [.function parameters results index])
      (harguments : EachHasType globals locals arguments actuals)
      (hsame : sameAll (instantiateAll substitution parameters) actuals = true)
      (hbound : ∀ name ∈ holesAll results, name ∈ holesAll parameters) :
      HasTypes globals locals (.apply callee arguments returns)
        (instantiateAll substitution results)
  /-- The body sees the arguments and the globals, and no other local name. -/
  | function {locals after : Context} {arguments : List Variable}
      {returns types results : List Ty} {returnsOmitted : Bool}
      {body : List Statement} {signature? : Option Signature}
      {candidates : List (List Ty)}
      (htypes : arguments.map Variable.type? = types.map some)
      (hbody :
        ExecutesAll globals (.ofArguments ((arguments.map Variable.name).zip types))
          body candidates after)
      (hresults :
        if returnsOmitted then candidates = [results] else results = returns) :
      HasTypes globals locals
        (.function arguments returns returnsOmitted body signature?)
        [.function types results none]

inductive EachHasType (globals : Context) : Context → List Expr → List Ty → Prop
  | nil {locals : Context} : EachHasType globals locals [] []
  | cons {locals : Context} {expression : Expr} {expressions : List Expr}
      {type : Ty} {types : List Ty}
      (hfirst : HasTypes globals locals expression [type])
      (hconcrete : type.hasHole = false)
      (hothers : EachHasType globals locals expressions types) :
      EachHasType globals locals (expression :: expressions) (type :: types)

inductive Gives (globals : Context) : Context → List Expr → List Ty → Prop
  | nil {locals : Context} : Gives globals locals [] []
  | cons {locals : Context} {expression : Expr} {expressions : List Expr}
      {types others : List Ty} (hfirst : HasTypes globals locals expression types)
      (hconcrete : anyHasHole types = false)
      (hothers : Gives globals locals expressions others) :
      Gives globals locals (expression :: expressions) (types ++ others)

/-- A statement of a function body, with the types that it returns and the local
names after it. -/
inductive Executes (globals : Context) :
    Context → Statement → Option (List Ty) → Context → Prop
  | assign {locals after : Context} {targets : List Variable} {value : Expr}
      {line : Nat} {types : List Ty} (hplain : ¬ SelfReferring targets value)
      (hvalue : HasTypes globals locals value types)
      (htargets : Assigns globals locals targets types after) :
      Executes globals locals (.assign targets value line) none after
  /-- A function that refers to the name it is assigned to has the type that it
  declares. -/
  | recursive {locals after : Context} {target : Variable}
      {arguments : List Variable} {types returns : List Ty} {body : List Statement}
      {signature? : Option Signature} {line : Nat}
      (hrefers : Statement.anyRefersTo target.name body = true)
      (htarget :
        Assigns globals locals [target] [.function types returns none] after)
      (hvalue :
        HasTypes globals after (.function arguments returns false body signature?)
          [.function types returns none]) :
      Executes globals locals
        (.assign [target]
          (.function arguments returns false body signature?) line) none after
  | result {locals : Context} {expressions : List Expr} {line : Nat}
      {types : List Ty} (hexpressions : Gives globals locals expressions types) :
      Executes globals locals (.result expressions line) (some types) locals

inductive ExecutesAll (globals : Context) :
    Context → List Statement → List (List Ty) → Context → Prop
  | nil {locals : Context} : ExecutesAll globals locals [] [] locals
  | cons {locals middle after : Context} {statement : Statement}
      {statements : List Statement} {types? : Option (List Ty)}
      {candidates : List (List Ty)}
      (hfirst : Executes globals locals statement types? middle)
      (hothers : ExecutesAll globals middle statements candidates after) :
      ExecutesAll globals locals (statement :: statements)
        (types?.toList ++ candidates) after

end

end ExprLang
