import ExprLang.Operator

/-!
# Types

Primitive types, arrays, functions and named holes.  A hole stands in the signature
of a built-in function for a type that each call decides.
-/

namespace ExprLang

inductive Primitive where
  | int
  | float
  | string
  | bool
  deriving DecidableEq, Repr

namespace Primitive

def name : Primitive → String
  | .int => "int"
  | .float => "float"
  | .string => "string"
  | .bool => "bool"

def ofName? (name : String) : Option Primitive :=
  if name = "int" then some .int
  else if name = "float" then some .float
  else if name = "string" then some .string
  else if name = "bool" then some .bool
  else none

def isNumeric : Primitive → Bool
  | .int | .float => true
  | .string | .bool => false

end Primitive

/-- The table index of a function type is a place reserved in the table of function
types.  It takes no part in the equality of types. -/
inductive Ty where
  | primitive (base : Primitive)
  | array (element : Ty)
  | function (arguments returns : List Ty) (tableIndex : Option UInt32)
  | hole (name : String)
  deriving Repr

namespace Ty

def int : Ty := .primitive .int

def float : Ty := .primitive .float

def string : Ty := .primitive .string

def bool : Ty := .primitive .bool

def primitive? : Ty → Option Primitive
  | .primitive base => some base
  | _ => none

def isFunction : Ty → Bool
  | .function .. => true
  | _ => false

/-! ## Equality -/

mutual

/-- Structural equality, table indices aside. -/
def same : Ty → Ty → Bool
  | .primitive left, .primitive right => left = right
  | .array left, .array right => same left right
  | .function leftArguments leftReturns _,
    .function rightArguments rightReturns _ =>
      sameAll leftArguments rightArguments && sameAll leftReturns rightReturns
  | .hole left, .hole right => left = right
  | _, _ => false

def sameAll : List Ty → List Ty → Bool
  | [], [] => true
  | left :: lefts, right :: rights => same left right && sameAll lefts rights
  | _, _ => false

end

/-! ## Holes -/

mutual

def hasHole : Ty → Bool
  | .primitive _ => false
  | .hole _ => true
  | .array element => hasHole element
  | .function arguments returns _ => anyHasHole arguments || anyHasHole returns

def anyHasHole : List Ty → Bool
  | [] => false
  | type :: types => hasHole type || anyHasHole types

end

mutual

/-- The first hole from the left, arguments before returns. -/
def firstHole? : Ty → Option String
  | .primitive _ => none
  | .hole name => some name
  | .array element => firstHole? element
  | .function arguments returns _ => firstHoleIn? arguments <|> firstHoleIn? returns

def firstHoleIn? : List Ty → Option String
  | [] => none
  | type :: types => firstHole? type <|> firstHoleIn? types

end

/-! ## Text -/

mutual

def render : Ty → String
  | .primitive base => base.name
  | .array element => "[]" ++ render element
  | .function arguments returns _ =>
      "(" ++ String.intercalate ", " (renderAll arguments) ++ ") -> (" ++
        String.intercalate ", " (renderAll returns) ++ ")"
  | .hole name => "?" ++ name

def renderAll : List Ty → List String
  | [] => []
  | type :: types => render type :: renderAll types

end

def renderList (types : List Ty) : String :=
  String.intercalate ", " (renderAll types)

end Ty

/-! ## Signatures -/

structure Signature where
  arguments : List Ty
  returns : List Ty
  tableIndex : Option UInt32
  deriving Repr

namespace Signature

def toTy (signature : Signature) : Ty :=
  .function signature.arguments signature.returns signature.tableIndex

end Signature

def Ty.signature? : Ty → Option Signature
  | .function arguments returns tableIndex => some ⟨arguments, returns, tableIndex⟩
  | _ => none

def Operator.resultType (op : Operator) (operand : Ty) : Ty :=
  if op.isArithmetic then operand else .bool

end ExprLang
