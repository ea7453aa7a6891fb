import ExprLang.Tree.Basic
import ExprLang.Ty.Json

/-!
# Trees as JSON

Statements and expressions are objects with one field that names their kind; a type
field that is empty is null.  Reading takes an optional field that is missing for
null and passes over fields it does not know; a record may also be an array of all
its fields in order.
-/

namespace ExprLang

namespace Operator

def tag : Operator → String
  | .add => "Add"
  | .sub => "Sub"
  | .mul => "Mul"
  | .div => "Div"
  | .eq => "Eq"
  | .notEq => "NotEq"
  | .or => "Or"
  | .and => "And"
  | .greater => "Greater"
  | .greaterEq => "GreaterEq"
  | .less => "Less"
  | .lessEq => "LessEq"

def all : List Operator :=
  [.add, .sub, .mul, .div, .eq, .notEq, .or, .and, .greater, .greaterEq, .less,
    .lessEq]

def ofTag? (tag : String) : Option Operator := all.find? (·.tag = tag)

def ofJson? (json : Json) : Option Operator := json.tag?.bind ofTag?

end Operator

namespace Variable

def toJson (target : Variable) : Json :=
  .object [("identifier", .string target.name),
    ("ty", .optional Ty.toJson target.type?)]

def ofJson? : Json → Option Variable
  | .object fields => do
      let name ← (Json.field "identifier" fields).string?
      let type? ← (Json.field "ty" fields).ofOptional? Ty.ofJson?
      return ⟨name, type?⟩
  | .array [.string name, type] => do
      let type? ← type.ofOptional? Ty.ofJson?
      return ⟨name, type?⟩
  | _ => none

def listOfJson? : Json → Option (List Variable)
  | .array items => items.mapM ofJson?
  | _ => none

end Variable

/-! ## Literals -/

def int64OfJson? : Json → Option Int64
  | .integer value =>
      if -0x8000000000000000 ≤ value ∧ value < 0x8000000000000000 then
        some (Int64.ofInt value)
      else none
  | _ => none

def binary64OfJson? : Json → Option Binary64
  | .real value => if value.isFinite then some value else none
  | _ => none

/-! ## Writing -/

mutual

def Expr.toJson : Expr → Json
  | .reference target => .tagged "Variable" target.toJson
  | .function arguments returns returnsOmitted body signature? =>
      .tagged "FunctionDefinition" (.object [
        ("arguments", .array (arguments.map Variable.toJson)),
        ("return_types", .array (Ty.listToJson returns)),
        ("return_types_omitted", .bool returnsOmitted),
        ("body", .object [("statements", .array (Statement.listToJson body))]),
        ("function_type", .optional Signature.toJson signature?)])
  | .apply callee arguments returns =>
      .tagged "Apply" (.object [
        ("function", callee.toJson),
        ("arguments", .array (Expr.listToJson arguments)),
        ("return_types", .array (Ty.listToJson returns))])
  | .conditional condition thenBranch elseBranch returns =>
      .tagged "If" (.object [
        ("condition", condition.toJson),
        ("true_branch", thenBranch.toJson),
        ("false_branch", elseBranch.toJson),
        ("return_types", .array (Ty.listToJson returns))])
  | .int value => .tagged "Int" (.integer value.toInt)
  | .float value => .tagged "Float" (.real value)
  | .string value => .tagged "Str" (.string value)
  | .bool value => .tagged "Bool" (.bool value)
  | .operator op operandType? left right =>
      .tagged "Operator" (.object [
        ("op", .string op.tag),
        ("operand_type", .optional Ty.toJson operandType?),
        ("left", left.toJson),
        ("right", right.toJson)])
  | .array elementType? elements =>
      .tagged "Array" (.object [
        ("element_type", .optional Ty.toJson elementType?),
        ("elements", .array (Expr.listToJson elements))])

def Expr.listToJson : List Expr → List Json
  | [] => []
  | expression :: expressions => expression.toJson :: Expr.listToJson expressions

def Statement.toJson : Statement → Json
  | .assign targets value line =>
      .tagged "Assignment" (.object [
        ("variables", .array (targets.map Variable.toJson)),
        ("value", value.toJson),
        ("line", .integer line)])
  | .result expressions line =>
      .tagged "Return" (.object [
        ("expressions", .array (Expr.listToJson expressions)),
        ("line", .integer line)])

def Statement.listToJson : List Statement → List Json
  | [] => []
  | statement :: statements => statement.toJson :: Statement.listToJson statements

end

def Program.toJson (program : Program) : Json :=
  .object [("body",
    .object [("statements", .array (Statement.listToJson program.statements))])]

/-! ## Reading -/

mutual

def Expr.ofJson? : Json → Option Expr
  | .object [(tag, content)] =>
      if tag = "Variable" then (Variable.ofJson? content).map .reference
      else if tag = "Int" then (int64OfJson? content).map .int
      else if tag = "Float" then (binary64OfJson? content).map .float
      else if tag = "Str" then content.string?.map .string
      else if tag = "Bool" then content.bool?.map .bool
      else if tag = "FunctionDefinition" then Expr.functionOfJson? content
      else if tag = "Apply" then Expr.applyOfJson? content
      else if tag = "If" then Expr.conditionalOfJson? content
      else if tag = "Operator" then Expr.operatorOfJson? content
      else if tag = "Array" then Expr.arrayOfJson? content
      else none
  | _ => none

def Expr.functionOfJson? : Json → Option Expr
  | .object fields => do
      let arguments ← Variable.listOfJson? (Json.field "arguments" fields)
      let returns ← Ty.listField? "return_types" fields
      let returnsOmitted ← (Json.field "return_types_omitted" fields).bool?
      let body ← Statement.blockField? "body" fields
      let signature? ← (Json.field "function_type" fields).ofOptional?
          Signature.ofJson?
      return .function arguments returns returnsOmitted body signature?
  | .array [arguments, returns, returnsOmitted, body, signature] => do
      let arguments ← Variable.listOfJson? arguments
      let returns ← Ty.arrayOfJson? returns
      let returnsOmitted ← returnsOmitted.bool?
      let body ← Statement.blockOfJson? body
      let signature? ← signature.ofOptional? Signature.ofJson?
      return .function arguments returns returnsOmitted body signature?
  | _ => none

def Expr.applyOfJson? : Json → Option Expr
  | .object fields => do
      let callee ← Expr.field? "function" fields
      let arguments ← Expr.listField? "arguments" fields
      let returns ← Ty.listField? "return_types" fields
      return .apply callee arguments returns
  | .array [callee, .array arguments, returns] => do
      let callee ← Expr.ofJson? callee
      let arguments ← Expr.listOfJson? arguments
      let returns ← Ty.arrayOfJson? returns
      return .apply callee arguments returns
  | _ => none

def Expr.conditionalOfJson? : Json → Option Expr
  | .object fields => do
      let condition ← Expr.field? "condition" fields
      let thenBranch ← Expr.field? "true_branch" fields
      let elseBranch ← Expr.field? "false_branch" fields
      let returns ← Ty.listField? "return_types" fields
      return .conditional condition thenBranch elseBranch returns
  | .array [condition, thenBranch, elseBranch, returns] => do
      let condition ← Expr.ofJson? condition
      let thenBranch ← Expr.ofJson? thenBranch
      let elseBranch ← Expr.ofJson? elseBranch
      let returns ← Ty.arrayOfJson? returns
      return .conditional condition thenBranch elseBranch returns
  | _ => none

def Expr.operatorOfJson? : Json → Option Expr
  | .object fields => do
      let op ← Operator.ofJson? (Json.field "op" fields)
      let operandType? ← (Json.field "operand_type" fields).ofOptional? Ty.ofJson?
      let left ← Expr.field? "left" fields
      let right ← Expr.field? "right" fields
      return .operator op operandType? left right
  | .array [op, operandType, left, right] => do
      let op ← Operator.ofJson? op
      let operandType? ← operandType.ofOptional? Ty.ofJson?
      let left ← Expr.ofJson? left
      let right ← Expr.ofJson? right
      return .operator op operandType? left right
  | _ => none

def Expr.arrayOfJson? : Json → Option Expr
  | .object fields => do
      let elementType? ← (Json.field "element_type" fields).ofOptional? Ty.ofJson?
      let elements ← Expr.listField? "elements" fields
      return .array elementType? elements
  | .array [elementType, .array elements] => do
      let elementType? ← elementType.ofOptional? Ty.ofJson?
      let elements ← Expr.listOfJson? elements
      return .array elementType? elements
  | _ => none

def Expr.listOfJson? : List Json → Option (List Expr)
  | [] => some []
  | item :: items => do
      let expression ← Expr.ofJson? item
      let expressions ← Expr.listOfJson? items
      return expression :: expressions

def Expr.field? (name : String) : List (String × Json) → Option Expr
  | [] => none
  | (key, value) :: fields =>
      if key = name then Expr.ofJson? value else Expr.field? name fields

def Expr.listField? (name : String) : List (String × Json) → Option (List Expr)
  | [] => none
  | (key, value) :: fields =>
      if key = name then
        match value with
        | .array items => Expr.listOfJson? items
        | _ => none
      else Expr.listField? name fields

def Statement.ofJson? : Json → Option Statement
  | .object [(tag, content)] =>
      if tag = "Assignment" then Statement.assignOfJson? content
      else if tag = "Return" then Statement.resultOfJson? content
      else none
  | _ => none

def Statement.assignOfJson? : Json → Option Statement
  | .object fields => do
      let targets ← Variable.listOfJson? (Json.field "variables" fields)
      let value ← Expr.field? "value" fields
      let line ← (Json.field "line" fields).natural?
      return .assign targets value line
  | .array [targets, value, line] => do
      let targets ← Variable.listOfJson? targets
      let value ← Expr.ofJson? value
      let line ← line.natural?
      return .assign targets value line
  | _ => none

def Statement.resultOfJson? : Json → Option Statement
  | .object fields => do
      let expressions ← Expr.listField? "expressions" fields
      let line ← (Json.field "line" fields).natural?
      return .result expressions line
  | .array [.array expressions, line] => do
      let expressions ← Expr.listOfJson? expressions
      let line ← line.natural?
      return .result expressions line
  | _ => none

def Statement.listOfJson? : List Json → Option (List Statement)
  | [] => some []
  | item :: items => do
      let statement ← Statement.ofJson? item
      let statements ← Statement.listOfJson? items
      return statement :: statements

def Statement.listField? (name : String) :
    List (String × Json) → Option (List Statement)
  | [] => none
  | (key, value) :: fields =>
      if key = name then
        match value with
        | .array items => Statement.listOfJson? items
        | _ => none
      else Statement.listField? name fields

def Statement.blockOfJson? : Json → Option (List Statement)
  | .object fields => Statement.listField? "statements" fields
  | .array [.array statements] => Statement.listOfJson? statements
  | _ => none

def Statement.blockField? (name : String) :
    List (String × Json) → Option (List Statement)
  | [] => none
  | (key, value) :: fields =>
      if key = name then Statement.blockOfJson? value
      else Statement.blockField? name fields

end

def Program.ofJson? : Json → Option Program
  | .object fields => (Statement.blockField? "body" fields).map Program.mk
  | .array [body] => (Statement.blockOfJson? body).map Program.mk
  | _ => none

end ExprLang
