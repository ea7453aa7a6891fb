import ExprLang.Json.Basic
import ExprLang.Ty.Basic

/-!
# Types as JSON

A type is an object with one field that names its kind.  The table index of a
function type is written only if there is one.  A signature is read from an object
or from an array of its fields in order.
-/

namespace ExprLang

namespace Primitive

def tag : Primitive → String
  | .int => "Int"
  | .float => "Float"
  | .string => "String"
  | .bool => "Bool"

def ofTag? (tag : String) : Option Primitive :=
  [Primitive.int, .float, .string, .bool].find? (·.tag = tag)

def ofJson? (json : Json) : Option Primitive := json.tag?.bind ofTag?

end Primitive

def tableIndexOfJson? (json : Json) : Option UInt32 :=
  match json.natural? with
  | some index => if index < 0x100000000 then some index.toUInt32 else none
  | none => none

def tableIndexFields (tableIndex : Option UInt32) : List (String × Json) :=
  tableIndex.toList.map fun index => ("type_index", .integer index.toNat)

namespace Ty

mutual

def toJson : Ty → Json
  | .primitive base => .tagged "Standard" (.string base.tag)
  | .array element => .tagged "Array" (toJson element)
  | .function arguments returns tableIndex =>
      .tagged "Function" (.object ([("arguments", .array (listToJson arguments)),
        ("returns", .array (listToJson returns))] ++ tableIndexFields tableIndex))
  | .hole name => .tagged "AnyHole" (.string name)

def listToJson : List Ty → List Json
  | [] => []
  | type :: types => toJson type :: listToJson types

end

mutual

def ofJson? : Json → Option Ty
  | .object [(tag, content)] =>
      if tag = "Standard" then (Primitive.ofJson? content).map .primitive
      else if tag = "Array" then (ofJson? content).map .array
      else if tag = "AnyHole" then content.string?.map .hole
      else if tag = "Function" then (signatureOfJson? content).map Signature.toTy
      else none
  | _ => none

def signatureOfJson? : Json → Option Signature
  | .object fields => do
      let arguments ← listField? "arguments" fields
      let returns ← listField? "returns" fields
      let tableIndex ← (Json.field "type_index" fields).ofOptional?
          tableIndexOfJson?
      return ⟨arguments, returns, tableIndex⟩
  | .array [arguments, returns] => do
      let arguments ← arrayOfJson? arguments
      let returns ← arrayOfJson? returns
      return ⟨arguments, returns, none⟩
  | .array [arguments, returns, tableIndex] => do
      let arguments ← arrayOfJson? arguments
      let returns ← arrayOfJson? returns
      let tableIndex ← tableIndex.ofOptional? tableIndexOfJson?
      return ⟨arguments, returns, tableIndex⟩
  | _ => none

def arrayOfJson? : Json → Option (List Ty)
  | .array items => listOfJson? items
  | _ => none

def listOfJson? : List Json → Option (List Ty)
  | [] => some []
  | item :: items => do
      let type ← ofJson? item
      let types ← listOfJson? items
      return type :: types

def listField? (name : String) : List (String × Json) → Option (List Ty)
  | [] => none
  | (key, value) :: fields =>
      if key = name then arrayOfJson? value else listField? name fields

end

end Ty

namespace Signature

def toJson (signature : Signature) : Json :=
  .object ([("arguments", .array (Ty.listToJson signature.arguments)),
    ("returns", .array (Ty.listToJson signature.returns))] ++
      tableIndexFields signature.tableIndex)

def ofJson? (json : Json) : Option Signature := Ty.signatureOfJson? json

end Signature

end ExprLang
