import ExprLang.Number.Binary64

/-!
# JSON values

Objects keep the order of their fields.  Integers and floating-point numbers are
told apart.
-/

namespace ExprLang

inductive Json where
  | null
  | bool (value : Bool)
  | integer (value : Int)
  | real (value : Binary64)
  | string (value : String)
  | array (items : List Json)
  | object (fields : List (String × Json))
  deriving Repr

namespace Json

def tagged (tag : String) (content : Json) : Json := .object [(tag, content)]

/-- The value of a field; a field that is missing counts as null. -/
def field (name : String) : List (String × Json) → Json
  | [] => .null
  | (key, value) :: fields => if key = name then value else field name fields

def optional {α : Type} (write : α → Json) : Option α → Json
  | some value => write value
  | none => .null

def ofOptional? {α : Type} (read : Json → Option α) : Json → Option (Option α)
  | .null => some none
  | json => (read json).map some

def natural? : Json → Option Nat
  | .integer value => if 0 ≤ value then some value.toNat else none
  | _ => none

/-- A tag without content: the bare name, or an object whose one field is null. -/
def tag? : Json → Option String
  | .string tag | .object [(tag, .null)] => some tag
  | _ => none

def string? : Json → Option String
  | .string value => some value
  | _ => none

def bool? : Json → Option Bool
  | .bool value => some value
  | _ => none

end Json

end ExprLang
