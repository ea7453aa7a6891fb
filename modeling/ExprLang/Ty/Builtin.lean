import ExprLang.Ty.Basic

/-!
# Built-in functions

The signatures of the functions on arrays.  Their hole `a` is the type of the
elements.
-/

namespace ExprLang.Builtin

def names : List String := ["get", "set", "length", "take", "tail"]

def element : Ty := .hole "a"

def elements : Ty := .array element

def signature? (name : String) : Option Signature :=
  if name = "get" then some ⟨[elements, .int], [element], none⟩
  else if name = "set" then some ⟨[elements, .int, element], [elements], none⟩
  else if name = "length" then some ⟨[elements], [.int], none⟩
  else if name = "take" then some ⟨[.int, elements], [elements], none⟩
  else if name = "tail" then some ⟨[elements], [elements], none⟩
  else none

end ExprLang.Builtin
