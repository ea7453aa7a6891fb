import ExprLang.Ty.Basic

/-!
# Bindings of holes

A declared type is matched against the type of an argument: a hole takes the first
type it meets and must meet the same type everywhere else.  Bindings made before a
mismatch stay.
-/

namespace ExprLang

abbrev Bindings := List (String × Ty)

namespace Bindings

def find? (name : String) : Bindings → Option Ty
  | [] => none
  | (hole, type) :: bindings =>
      if hole = name then some type else find? name bindings

mutual

/-- Whether `actual` fits `declared`, and the bindings after the attempt. -/
def matchOne (bindings : Bindings) : Ty → Ty → Bool × Bindings
  | .hole name, actual =>
      match bindings.find? name with
      | some bound => (bound.same actual, bindings)
      | none => (true, bindings ++ [(name, actual)])
  | .array declared, .array actual => matchOne bindings declared actual
  | .function declaredArguments declaredReturns _, .function arguments returns _ =>
      if declaredArguments.length = arguments.length ∧
          declaredReturns.length = returns.length then
        match matchAll bindings declaredArguments arguments with
        | (true, bindings) => matchAll bindings declaredReturns returns
        | (false, bindings) => (false, bindings)
      else (false, bindings)
  | declared, actual => (declared.same actual, bindings)

def matchAll (bindings : Bindings) : List Ty → List Ty → Bool × Bindings
  | declared :: declareds, actual :: actuals =>
      match matchOne bindings declared actual with
      | (true, bindings) => matchAll bindings declareds actuals
      | (false, bindings) => (false, bindings)
  | _, _ => (true, bindings)

end

mutual

/-- The type with every hole replaced by its binding, or the first hole that has
none. -/
def substitute (bindings : Bindings) : Ty → Except String Ty
  | .primitive base => .ok (.primitive base)
  | .hole name =>
      match bindings.find? name with
      | some type => .ok type
      | none => .error name
  | .array element => do
      let element ← substitute bindings element
      return .array element
  | .function arguments returns tableIndex => do
      let arguments ← substituteAll bindings arguments
      let returns ← substituteAll bindings returns
      return .function arguments returns tableIndex

def substituteAll (bindings : Bindings) : List Ty → Except String (List Ty)
  | [] => .ok []
  | type :: types => do
      let type ← substitute bindings type
      let types ← substituteAll bindings types
      return type :: types

end

def sorted (bindings : Bindings) : Bindings :=
  bindings.mergeSort fun left right => decide (left.1 ≤ right.1)

end Bindings

end ExprLang
