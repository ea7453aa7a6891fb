import ExprLang.Check.Walker
import ExprLang.SymbolTable
import ExprLang.Ty.Builtin

/-!
# Checkers

A checker reads and extends a symbol table.  What it has defined before an error
stays defined, and the frame of a function body is dropped after an error too.
-/

namespace ExprLang

abbrev Checker := ExceptT TypeError (StateM SymbolTable)

namespace Checker

variable {α : Type}

def fail (line : Nat) (fault : TypeFault) : Checker α := throw ⟨line, fault⟩

def inFrame (arguments : List (String × Ty)) (checker : Checker α) : Checker α :=
  fun table =>
    let (outcome, after) := checker (table.enter arguments)
    (outcome, after.leave)

def typeOf (line : Nat) (name : String) : Checker Ty := do
  match (← get).resolve? name with
  | some (symbol, _) => return symbol.type
  | none =>
      match Builtin.signature? name with
      | some signature => return signature.toTy
      | none => fail line (.undefinedIdentifier name)

/-- Defines a name that is not visible.  A global can not be assigned again, a local
only with the same type. -/
def place (line : Nat) (name : String) (type : Ty) : Checker Unit := do
  match (← get).resolve? name with
  | some (_, .global) => fail line (.globalMutation name)
  | some (symbol, .frame) =>
      if symbol.type.same type then pure ()
      else fail line (.localTypeChange name symbol.type type)
  | none => modify fun table => (table.define name type).2

def reserve : Checker Unit := modify fun table => table.reserve.2

instance : Walker Checker where
  fail := fail
  typeOf := typeOf
  place := place
  reserve := reserve
  inFrame := inFrame
  now line := pure line
  onLine _ checker := checker
  block checker := checker

end Checker

end ExprLang
