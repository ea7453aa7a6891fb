import ExprLang.Tree.Basic
import ExprLang.Ty.Literal

/-!
# Variable lists

Names with optional types, as on the left of an assignment and in the arguments of a
function literal.  A colon may stand before a type, and then the type must be there.
-/

namespace ExprLang.VariableList

def declaredType (name : Token) (rest : List Token) :
    Except ParseError (Option Ty × List Token) :=
  let colon := rest.head?.any (·.kind = .colon)
  let afterColon := if colon then rest.tail else rest
  match TypeLiteral.read afterColon with
  | .error error => .error error
  | .ok (some (type, after)) => .ok (some type, after)
  | .ok none =>
      if colon then
        .error (.unexpected name.line (describeHead "end of line" afterColon) .type)
      else .ok (none, afterColon)

private theorem length_of_declaredType {name : Token} {rest after : List Token}
    {type? : Option Ty} (h : declaredType name rest = .ok (type?, after)) :
    after.length ≤ rest.length := by
  have tail :
      (if rest.head?.any (·.kind = .colon) then rest.tail else rest).length ≤
        rest.length := by
    split <;> simp
  simp only [declaredType] at h
  split at h
  · cases h
  · rename_i hread
    cases h
    exact Nat.le_trans (Nat.le_of_lt (TypeLiteral.length_of_read hread)) tail
  · split at h
    · cases h
    · cases h
      simp

def read (tokens : List Token) : Except ParseError (List Variable) :=
  match tokens with
  | [] => .ok []
  | name :: rest =>
      if name.kind ≠ .identifier then
        .error (.unexpected name.line name.describe .identifier)
      else
        match _h : declaredType name rest with
        | .error error => .error error
        | .ok (type?, []) => .ok [⟨name.text, type?⟩]
        | .ok (type?, comma :: others) =>
            if comma.kind ≠ .comma then
              .error (.unexpected comma.line comma.describe .comma)
            else if others.isEmpty then
              .error (.unexpected comma.line "end of list" .identifier)
            else (read others).map (⟨name.text, type?⟩ :: ·)
termination_by tokens.length
decreasing_by
  have := length_of_declaredType ‹_›
  simp at this ⊢
  omega

end ExprLang.VariableList
