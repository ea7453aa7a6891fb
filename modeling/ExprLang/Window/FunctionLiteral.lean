import ExprLang.ParseError
import ExprLang.Window.Enclosed

/-!
# Function literals in a window

A function literal is a parenthesised argument list, an arrow, an optional
parenthesised list of return types and a body in braces.
-/

namespace ExprLang

structure FunctionLiteral where
  arguments : List Token
  returns? : Option (List Token)
  body : List Token
  /-- The line of the brace that closes the body. -/
  lastLine : Nat
  rest : List Token
  deriving DecidableEq, Repr

namespace FunctionLiteral

def ofTokens? (tokens : List Token) : Option FunctionLiteral := do
  let arguments ← Enclosed.ofBracket? .paren tokens
  match arguments.rest with
  | [] => none
  | arrow :: afterArrow =>
      if arrow.kind ≠ .arrow then none
      else
        match Enclosed.ofBracket? .paren afterArrow with
        | some returns => do
            let body ← Enclosed.ofBracket? .brace returns.rest
            return ⟨arguments.inner, some returns.inner, body.inner,
                body.closer.line, body.rest⟩
        | none => do
            let body ← Enclosed.ofBracket? .brace afterArrow
            return ⟨arguments.inner, none, body.inner, body.closer.line, body.rest⟩

/-- Cuts a window that is a literal into its parts.  The arrow is skipped, not
looked at. -/
def cut (tokens : List Token) : Except ParseError FunctionLiteral := do
  let some arguments := Enclosed.ofBracket? .paren tokens | throw .noArgumentList
  let afterArrow := arguments.rest.tail
  let returns? := Enclosed.ofBracket? .paren afterArrow
  let some body := Enclosed.ofBracket? .brace
    (returns?.elim afterArrow Enclosed.rest) | throw .noBody
  return ⟨arguments.inner, returns?.map Enclosed.inner, body.inner,
      body.closer.line, body.rest⟩

/-- What the search for a literal finds is cut without an error, and into the same
parts. -/
theorem cut_of_ofTokens? {tokens : List Token} {literal : FunctionLiteral}
    (h : ofTokens? tokens = some literal) : cut tokens = .ok literal := by
  unfold ofTokens? at h
  obtain ⟨arguments, harguments, h⟩ := Option.bind_eq_some_iff.1 h
  simp only [cut, harguments]
  split at h
  · cases h
  · rename_i arrow afterArrow hrest
    rw [hrest, List.tail_cons]
    split at h
    · cases h
    · split at h
      · rename_i returns hreturns
        obtain ⟨body, hbody, h⟩ := Option.bind_eq_some_iff.1 h
        cases h
        simp only [hreturns, Option.elim_some, hbody]
        rfl
      · rename_i hreturns
        obtain ⟨body, hbody, h⟩ := Option.bind_eq_some_iff.1 h
        cases h
        simp only [hreturns, Option.elim_none, hbody]
        rfl

theorem length_of_ofTokens? {tokens : List Token} {literal : FunctionLiteral}
    (h : ofTokens? tokens = some literal) :
    literal.body.length + literal.rest.length + 5 ≤ tokens.length := by
  unfold ofTokens? at h
  obtain ⟨arguments, harguments, h⟩ := Option.bind_eq_some_iff.1 h
  have := Enclosed.length_of_ofTokens? harguments
  split at h
  · cases h
  · rename_i arrow afterArrow hrest
    rw [hrest] at this
    split at h
    · cases h
    · split at h
      · rename_i returns hreturns
        obtain ⟨body, hbody, h⟩ := Option.bind_eq_some_iff.1 h
        cases h
        have := Enclosed.length_of_ofTokens? hreturns
        have := Enclosed.length_of_ofTokens? hbody
        simp at *
        omega
      · obtain ⟨body, hbody, h⟩ := Option.bind_eq_some_iff.1 h
        cases h
        have := Enclosed.length_of_ofTokens? hbody
        simp at *
        omega

end FunctionLiteral

end ExprLang
