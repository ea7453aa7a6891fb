import ExprLang.Token.Basic

/-!
# Enclosed tokens

What stands between an opening token and the closing token that matches it.  Only
the two given kinds are counted, so brackets of other kinds inside need not match.
-/

namespace ExprLang

structure Enclosed where
  inner : List Token
  closer : Token
  rest : List Token
  deriving DecidableEq, Repr

namespace Enclosed

def cons (token : Token) (enclosed : Enclosed) : Enclosed :=
  { enclosed with inner := token :: enclosed.inner }

/-- Reads up to the closing token of a pair whose opening token has been read, with
`nested` further pairs open inside it. -/
def until? (opener closer : Kind) : Nat → List Token → Option Enclosed
  | _, [] => none
  | nested, token :: rest =>
      if token.kind = opener then
        (until? opener closer (nested + 1) rest).map (cons token)
      else if token.kind = closer then
        match nested with
        | 0 => some ⟨[], token, rest⟩
        | nested + 1 => (until? opener closer nested rest).map (cons token)
      else (until? opener closer nested rest).map (cons token)

def ofTokens? (opener closer : Kind) : List Token → Option Enclosed
  | [] => none
  | token :: rest =>
      if token.kind = opener then until? opener closer 0 rest else none

def ofBracket? (bracket : Bracket) (tokens : List Token) : Option Enclosed :=
  ofTokens? (.opening bracket) (.closing bracket) tokens

def at? (opener closer : Kind) (tokens : List Token) (position : Nat) :
    Option (List Token × Nat) :=
  (ofTokens? opener closer (tokens.drop position)).map fun enclosed =>
    (enclosed.inner, position + enclosed.inner.length + 2)

private theorem eq_of_until? {opener closer : Kind} {nested : Nat}
    {tokens : List Token} {enclosed : Enclosed}
    (h : until? opener closer nested tokens = some enclosed) :
    tokens = enclosed.inner ++ enclosed.closer :: enclosed.rest := by
  induction tokens generalizing nested enclosed with
  | nil => simp [until?] at h
  | cons token rest ih =>
      have step {nested : Nat}
          (h :
            (until? opener closer nested rest).map (cons token) = some enclosed) :
          token :: rest = enclosed.inner ++ enclosed.closer :: enclosed.rest := by
        obtain ⟨tail, htail, rfl⟩ := Option.map_eq_some_iff.1 h
        simp [cons, ← ih htail]
      unfold until? at h
      split at h
      · exact step h
      · split at h
        · cases nested with
          | zero =>
              cases h
              rfl
          | succ nested => exact step h
        · exact step h

theorem eq_of_ofTokens? {opener closer : Kind} {tokens : List Token}
    {enclosed : Enclosed} (h : ofTokens? opener closer tokens = some enclosed) :
    ∃ first, first.kind = opener ∧
      tokens = first :: enclosed.inner ++ enclosed.closer :: enclosed.rest := by
  cases tokens with
  | nil => simp [ofTokens?] at h
  | cons first rest =>
      simp only [ofTokens?] at h
      split at h
      · rename_i hfirst
        exact ⟨first, hfirst, by simp [eq_of_until? h]⟩
      · cases h

theorem length_of_ofTokens? {opener closer : Kind} {tokens : List Token}
    {enclosed : Enclosed} (h : ofTokens? opener closer tokens = some enclosed) :
    tokens.length = enclosed.inner.length + enclosed.rest.length + 2 := by
  obtain ⟨first, -, rfl⟩ := eq_of_ofTokens? h
  simp
  omega

end Enclosed

end ExprLang
