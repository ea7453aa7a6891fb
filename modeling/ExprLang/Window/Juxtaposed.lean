import ExprLang.Window.FunctionLiteral

/-!
# Juxtaposed pieces

An application lists its callee and its arguments side by side.  A window is read
unit by unit: a function literal, a pair of square brackets or parentheses, or a
single token.  A unit begins a new piece unless an operator stands before it; an
inner application or conditional takes all that is left.
-/

namespace ExprLang.Juxtaposed

def unitLength (tokens : List Token) : Nat :=
  match FunctionLiteral.ofTokens? tokens with
  | some literal => tokens.length - literal.rest.length
  | none =>
      match Enclosed.ofBracket? .square tokens with
      | some enclosed => enclosed.inner.length + 2
      | none =>
          match Enclosed.ofBracket? .paren tokens with
          | some enclosed => enclosed.inner.length + 2
          | none => 1

def unitEnd (tokens : List Token) (position : Nat) : Nat :=
  position + unitLength (tokens.drop position)

def functionEnd? (tokens : List Token) (position : Nat) : Option Nat :=
  (FunctionLiteral.ofTokens? (tokens.drop position)).map fun literal =>
    tokens.length - literal.rest.length

/-- Goes on with `piece`, which the next unit joins if `joined`. -/
def piecesFrom (joined : Bool) (piece : List Token) : List Token → List (List Token)
  | [] => [piece]
  | token :: rest =>
      if token.kind.isOperator then piecesFrom true (piece ++ [token]) rest
      else if token.kind.takesRest then
        if joined then [piece ++ token :: rest] else [piece, token :: rest]
      else
        let extra := unitLength (token :: rest) - 1
        if joined then
          piecesFrom false (piece ++ token :: rest.take extra) (rest.drop extra)
        else piece :: piecesFrom false (token :: rest.take extra) (rest.drop extra)
termination_by tokens => tokens.length
decreasing_by all_goals simp only [List.length_drop, List.length_cons]; omega

def pieces (tokens : List Token) : List (List Token) := piecesFrom true [] tokens

theorem piecesFrom_ne_nil (joined : Bool) (piece tokens : List Token) :
    piecesFrom joined piece tokens ≠ [] := by
  fun_induction piecesFrom joined piece tokens <;> simp_all

theorem pieces_ne_nil (tokens : List Token) : pieces tokens ≠ [] :=
  piecesFrom_ne_nil true [] tokens

private theorem flatten_piecesFrom (joined : Bool) (piece tokens : List Token) :
    (piecesFrom joined piece tokens).flatten = piece ++ tokens := by
  fun_induction piecesFrom joined piece tokens with
  | case1 joined piece => simp
  | case2 joined piece token rest _ ih => simp [ih]
  | case3 => simp
  | case4 => simp
  | case5 piece token rest _ _ extra ih => simp [ih]
  | case6 joined piece token rest _ _ extra _ ih => simp [ih]

theorem flatten_pieces (tokens : List Token) :
    (pieces tokens).flatten = tokens := by
  simp [pieces, flatten_piecesFrom]

theorem length_le_of_mem_pieces {tokens piece : List Token}
    (h : piece ∈ pieces tokens) :
    piece.length ≤ tokens.length := by
  have := (List.sublist_flatten_of_mem h).length_le
  rwa [flatten_pieces] at this

end ExprLang.Juxtaposed
