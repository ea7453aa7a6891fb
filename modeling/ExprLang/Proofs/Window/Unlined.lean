import ExprLang.Proofs.Window.Nested
import ExprLang.Window.Juxtaposed

/-!
# Windows without lines

A window is cut by the kinds of its tokens.  Where it is cut does not depend on the
lines of the tokens: the cuts of a window without lines are the cuts of the window,
without lines.
-/

namespace ExprLang

/-! ## Tokens -/

/-- The token, moved to line zero. -/
def Token.unlined (token : Token) : Token := { token with line := 0 }

namespace Token

variable (token : Token)

@[simp] theorem kind_unlined : token.unlined.kind = token.kind := rfl

@[simp] theorem text_unlined : token.unlined.text = token.text := rfl

@[simp] theorem line_unlined : token.unlined.line = 0 := rfl

end Token

theorem Depth.after_unlined (depth : Depth) (tokens : List Token) :
    depth.after (tokens.map Token.unlined) = depth.after tokens := by
  simp [after, List.foldl_map]

/-! ## Brackets -/

namespace Enclosed

def unlined (enclosed : Enclosed) : Enclosed :=
  ⟨enclosed.inner.map Token.unlined, enclosed.closer.unlined,
    enclosed.rest.map Token.unlined⟩

private theorem until?_unlined (opener closer : Kind) (nested : Nat)
    (tokens : List Token) :
    until? opener closer nested (tokens.map Token.unlined) =
      (until? opener closer nested tokens).map unlined := by
  induction tokens generalizing nested with
  | nil => rfl
  | cons token rest ih =>
      have later (nested : Nat) : (until? opener closer nested
            (rest.map Token.unlined)).map (cons token.unlined) =
          ((until? opener closer nested rest).map (cons token)).map unlined := by
        rw [ih, Option.map_map, Option.map_map]
        rfl
      rw [List.map_cons]
      by_cases hopener : token.kind = opener
      · rw [until?_cons_opener nested rest hopener, ← later]
        exact until?_cons_opener _ _ hopener
      · by_cases hcloser : token.kind = closer
        · have hne : closer ≠ opener := hcloser ▸ hopener
          cases nested with
          | zero =>
              rw [until?_zero_cons_closer rest hcloser hne]
              exact until?_zero_cons_closer _ hcloser hne
          | succ nested =>
              rw [until?_cons_closer nested rest hcloser hne, ← later]
              exact until?_cons_closer _ _ hcloser hne
        · rw [until?_cons_of_ne nested rest hopener hcloser, ← later]
          exact until?_cons_of_ne _ _ hopener hcloser

private theorem ofTokens?_unlined (opener closer : Kind) (tokens : List Token) :
    ofTokens? opener closer (tokens.map Token.unlined) =
      (ofTokens? opener closer tokens).map unlined := by
  cases tokens with
  | nil => rfl
  | cons token rest =>
      rw [List.map_cons, ofTokens?, ofTokens?, Token.kind_unlined]
      by_cases hopener : token.kind = opener
      · rw [if_pos hopener, if_pos hopener]
        exact until?_unlined opener closer 0 rest
      · rw [if_neg hopener, if_neg hopener]
        rfl

theorem ofBracket?_unlined (bracket : Bracket) (tokens : List Token) :
    ofBracket? bracket (tokens.map Token.unlined) =
      (ofBracket? bracket tokens).map unlined :=
  ofTokens?_unlined _ _ tokens

end Enclosed

namespace FunctionLiteral

def unlined (literal : FunctionLiteral) : FunctionLiteral :=
  ⟨literal.arguments.map Token.unlined,
    literal.returns?.map (List.map Token.unlined), literal.body.map Token.unlined,
    0, literal.rest.map Token.unlined⟩

theorem ofTokens?_unlined (tokens : List Token) :
    ofTokens? (tokens.map Token.unlined) = (ofTokens? tokens).map unlined := by
  unfold ofTokens?
  rw [Enclosed.ofBracket?_unlined]
  cases Enclosed.ofBracket? .paren tokens with
  | none => rfl
  | some arguments =>
      obtain ⟨inner, closer, rest⟩ := arguments
      cases rest with
      | nil => rfl
      | cons arrow afterArrow =>
          simp only [Option.map_some, Option.bind_eq_bind, Option.bind_some,
            Enclosed.unlined, List.map_cons, Token.kind_unlined,
            Enclosed.ofBracket?_unlined]
          split
          · rfl
          · cases Enclosed.ofBracket? .paren afterArrow with
            | some returns =>
                simp only [Option.map_some, Enclosed.unlined,
                  Enclosed.ofBracket?_unlined]
                cases Enclosed.ofBracket? .brace returns.rest <;> rfl
            | none =>
                simp only [Option.map_none]
                cases Enclosed.ofBracket? .brace afterArrow <;> rfl

end FunctionLiteral

/-! ## Commas -/

namespace Comma

private theorem consHead_unlined (token : Token) (pieces : List (List Token)) :
    consHead token.unlined (pieces.map (List.map Token.unlined)) =
      (consHead token pieces).map (List.map Token.unlined) := by
  cases pieces <;> rfl

private theorem piecesFrom_unlined (depth : Depth) (tokens : List Token) :
    piecesFrom depth (tokens.map Token.unlined) =
      (piecesFrom depth tokens).map (List.map Token.unlined) := by
  induction tokens generalizing depth with
  | nil => rfl
  | cons token rest ih =>
      simp only [List.map_cons, piecesFrom, Token.kind_unlined, ih]
      split
      · rfl
      · exact consHead_unlined token _

theorem pieces_unlined (tokens : List Token) :
    pieces (tokens.map Token.unlined) =
      (pieces tokens).map (List.map Token.unlined) :=
  piecesFrom_unlined .zero tokens

theorem items_unlined (tokens : List Token) :
    items (tokens.map Token.unlined) =
      (items tokens).map (List.map Token.unlined) := by
  unfold items
  rw [List.isEmpty_map, pieces_unlined]
  split <;> rfl

end Comma

/-! ## Juxtaposition -/

namespace Juxtaposed

theorem unitLength_unlined (tokens : List Token) :
    unitLength (tokens.map Token.unlined) = unitLength tokens := by
  unfold unitLength
  rw [FunctionLiteral.ofTokens?_unlined, Enclosed.ofBracket?_unlined,
    Enclosed.ofBracket?_unlined]
  cases FunctionLiteral.ofTokens? tokens with
  | some literal => simp [FunctionLiteral.unlined]
  | none =>
      cases Enclosed.ofBracket? .square tokens with
      | some enclosed => simp [Enclosed.unlined]
      | none =>
          cases Enclosed.ofBracket? .paren tokens with
          | some enclosed => simp [Enclosed.unlined]
          | none => rfl

private theorem piecesFrom_unlined (joined : Bool) (piece tokens : List Token) :
    piecesFrom joined (piece.map Token.unlined) (tokens.map Token.unlined) =
      (piecesFrom joined piece tokens).map (List.map Token.unlined) := by
  have hlength (token : Token) (rest : List Token) :
      unitLength (token.unlined :: rest.map Token.unlined) =
        unitLength (token :: rest) :=
    unitLength_unlined (token :: rest)
  fun_induction piecesFrom joined piece tokens with
  | case1 joined piece => simp [piecesFrom]
  | case2 joined piece token rest hoperator ih =>
      simp only [List.map_append, List.map_cons, List.map_nil] at ih
      simp [piecesFrom, hoperator, ih]
  | case3 piece token rest hoperator htakes => simp [piecesFrom, hoperator, htakes]
  | case4 joined piece token rest hoperator htakes hjoined =>
      simp [piecesFrom, hoperator, htakes, hjoined]
  | case5 piece token rest hoperator htakes extra ih =>
      simp only [List.map_append, List.map_cons, List.map_take, List.map_drop] at ih
      simp [piecesFrom, hoperator, htakes, hlength, extra, ih]
  | case6 joined piece token rest hoperator htakes extra hjoined ih =>
      simp only [List.map_cons, List.map_take, List.map_drop] at ih
      simp [piecesFrom, hoperator, htakes, hjoined, hlength, extra, ih]

theorem pieces_unlined (tokens : List Token) :
    pieces (tokens.map Token.unlined) =
      (pieces tokens).map (List.map Token.unlined) :=
  piecesFrom_unlined true [] tokens

end Juxtaposed

/-! ## Splits -/

namespace Split

def unlined (split : Split) : Split :=
  ⟨split.left.map Token.unlined, split.token.unlined, split.right.map Token.unlined⟩

private theorem atTierFrom?_unlined (tier : Tier) (depth : Depth)
    (tokens : List Token) :
    atTierFrom? tier depth (tokens.map Token.unlined) =
      (atTierFrom? tier depth tokens).map unlined := by
  induction tokens generalizing depth with
  | nil => rfl
  | cons token rest ih =>
      simp only [List.map_cons, atTierFrom?]
      rw [Token.kind_unlined, ih]
      cases atTierFrom? tier (depth.step token.kind) rest with
      | some split =>
          split
          · rfl
          · split <;> rfl
      | none =>
          split
          · rfl
          · split
            · rfl
            · simp only [Option.map_none, Option.none_or]
              split <;> rfl

theorem atOperator?_unlined (tokens : List Token) :
    atOperator? (tokens.map Token.unlined) = (atOperator? tokens).map unlined := by
  simp only [atOperator?, atTierFrom?_unlined]
  generalize [Tier.comparison, .additive, .multiplicative] = tiers
  induction tiers with
  | nil => rfl
  | cons tier tiers ih =>
      simp only [List.findSome?_cons]
      cases atTierFrom? tier .zero tokens with
      | none => exact ih
      | some found => rfl

private theorem atElseFrom?_unlined (depth : Depth) (claimed : Nat)
    (tokens : List Token) :
    atElseFrom? depth claimed (tokens.map Token.unlined) =
      (atElseFrom? depth claimed tokens).map unlined := by
  induction tokens generalizing depth claimed with
  | nil => rfl
  | cons token rest ih =>
      have later (depth : Depth) (claimed : Nat) : (atElseFrom? depth claimed
            (rest.map Token.unlined)).map (cons token.unlined) =
          ((atElseFrom? depth claimed rest).map (cons token)).map unlined := by
        rw [ih, Option.map_map, Option.map_map]
        rfl
      cases hdeeper : (token.kind.isBracket || !(depth.step token.kind).atTop) with
      | true =>
          simp only [List.map_cons, atElseFrom?, Token.kind_unlined, hdeeper,
            if_true]
          exact later _ _
      | false =>
          simp only [List.map_cons, atElseFrom?, Token.kind_unlined, hdeeper,
            Bool.false_eq_true, if_false]
          split
          · exact later _ _
          · rfl
          · exact later _ _
          · exact later _ _

theorem atElse?_unlined (tokens : List Token) :
    atElse? (tokens.map Token.unlined) = (atElse? tokens).map unlined :=
  atElseFrom?_unlined .zero 0 tokens

end Split

end ExprLang
