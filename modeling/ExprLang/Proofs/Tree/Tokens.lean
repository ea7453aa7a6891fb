import ExprLang.Proofs.Ty.Literal
import ExprLang.Proofs.Window.Phrase
import ExprLang.Tree.Printer

/-!
# Tokens of trees

The tokens of the printed form of a tree, all on one line.  Those of an expression
are a unit.
-/

namespace ExprLang

def Variable.tokens (line : Nat) (target : Variable) : List Token :=
  ⟨.identifier, target.name, line⟩ :: target.type?.elim [] (Ty.tokens line)

def arrayTokens (line : Nat) : List (List Token) → List Token
  | [] => [.ofKind .arrayMark line]
  | window :: windows =>
      .ofKind (.opening .square) line ::
        (Comma.join line (window :: windows) ++ [.ofKind (.closing .square) line])

def parenTokens (line : Nat) (inner : List Token) : List Token :=
  .ofKind (.opening .paren) line :: (inner ++ [.ofKind (.closing .paren) line])

mutual

def Expr.tokens (line : Nat) : Expr → List Token
  | .reference target => [⟨.identifier, target.name, line⟩]
  | .int value => [⟨.int, printInteger value, line⟩]
  | .float value => [⟨.float, value.print, line⟩]
  | .string value => [⟨.string, value, line⟩]
  | .bool value => [⟨.bool, if value then "true" else "false", line⟩]
  | .operator op _ left right =>
      parenTokens line
        (left.tokens line ++ .ofKind (.operator op) line :: right.tokens line)
  | .apply callee arguments _ =>
      parenTokens line
        (.ofKind .bang line ::
          (callee.tokens line :: Expr.tokensAll line arguments).flatten)
  | .conditional condition thenBranch elseBranch _ =>
      parenTokens line (.ofKind .ifWord line ::
        ([condition.tokens line, thenBranch.tokens line].flatten ++
          .ofKind .elseWord line :: elseBranch.tokens line))
  | .array _ elements => arrayTokens line (Expr.tokensAll line elements)
  | .function arguments returns returnsOmitted body _ =>
      FunctionLiteral.tokens line
        (Comma.join line (arguments.map (Variable.tokens line)))
        (if returnsOmitted then none
          else some (Comma.join line (Ty.tokensAll line returns)))
        (Statement.tokensAll line body).flatten

def Expr.tokensAll (line : Nat) : List Expr → List (List Token)
  | [] => []
  | expression :: expressions =>
      expression.tokens line :: Expr.tokensAll line expressions

def Statement.tokens (line : Nat) : Statement → List Token
  | .assign targets value _ =>
      Comma.join line (targets.map (Variable.tokens line)) ++
        .ofKind .assign line :: value.tokens line
  | .result expressions _ =>
      .ofKind .returnWord line :: Comma.join line (Expr.tokensAll line expressions)

def Statement.tokensAll (line : Nat) : List Statement → List (List Token)
  | [] => []
  | statement :: statements =>
      statement.tokens line :: Statement.tokensAll line statements

end

theorem Expr.tokensAll_eq_map (line : Nat) (expressions : List Expr) :
    Expr.tokensAll line expressions = expressions.map (Expr.tokens line) := by
  induction expressions with
  | nil => rfl
  | cons expression expressions ih => simp [Expr.tokensAll, ih]

/-! ## Nesting -/

open Juxtaposed

private theorem Variable.nested_tokens (line : Nat) (target : Variable) :
    Nested (fun kind => kind ≠ .comma) (target.tokens line) := by
  refine .token rfl (by simp) ?_
  cases target.type? with
  | none => exact .nil
  | some type => exact (type.nested_tokens line).mono fun _ hpart => hpart.ne_comma

theorem Variable.nested_join_tokens (line : Nat) (targets : List Variable) :
    Nested (fun _ => True)
      (Comma.join line (targets.map (Variable.tokens line))) := by
  refine Comma.nested_join line ?_ trivial
  intro window hwindow
  obtain ⟨target, -, rfl⟩ := List.mem_map.1 hwindow
  exact (target.nested_tokens line).mono fun _ _ => trivial

theorem nested_join_of_units (line : Nat) {windows : List (List Token)}
    (h : ∀ window ∈ windows, IsUnit window) :
    Nested (fun _ => True) (Comma.join line windows) :=
  Comma.nested_join line
    (fun window hwindow =>
      (h window hwindow).nested.mono fun _ _ => trivial) trivial

theorem phrase_operator {left right : List Token} (hleft : IsUnit left)
    (hright : IsUnit right) (op : Operator) (line : Nat) :
    Phrase (left ++ .ofKind (.operator op) line :: right) :=
  .operator (.unit hleft) hleft.closed rfl (.unit hright)

theorem phrase_application {units : List (List Token)}
    (h : ∀ unit ∈ units, IsUnit unit) (line : Nat) :
    Phrase (.ofKind .bang line :: units.flatten) :=
  .application rfl fun unit hunit => .unit (h unit hunit)

theorem phrase_conditional {condition thenBranch elseBranch : List Token}
    (hcondition : IsUnit condition) (hthen : IsUnit thenBranch)
    (helse : IsUnit elseBranch) (line : Nat) :
    Phrase (.ofKind .ifWord line :: ([condition, thenBranch].flatten ++
        .ofKind .elseWord line :: elseBranch)) := by
  have hphrase :=
    Phrase.conditional (Token.kind_ofKind .ifWord line) (.unit hcondition)
      (.unit hthen) (Token.kind_ofKind .elseWord line) (.unit helse)
  simpa using hphrase

theorem nested_of_mem_returns (line : Nat) (returns : List Ty)
    (returnsOmitted : Bool) :
    ∀ window ∈ if returnsOmitted then none else some
        (Comma.join line (Ty.tokensAll line returns)),
      Nested (fun _ => True) window := by
  intro window hwindow
  cases returnsOmitted with
  | true => simp at hwindow
  | false =>
      simp only [Bool.false_eq_true, if_false, Option.mem_def,
        Option.some.injEq] at hwindow
      exact hwindow ▸ Ty.nested_join_tokensAll line returns

mutual

theorem Expr.isUnit_tokens (line : Nat) :
    (expression : Expr) → IsUnit (expression.tokens line)
  | .reference _ | .int _ | .float _ | .string _ | .bool _ =>
      isUnit_single rfl ⟨rfl, rfl, by simp, by simp⟩ (by simp)
  | .operator op _ left right =>
      isUnit_paren (.intro rfl rfl)
        (phrase_operator (left.isUnit_tokens line)
          (right.isUnit_tokens line) op line).nested
  | .apply callee arguments _ => by
      refine isUnit_paren (.intro rfl rfl) (phrase_application ?_ line).nested
      intro window hwindow
      rcases List.mem_cons.1 hwindow with rfl | hwindow
      · exact callee.isUnit_tokens line
      · exact Expr.isUnit_of_mem_tokensAll line arguments window hwindow
  | .conditional condition thenBranch elseBranch _ =>
      isUnit_paren (.intro rfl rfl) (phrase_conditional
          (condition.isUnit_tokens line) (thenBranch.isUnit_tokens line)
          (elseBranch.isUnit_tokens line) line).nested
  | .array _ elements => by
      have helements := Expr.isUnit_of_mem_tokensAll line elements
      rw [Expr.tokens]
      cases hwindows : Expr.tokensAll line elements with
      | nil => exact isUnit_single rfl ⟨rfl, rfl, by simp, by simp⟩ (by simp)
      | cons window windows =>
          rw [hwindows] at helements
          exact isUnit_square (.intro rfl rfl) (nested_join_of_units line helements)
  | .function arguments returns returnsOmitted body _ =>
      isUnit_function (FunctionLiteral.spans_tokens line _ _ _) rfl
        (Variable.nested_join_tokens line arguments)
        (nested_of_mem_returns line returns returnsOmitted)
        (nested_flatten (Statement.nested_of_mem_tokensAll line body))

theorem Expr.isUnit_of_mem_tokensAll (line : Nat) : (expressions : List Expr) →
    ∀ window ∈ Expr.tokensAll line expressions, IsUnit window
  | [] => by simp [Expr.tokensAll]
  | expression :: expressions => by
      intro window hwindow
      rcases List.mem_cons.1 hwindow with rfl | hwindow
      · exact expression.isUnit_tokens line
      · exact Expr.isUnit_of_mem_tokensAll line expressions window hwindow

theorem Statement.nested_tokens (line : Nat) : (statement : Statement) →
    Nested (fun _ => True) (statement.tokens line)
  | .assign targets value _ =>
      (Variable.nested_join_tokens line targets).append (.token rfl trivial
        ((value.isUnit_tokens line).nested.mono fun _ _ => trivial))
  | .result expressions _ =>
      .token rfl trivial
        (nested_join_of_units line (Expr.isUnit_of_mem_tokensAll line expressions))

theorem Statement.nested_of_mem_tokensAll (line : Nat) :
    (statements : List Statement) →
      ∀ window ∈ Statement.tokensAll line statements, Nested (fun _ => True) window
  | [] => by simp [Statement.tokensAll]
  | statement :: statements => by
      intro window hwindow
      rcases List.mem_cons.1 hwindow with rfl | hwindow
      · exact statement.nested_tokens line
      · exact Statement.nested_of_mem_tokensAll line statements window hwindow

end

/-! ## Lines -/

/-- Neither the end of a line or of a text, nor a character that begins no token. -/
def Token.isOrdinary (token : Token) : Bool :=
  token.kind ≠ .newline && token.kind ≠ .illegal && token.kind ≠ .eof

def Token.isDeclaring (token : Token) : Bool :=
  match token.kind with
  | .identifier | .typeName | .arrayMark | .arrow | .comma | .opening .paren
  | .closing .paren =>
      true
  | _ => false

private theorem Token.isOrdinary_of_isDeclaring {token : Token}
    (h : token.isDeclaring = true) :
    token.isOrdinary = true := by
  unfold Token.isDeclaring at h
  unfold Token.isOrdinary
  split at h <;> simp_all

theorem Comma.all_join (accepts : Token → Bool) (line : Nat)
    (h : accepts (.ofKind .comma line) = true) (windows : List (List Token)) :
    (Comma.join line windows).all accepts = windows.all (·.all accepts) := by
  induction windows with
  | nil => rfl
  | cons window windows ih =>
      cases windows with
      | nil => simp [Comma.join]
      | cons other windows =>
          rw [join_cons_cons, List.all_append, List.all_cons, ih, h, Bool.true_and]
          rfl

mutual

theorem Ty.all_isDeclaring_tokens (line : Nat) : (type : Ty) →
    (type.tokens line).all Token.isDeclaring = true
  | .primitive _ | .hole _ => by simp [Ty.tokens, Token.isDeclaring]
  | .array element => by
      rw [Ty.tokens, List.all_cons, Ty.all_isDeclaring_tokens line element]
      rfl
  | .function arguments returns _ => by
      have harguments := Ty.all_isDeclaring_tokensAll line arguments
      have hreturns := Ty.all_isDeclaring_tokensAll line returns
      rw [← Comma.all_join _ line rfl] at harguments hreturns
      simp only [Ty.tokens, List.all_cons, List.all_append, harguments, hreturns]
      rfl

theorem Ty.all_isDeclaring_tokensAll (line : Nat) : (types : List Ty) →
    (Ty.tokensAll line types).all (·.all Token.isDeclaring) = true
  | [] => rfl
  | type :: types => by
      rw [Ty.tokensAll, List.all_cons, Ty.all_isDeclaring_tokens line type,
        Ty.all_isDeclaring_tokensAll line types]
      rfl

end

private theorem Variable.all_isDeclaring_tokens (line : Nat) (target : Variable) :
    (target.tokens line).all Token.isDeclaring = true := by
  unfold Variable.tokens
  cases target.type? with
  | none => rfl
  | some type =>
      rw [Option.elim_some, List.all_cons, Ty.all_isDeclaring_tokens line type]
      rfl

theorem Variable.all_isDeclaring_join (line : Nat) (targets : List Variable) :
    (Comma.join line (targets.map (Variable.tokens line))).all Token.isDeclaring =
      true := by
  rw [Comma.all_join _ line rfl, List.all_map, List.all_eq_true]
  intro target _
  exact target.all_isDeclaring_tokens line

theorem all_isOrdinary_of_isDeclaring {tokens : List Token}
    (h : tokens.all Token.isDeclaring = true) :
    tokens.all Token.isOrdinary = true := by
  rw [List.all_eq_true] at h ⊢
  exact fun token htoken => Token.isOrdinary_of_isDeclaring (h token htoken)

mutual

theorem Expr.all_isOrdinary_tokens (line : Nat) : (expression : Expr) →
    (expression.tokens line).all Token.isOrdinary = true
  | .reference _ | .int _ | .float _ | .string _ | .bool _ => by
      simp [Expr.tokens, Token.isOrdinary]
  | .operator op _ left right => by
      have hleft := left.all_isOrdinary_tokens line
      have hright := right.all_isOrdinary_tokens line
      simp only [Expr.tokens, parenTokens, List.all_cons, List.all_append, hleft,
        hright]
      rfl
  | .apply callee arguments _ => by
      have hcallee := callee.all_isOrdinary_tokens line
      have harguments := Expr.all_isOrdinary_tokensAll line arguments
      simp only [Expr.tokens, parenTokens, List.flatten_cons, List.all_cons,
        List.all_append, List.all_flatten, hcallee, harguments]
      rfl
  | .conditional condition thenBranch elseBranch _ => by
      have hcondition := condition.all_isOrdinary_tokens line
      have hthen := thenBranch.all_isOrdinary_tokens line
      have helse := elseBranch.all_isOrdinary_tokens line
      simp only [Expr.tokens, parenTokens, List.flatten_cons, List.all_cons,
        List.all_append, hcondition, hthen, helse]
      rfl
  | .array _ elements => by
      have helements := Expr.all_isOrdinary_tokensAll line elements
      rw [Expr.tokens]
      cases hwindows : Expr.tokensAll line elements with
      | nil => rfl
      | cons window windows =>
          rw [hwindows, ← Comma.all_join _ line rfl] at helements
          simp only [arrayTokens, List.all_cons, List.all_append, helements]
          rfl
  | .function arguments returns returnsOmitted body _ => by
      have harguments :=
        all_isOrdinary_of_isDeclaring (Variable.all_isDeclaring_join line arguments)
      have hdeclared := Ty.all_isDeclaring_tokensAll line returns
      rw [← Comma.all_join _ line rfl] at hdeclared
      have hreturns := all_isOrdinary_of_isDeclaring hdeclared
      have hbody := Statement.all_isOrdinary_tokensAll line body
      rw [← List.all_flatten] at hbody
      cases returnsOmitted with
      | true =>
          simp only [Expr.tokens, FunctionLiteral.tokens, if_true, Option.elim_none,
            List.nil_append, List.all_cons, List.all_append, harguments, hbody]
          rfl
      | false =>
          simp only [Expr.tokens, FunctionLiteral.tokens, Bool.false_eq_true,
            if_false, Option.elim_some, List.all_cons, List.all_append, harguments,
            hreturns, hbody]
          rfl

theorem Expr.all_isOrdinary_tokensAll (line : Nat) : (expressions : List Expr) →
    (Expr.tokensAll line expressions).all (·.all Token.isOrdinary) = true
  | [] => rfl
  | expression :: expressions => by
      rw [Expr.tokensAll, List.all_cons, expression.all_isOrdinary_tokens line,
        Expr.all_isOrdinary_tokensAll line expressions]
      rfl

theorem Statement.all_isOrdinary_tokens (line : Nat) : (statement : Statement) →
    (statement.tokens line).all Token.isOrdinary = true
  | .assign targets value _ => by
      have htargets :=
        all_isOrdinary_of_isDeclaring (Variable.all_isDeclaring_join line targets)
      have hvalue := value.all_isOrdinary_tokens line
      simp only [Statement.tokens, List.all_cons, List.all_append, htargets, hvalue]
      rfl
  | .result expressions _ => by
      have hexpressions := Expr.all_isOrdinary_tokensAll line expressions
      rw [← Comma.all_join _ line rfl] at hexpressions
      simp only [Statement.tokens, List.all_cons, hexpressions]
      rfl

theorem Statement.all_isOrdinary_tokensAll (line : Nat) :
    (statements : List Statement) →
      (Statement.tokensAll line statements).all (·.all Token.isOrdinary) = true
  | [] => rfl
  | statement :: statements => by
      rw [Statement.tokensAll, List.all_cons, statement.all_isOrdinary_tokens line,
        Statement.all_isOrdinary_tokensAll line statements]
      rfl

end

end ExprLang
