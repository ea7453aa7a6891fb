import ExprLang.Proofs.Window.Cut
import ExprLang.Proofs.Window.Nested
import ExprLang.Window.Juxtaposed

/-!
# Juxtaposed units

Single tokens, windows in parentheses or square brackets and function literals are
units: a unit at the head of a window is read as it is, whatever follows it.
-/

namespace ExprLang

/-! ## Brackets in a longer window -/

namespace Bracketed

variable {bracket : Bracket} {inner tokens : List Token} {top inside : Kind → Prop}

theorem nested (h : Bracketed bracket inner tokens) (hinner : Nested inside inner) :
    Nested top tokens := by
  cases h with
  | intro hopener hcloser => exact hinner.enclosed hopener hcloser

theorem exists_ofBracket?_append (h : Bracketed bracket inner tokens)
    (hinner : Nested inside inner) (rest : List Token) :
    ∃ closer, Enclosed.ofBracket? bracket (tokens ++ rest) =
      some ⟨inner, closer, rest⟩ := by
  cases h with
  | @intro opener closer hopener hcloser =>
      exact ⟨closer,
        by simpa using Enclosed.ofBracket?_of_nested hinner hopener hcloser rest⟩

theorem ofBracket?_append_of_ne {other : Bracket}
    (h : Bracketed bracket inner tokens) (hother : bracket ≠ other)
    (rest : List Token) :
    Enclosed.ofBracket? other (tokens ++ rest) = none := by
  cases h with
  | intro hopener =>
      exact Enclosed.ofBracket?_of_head_ne (by simp [hopener, hother]) _

end Bracketed

/-! ## Function literals -/

namespace FunctionLiteral

def tokens (line : Nat) (arguments : List Token) (returns? : Option (List Token))
    (body : List Token) : List Token :=
  .ofKind (.opening .paren) line ::
    (arguments ++ .ofKind (.closing .paren) line :: .ofKind .arrow line ::
        (returns?.elim [] (fun returns =>
      .ofKind (.opening .paren) line ::
        (returns ++ [.ofKind (.closing .paren) line])) ++
    .ofKind (.opening .brace) line :: (body ++ [.ofKind (.closing .brace) line])))

theorem spans_tokens (line : Nat) (arguments : List Token)
    (returns? : Option (List Token)) (body : List Token) :
    Spans (tokens line arguments returns? body)
      ⟨arguments, returns?, body, line, []⟩ := by
  have harguments : Bracketed .paren arguments
      (.ofKind (.opening .paren) line ::
        (arguments ++ [.ofKind (.closing .paren) line])) := .intro rfl rfl
  have hbody : Bracketed .brace body
      (.ofKind (.opening .brace) line ::
        (body ++ [.ofKind (.closing .brace) line])) := .intro rfl rfl
  have hcloser : Token.ofKind (.closing .brace) line ∈
      .ofKind (.opening .brace) line ::
        (body ++ [.ofKind (.closing .brace) line]) := by simp
  cases returns? with
  | none =>
      have hspans :=
        Spans.inferred [] harguments (Token.kind_ofKind .arrow line) hbody hcloser
      simpa [tokens] using hspans
  | some returns =>
      have hreturns : Bracketed .paren returns
          (.ofKind (.opening .paren) line ::
            (returns ++ [.ofKind (.closing .paren) line])) := .intro rfl rfl
      have hspans := Spans.declared [] harguments (Token.kind_ofKind .arrow line)
        hreturns hbody hcloser
      simpa [tokens] using hspans

theorem ofTokens?_of_head_ne {token : Token} (h : token.kind ≠ .opening .paren)
    (rest : List Token) :
    ofTokens? (token :: rest) = none := by
  rw [ofTokens?, Enclosed.ofBracket?_of_head_ne h]
  rfl

section

variable {arguments body : List Token} {returns? : Option (List Token)}
    {first second third : Kind → Prop}

theorem ofTokens?_tokens (line : Nat) (harguments : Nested first arguments)
    (hreturns : ∀ returns ∈ returns?, Nested second returns)
    (hbody : Nested third body) (rest : List Token) :
    ofTokens? (tokens line arguments returns? body ++ rest) =
      some ⟨arguments, returns?, body, line, rest⟩ := by
  have hparen := Enclosed.ofBracket?_ofKind harguments .paren line
  have hbrace := Enclosed.ofBracket?_ofKind hbody .brace line rest
  cases returns? with
  | none =>
      have hnone := Enclosed.ofBracket?_of_head_ne
        (show (Token.ofKind (.opening .brace) line).kind ≠ .opening .paren by simp)
        (body ++ .ofKind (.closing .brace) line :: rest)
      simp [ofTokens?, tokens, hparen, hbrace, hnone]
  | some returns =>
      have hsecond := Enclosed.ofBracket?_ofKind (hreturns returns rfl) .paren line
      simp [ofTokens?, tokens, hparen, hsecond, hbrace]

end

namespace Spans

variable {tokens : List Token} {literal : FunctionLiteral}
    {first second third : Kind → Prop}

private theorem exists_ofTokens?_append (h : literal.Spans tokens)
    (hend : literal.rest = []) (harguments : Nested first literal.arguments)
    (hreturns : ∀ returns ∈ literal.returns?, Nested second returns)
    (hbody : Nested third literal.body) (rest : List Token) :
    ∃ found, ofTokens? (tokens ++ rest) = some found ∧ found.rest = rest := by
  cases h with
  | @inferred arguments body source block arrow closer tail hsource harrow hblock =>
      obtain rfl : tail = [] := hend
      obtain ⟨parenthesis, hparen⟩ :=
        hsource.exists_ofBracket?_append harguments (arrow :: (block ++ rest))
      obtain ⟨brace, hbrace⟩ := hblock.exists_ofBracket?_append hbody rest
      have hnone :=
        hblock.ofBracket?_append_of_ne (by simp : Bracket.brace ≠ .paren) rest
      exact ⟨⟨arguments, none, body, brace.line, rest⟩,
        by simp [ofTokens?, hparen, harrow, hnone, hbrace], rfl⟩
  | @declared arguments returns body source target block arrow closer tail hsource
      harrow htarget hblock =>
      obtain rfl : tail = [] := hend
      obtain ⟨parenthesis, hparen⟩ :=
        hsource.exists_ofBracket?_append harguments
          (arrow :: (target ++ (block ++ rest)))
      obtain ⟨other, hother⟩ :=
        htarget.exists_ofBracket?_append (hreturns returns rfl) (block ++ rest)
      obtain ⟨brace, hbrace⟩ := hblock.exists_ofBracket?_append hbody rest
      exact ⟨⟨arguments, some returns, body, brace.line, rest⟩,
        by simp [ofTokens?, hparen, harrow, hother, hbrace], rfl⟩

private theorem nested {top : Kind → Prop} (h : literal.Spans tokens)
    (hend : literal.rest = []) (htop : top .arrow)
    (harguments : Nested first literal.arguments)
    (hreturns : ∀ returns ∈ literal.returns?, Nested second returns)
    (hbody : Nested third literal.body) :
    Nested top tokens := by
  cases h with
  | @inferred arguments body source block arrow closer tail hsource harrow hblock =>
      obtain rfl : tail = [] := hend
      rw [List.append_nil]
      exact (hsource.nested harguments).append
        (.token (by simp [harrow, Kind.isBracket]) (harrow ▸ htop)
          (hblock.nested hbody))
  | @declared arguments returns body source target block arrow closer tail hsource
      harrow htarget hblock =>
      obtain rfl : tail = [] := hend
      rw [List.append_nil]
      exact (hsource.nested harguments).append
        (.token (by simp [harrow, Kind.isBracket]) (harrow ▸ htop)
          ((htarget.nested (hreturns returns rfl)).append (hblock.nested hbody)))

private theorem exists_head (h : literal.Spans tokens) :
    ∃ opener others, tokens = opener :: others ∧ opener.kind = .opening .paren := by
  cases h with
  | inferred _ hsource | declared _ hsource =>
      cases hsource with
      | intro hopener => exact ⟨_, _, rfl, hopener⟩

end Spans

end FunctionLiteral

/-! ## Units -/

namespace Juxtaposed

/-- Kinds that neither end a unit nor join it to another. -/
structure Inside (kind : Kind) : Prop where
  operator : kind.isOperator = false
  rest : kind.takesRest = false
  comma : kind ≠ .comma
  elseWord : kind ≠ .elseWord

private theorem Inside.passed {kind : Kind} (h : Inside kind) : Split.Passed kind :=
  ⟨h.operator, h.rest⟩

theorem Inside.ifWord {kind : Kind} (h : Inside kind) : kind ≠ .ifWord := by
  rintro rfl
  cases h.rest

/-- An arrow would make the argument list of a function literal of the parentheses
before it. -/
def Follows (rest : List Token) : Prop := ∀ token ∈ rest.head?, token.kind ≠ .arrow

structure IsUnit (tokens : List Token) : Prop where
  nested : Nested Inside tokens
  head : ∃ first rest,
    tokens = first :: rest ∧ Split.Passed first.kind ∧ first.kind ≠ .arrow
  unitLength_append : ∀ rest,
    Follows rest → unitLength (tokens ++ rest) = tokens.length

theorem unitLength_of_head {token : Token}
    (h : ∀ bracket, token.kind ≠ .opening bracket) (rest : List Token) :
    unitLength (token :: rest) = 1 := by
  rw [unitLength, FunctionLiteral.ofTokens?_of_head_ne (h .paren),
    Enclosed.ofBracket?_of_head_ne (h .square),
    Enclosed.ofBracket?_of_head_ne (h .paren)]

theorem isUnit_single {token : Token}
    (hbracket : token.kind.isBracket = false) (hinside : Inside token.kind)
    (harrow : token.kind ≠ .arrow) :
    IsUnit [token] where
  nested := .single hbracket hinside
  head := ⟨token, [], rfl, hinside.passed, harrow⟩
  unitLength_append := by
    intro rest _
    have hopener (bracket : Bracket) : token.kind ≠ .opening bracket := by
      intro hkind
      simp [hkind, Kind.isBracket] at hbracket
    exact unitLength_of_head hopener rest

theorem passed_opening {token : Token} {bracket : Bracket}
    (h : token.kind = .opening bracket) :
    Split.Passed token.kind ∧ token.kind ≠ .arrow := by
  rw [h]
  exact ⟨⟨rfl, rfl⟩, by simp⟩

variable {inner tokens : List Token} {top : Kind → Prop}

theorem head_of_bracketed {bracket : Bracket} (h : Bracketed bracket inner tokens) :
    ∃ first rest,
      tokens = first :: rest ∧ Split.Passed first.kind ∧ first.kind ≠ .arrow := by
  cases h with
  | intro hopener => exact ⟨_, _, rfl, passed_opening hopener⟩

theorem length_of_bracketed {bracket : Bracket}
    (h : Bracketed bracket inner tokens) :
    tokens.length = inner.length + 2 := by
  cases h
  simp

theorem isUnit_paren (h : Bracketed .paren inner tokens)
    (hinner : Nested top inner) :
    IsUnit tokens where
  nested := h.nested hinner
  head := head_of_bracketed h
  unitLength_append := by
    intro rest hfollows
    obtain ⟨closer, hparen⟩ := h.exists_ofBracket?_append hinner rest
    have hliteral : FunctionLiteral.ofTokens? (tokens ++ rest) = none := by
      rw [FunctionLiteral.ofTokens?, hparen]
      cases rest with
      | nil => rfl
      | cons token rest => simp [hfollows token rfl]
    have hsquare :=
      h.ofBracket?_append_of_ne (by simp : Bracket.paren ≠ .square) rest
    simp [unitLength, hliteral, hsquare, hparen, length_of_bracketed h]

theorem isUnit_square (h : Bracketed .square inner tokens)
    (hinner : Nested top inner) :
    IsUnit tokens where
  nested := h.nested hinner
  head := head_of_bracketed h
  unitLength_append := by
    intro rest _
    obtain ⟨closer, hsquare⟩ := h.exists_ofBracket?_append hinner rest
    have hliteral : FunctionLiteral.ofTokens? (tokens ++ rest) = none := by
      rw [FunctionLiteral.ofTokens?, h.ofBracket?_append_of_ne (by simp) rest]
      rfl
    simp [unitLength, hliteral, hsquare, length_of_bracketed h]

theorem isUnit_function {literal : FunctionLiteral}
    {first second third : Kind → Prop} (h : literal.Spans tokens)
    (hend : literal.rest = []) (harguments : Nested first literal.arguments)
    (hreturns : ∀ returns ∈ literal.returns?, Nested second returns)
    (hbody : Nested third literal.body) :
    IsUnit tokens where
  nested := h.nested hend ⟨rfl, rfl, by simp, by simp⟩ harguments hreturns hbody
  head := by
    obtain ⟨opener, others, htokens, hopener⟩ := h.exists_head
    exact ⟨opener, others, htokens, passed_opening hopener⟩
  unitLength_append := by
    intro rest _
    obtain ⟨found, hfound, hrest⟩ :=
      h.exists_ofTokens?_append hend harguments hreturns hbody rest
    simp [unitLength, hfound, hrest]

/-! ## Pieces -/

/-- A unit joins the piece before it, or begins a new one. -/
theorem piecesFrom_append_unit {unit : List Token} (h : IsUnit unit) (joined : Bool)
    (piece : List Token) {rest : List Token} (hrest : Follows rest) :
    piecesFrom joined piece (unit ++ rest) =
      if joined then piecesFrom false (piece ++ unit) rest
      else piece :: piecesFrom false unit rest := by
  have hlength := h.unitLength_append rest hrest
  obtain ⟨first, others, rfl, ⟨hoperator, htakes⟩, -⟩ := h.head
  rw [List.cons_append] at hlength ⊢
  rw [piecesFrom, if_neg (by simp [hoperator]), if_neg (by simp [htakes])]
  simp [hlength]

end Juxtaposed

end ExprLang
