import ExprLang.Proofs.Window.Phrase
import ExprLang.Tree.Form

/-!
# Forms of phrases

How a window is taken apart that is put together from phrases: a group in
parentheses, two operands with an operator between them, an application or a
conditional.
-/

namespace ExprLang

open Juxtaposed

private theorem Depth.uneven?_eq_none_iff {depth : Depth} :
    depth.uneven? = none ↔ depth = .zero := by
  obtain ⟨paren, brace, square⟩ := depth
  simp only [uneven?, zero, Depth.mk.injEq]
  split
  · simp_all
  · split
    · simp_all
    · split <;> simp_all

namespace Form

theorem checkBalance_eq_ok_iff {tokens : List Token} :
    checkBalance tokens = .ok () ↔ Depth.zero.after tokens = .zero := by
  rw [← Depth.uneven?_eq_none_iff, checkBalance]
  split <;> simp_all

theorem ofWindow_single {token : Token} (h : token.kind.isBracket = false)
    (line : Nat) :
    ofWindow ⟨[token], line⟩ = ofToken token := by
  have hbalance : checkBalance [token] = .ok () :=
    checkBalance_eq_ok_iff.2 (Depth.zero.step_of_not_bracket h)
  simp [ofWindow, hbalance, bind, Except.bind]

theorem ofWindow_cons {first : Token} {rest : List Token}
    (h : Depth.zero.after (first :: rest) = .zero) (hrest : rest ≠ [])
    (line : Nat) :
    ofWindow ⟨first :: rest, line⟩ =
      if first.kind = .bang then ofApplication first.line rest
      else if first.kind = .ifWord then ofConditional first.line rest
        else ofSpan first (first :: rest) := by
  simp [ofWindow, checkBalance_eq_ok_iff.2 h, hrest, bind, Except.bind]

theorem ofWindow_span {first : Token} {rest : List Token}
    (h : Depth.zero.after (first :: rest) = .zero) (hrest : rest ≠ [])
    (hfirst : first.kind.takesRest = false) (line : Nat) :
    ofWindow ⟨first :: rest, line⟩ = ofSpan first (first :: rest) := by
  have hbang : first.kind ≠ .bang := by
    intro hkind
    simp [hkind, Kind.takesRest] at hfirst
  have hif : first.kind ≠ .ifWord := by
    intro hkind
    simp [hkind, Kind.takesRest] at hfirst
  rw [ofWindow_cons h hrest, if_neg hbang, if_neg hif]

theorem ofWindow_paren {opener closer : Token} {inner : List Token}
    {top : Kind → Prop} (hopener : opener.kind = .opening .paren)
    (hcloser : closer.kind = .closing .paren) (h : Nested top inner) (line : Nat) :
    ofWindow ⟨opener :: (inner ++ [closer]), line⟩ =
      .ok (.group ⟨inner, opener.line⟩) := by
  have hunit := isUnit_paren (.intro hopener hcloser) h
  have hoperator := hunit.atOperator?_eq_none
  have hparen := Enclosed.ofBracket?_of_nested h hopener hcloser []
  have hliteral :
      FunctionLiteral.ofTokens? (opener :: (inner ++ [closer])) = none := by
    rw [FunctionLiteral.ofTokens?, hparen]
    rfl
  rw [ofWindow_span (hunit.nested.after_eq _) (by simp) (by rw [hopener]; rfl),
    ofSpan, hoperator, hliteral, hparen]
  rfl

theorem ofWindow_operator {left right : List Token} {sign : Token} {op : Operator}
    (hnonempty : left ≠ []) (hbalanced : Depth.zero.after left = .zero)
    (hright : Depth.zero.after right = .zero) (hclosed : Closed left)
    (hsign : sign.kind = .operator op)
    (hlooser : ∀ other ∈ operators (topLevel left), op.tier.rank ≤ other.tier.rank)
    (htighter : ∀ other ∈ operators (leading right), op.tier.rank < other.tier.rank)
    (line : Nat) :
    ofWindow ⟨left ++ sign :: right, line⟩ =
      .ok (.operator op ⟨left, sign.line⟩ ⟨right, sign.line⟩) := by
  have hsplit := Split.atOperator?_append hbalanced hclosed hsign hlooser htighter
  have heven : Depth.zero.after (left ++ sign :: right) = .zero := by
    have hstep : Depth.zero.step (.operator op) = .zero := rfl
    rw [Depth.after_append, hbalanced, Depth.after_cons, hsign, hstep, hright]
  obtain ⟨first, rest, rfl⟩ := List.exists_cons_of_ne_nil hnonempty
  rw [List.cons_append] at hsplit heven ⊢
  rw [ofWindow_span heven (by simp) hclosed.head, ofSpan, hsplit]
  simp [ofOperator, hsign, Kind.operator?]

theorem ofWindow_application {mark : Token} {callee : List Token}
    {arguments : List (List Token)} (hmark : mark.kind = .bang)
    (h : ∀ part ∈ callee :: arguments, Phrase part)
    (hclosed : ∀ part ∈ (callee :: arguments).dropLast, Closed part) (line : Nat) :
    ofWindow ⟨mark :: (callee :: arguments).flatten, line⟩ =
      .ok (.apply ⟨callee, mark.line⟩ (arguments.map (⟨·, mark.line⟩))) := by
  have hpieces := pieces_flatten (List.cons_ne_nil callee arguments) h hclosed
  have hnested := (Phrase.application hmark h).nested
  have hnonempty : (callee :: arguments).flatten ≠ [] := by
    obtain ⟨first, rest, rfl, -⟩ := (h callee List.mem_cons_self).exists_head
    simp
  rw [ofWindow_cons (hnested.after_eq _) hnonempty, if_pos hmark, ofApplication,
    if_neg (mt List.isEmpty_iff.1 hnonempty), hpieces]

theorem ofWindow_conditional {word other : Token}
    {condition thenBranch elseBranch : List Token} (hword : word.kind = .ifWord)
    (hother : other.kind = .elseWord) (hcondition : Phrase condition)
    (hclosed : Closed condition) (hthen : Phrase thenBranch)
    (helse : Phrase elseBranch) (line : Nat) :
    ofWindow ⟨word :: (condition ++ thenBranch ++ other :: elseBranch), line⟩ =
      .ok (.conditional ⟨condition, word.line⟩ ⟨thenBranch, word.line⟩
        ⟨elseBranch, other.line⟩) := by
  have hsplit := Split.atElse?_of_settled
    ((Split.settled_phrase hcondition).append (Split.settled_phrase hthen)) hother
    elseBranch
  have hpieces : pieces (condition ++ thenBranch) = [condition, thenBranch] := by
    simpa using pieces_flatten (List.cons_ne_nil condition [thenBranch])
      (by simp [hcondition, hthen]) (by simp [hclosed])
  have hnested := (Phrase.conditional hword hcondition hthen hother helse).nested
  rw [ofWindow_cons (hnested.after_eq _) (by simp), if_neg (by simp [hword]),
    if_pos hword, ofConditional, hsplit]
  simp only [hpieces]

end Form

end ExprLang
