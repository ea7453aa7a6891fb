import ExprLang.Proofs.Tree.ReadBack

/-!
# Printed trees are scanned

The text of a printable tree gives the tokens of the tree.
-/

namespace ExprLang

open Lexeme

/-! ## Separators -/

private theorem Comma.join_eq_intercalate (line : Nat)
    (windows : List (List Token)) :
    Comma.join line windows = [Token.ofKind .comma line].intercalate windows := by
  induction windows with
  | nil => rfl
  | cons window windows ih =>
      cases windows with
      | nil => simp [Comma.join]
      | cons other windows => simp [Comma.join_cons_cons, ih]

private theorem intercalate_nil_eq_flatten (windows : List (List Token)) :
    ([] : List Token).intercalate windows = windows.flatten := by
  induction windows with
  | nil => rfl
  | cons window windows ih =>
      cases windows with
      | nil => simp
      | cons other windows =>
          rw [List.intercalate_cons_cons, ih, List.append_nil,
            List.flatten_cons (l := window)]

namespace Reads

variable {α : Type} {line : Nat} {text : α → String} {tokens : α → List Token}
    {items : List α} {rest : List Char}

private theorem comma (line : Nat) (rest : List Char) :
    Reads line ", " [.ofKind .comma line] rest :=
  (solitary .comma rfl line _).append (.blank line rest)

theorem commas
    (h : ∀ item ∈ items,
      ∀ rest, Ends rest → Reads line (text item) (tokens item) rest)
    (hrest : Ends rest) :
    Reads line (", ".intercalate (items.map text))
      (Comma.join line (items.map tokens)) rest := by
  rw [Comma.join_eq_intercalate]
  exact intercalate (comma line) (ends_append ", " rfl) h hrest

private theorem blanks
    (h : ∀ item ∈ items,
      ∀ rest, Ends rest → Reads line (text item) (tokens item) rest)
    (hrest : Ends rest) :
    Reads line (" ".intercalate (items.map text))
      (items.map tokens).flatten rest := by
  rw [← intercalate_nil_eq_flatten]
  exact intercalate (blank line) (ends_append " " rfl) h hrest

theorem openingParen (line : Nat) (rest : List Char) :
    Reads line "(" [.ofKind (.opening .paren) line] rest :=
  solitary (.opening .paren) rfl line rest

theorem closingParen (line : Nat) (rest : List Char) :
    Reads line ")" [.ofKind (.closing .paren) line] rest :=
  solitary (.closing .paren) rfl line rest

theorem keyword (kind : Kind) (hword : isWord kind.spelling.toList = true)
    (hkeyword : keyword? kind.spelling.toList = some kind) (hrest : Ends rest)
    (line : Nat) :
    Reads line kind.spelling [.ofKind kind line] rest := by
  have hreads := word hword hrest line
  rwa [hkeyword] at hreads

theorem arrow (line : Nat) (rest : List Char) :
    Reads line " -> " [.ofKind .arrow line] rest :=
  ((blank line _).append (solitary .arrow rfl line _)).append (blank line rest)

end Reads

/-! ## Types and variables -/

namespace Ty

private theorem renderAll_eq_map (types : List Ty) :
    renderAll types = types.map render := by
  induction types with
  | nil => rfl
  | cons type types ih => simp [renderAll, ih]

private theorem tokensAll_eq_map (line : Nat) (types : List Ty) :
    tokensAll line types = types.map (tokens line) := by
  induction types with
  | nil => rfl
  | cons type types ih => simp [tokensAll, ih]

theorem reads_renderList {line : Nat} {types : List Ty} {rest : List Char}
    (h : ∀ type ∈ types,
      ∀ rest, Ends rest → Reads line type.render (type.tokens line) rest)
    (hrest : Ends rest) :
    Reads line (renderList types)
      (Comma.join line (tokensAll line types)) rest := by
  rw [renderList, renderAll_eq_map, tokensAll_eq_map]
  exact Reads.commas h hrest

mutual

theorem reads_render (line : Nat) :
    (type : Ty) → type.hasHole = false →
      ∀ rest, Ends rest →
        Reads line type.render (type.tokens line) rest
  | .primitive base, _, rest, hrest => by
      cases base <;> exact .word (by decide) hrest line
  | .hole _, h, _, _ => by simp [hasHole] at h
  | .array element, h, rest, hrest =>
      (Reads.solitary .arrayMark rfl line _).append
        (element.reads_render line h rest hrest)
  | .function arguments returns _, h, rest, hrest => by
      simp only [hasHole, Bool.or_eq_false_iff] at h
      have hreturns : Reads line (renderList returns)
          (Comma.join line (tokensAll line returns)) (")".toList ++ rest) :=
        reads_renderList (reads_render_of_mem line returns h.2)
          (ends_append ")" rfl rest)
      have hmiddle (after : List Char) : Reads line ") -> ("
          [.ofKind (.closing .paren) line, .ofKind .arrow line,
            .ofKind (.opening .paren) line] after :=
        ((Reads.closingParen line _).append (.arrow line _)).append
          (.openingParen line after)
      have harguments (after : List Char) : Reads line (renderList arguments)
          (Comma.join line (tokensAll line arguments)) (") -> (".toList ++ after) :=
        reads_renderList (reads_render_of_mem line arguments h.1)
          (ends_append ") -> (" rfl after)
      have hreads := ((((Reads.openingParen line _).append (harguments _)).append
        (hmiddle _)).append hreturns).append (.closingParen line rest)
      exact hreads.of_eq (by simp [tokens])

theorem reads_render_of_mem (line : Nat) :
    (types : List Ty) → anyHasHole types = false →
      ∀ type ∈ types,
        ∀ rest, Ends rest → Reads line type.render (type.tokens line) rest
  | [], _, type, htype => by simp at htype
  | first :: types, h, type, htype => by
      simp only [anyHasHole, Bool.or_eq_false_iff] at h
      rcases List.mem_cons.1 htype with hfirst | htype
      · exact hfirst ▸ first.reads_render line h.1
      · exact reads_render_of_mem line types h.2 type htype

end

private theorem reads_returns {returns : List Ty} (returnsOmitted : Bool)
    (h : anyHasHole returns = false) (line : Nat) (rest : List Char) :
    Reads line (if returnsOmitted then "" else "(" ++ renderList returns ++ ") ")
      ((if returnsOmitted then none
        else some (Comma.join line (tokensAll line returns))).elim [] fun window =>
        .ofKind (.opening .paren) line ::
          (window ++ [.ofKind (.closing .paren) line])) rest := by
  cases returnsOmitted with
  | true => exact .empty line rest
  | false =>
      have hreturns := reads_renderList (reads_render_of_mem line returns h)
        (ends_append ") " rfl rest)
      have hcloser : Reads line ") " [.ofKind (.closing .paren) line] rest :=
        (Reads.closingParen line _).append (.blank line rest)
      exact ((Reads.openingParen line _).append hreturns).append hcloser

end Ty

namespace Variable

private theorem reads_print {target : Variable} (h : target.Printable) (line : Nat)
    (rest : List Char) (hrest : Ends rest) :
    Reads line target.print (target.tokens line) rest := by
  obtain ⟨hname, hconcrete⟩ := h
  cases htype : target.type? with
  | none =>
      simp only [print, tokens, htype]
      exact .name hname hrest line
  | some type =>
      have htypeReads := type.reads_render line (hconcrete type htype) rest hrest
      simp only [print, tokens, htype]
      exact ((Reads.name hname (ends_append " " rfl _) line).append
        (.blank line _)).append htypeReads

theorem reads_printList {targets : List Variable}
    (h : ∀ target ∈ targets, target.Printable) (line : Nat) {rest : List Char}
    (hrest : Ends rest) :
    Reads line (printList targets)
      (Comma.join line (targets.map (Variable.tokens line))) rest :=
  Reads.commas (fun target htarget => reads_print (h target htarget) line) hrest

end Variable

/-! ## Expressions and statements -/

theorem Expr.printAll_eq_map (expressions : List Expr) :
    Expr.printAll expressions = expressions.map Expr.print := by
  induction expressions with
  | nil => rfl
  | cons expression expressions ih => simp [Expr.printAll, ih]

/-- Neither a comparison mark nor a closing bracket begins the text. -/
def Opens (characters : List Char) : Prop :=
  ∃ character tail,
    characters = character :: tail ∧ character ≠ '=' ∧ character ≠ ']'

theorem Opens.append {characters : List Char} (h : Opens characters)
    (rest : List Char) :
    Opens (characters ++ rest) := by
  obtain ⟨character, tail, rfl, hne⟩ := h
  exact ⟨character, tail ++ rest, rfl, hne⟩

theorem Opens.head?_ne {characters : List Char} (h : Opens characters) :
    characters.head? ≠ some '=' ∧ characters.head? ≠ some ']' := by
  obtain ⟨character, tail, rfl, hequal, hsquare⟩ := h
  simp [hequal, hsquare]

theorem Opens.intercalate {first : String} (h : Opens first.toList)
    (separator : String) (others : List String) :
    Opens (separator.intercalate (first :: others)).toList := by
  cases others with
  | nil => simpa using h
  | cons other others =>
      simp only [String.intercalate_cons_cons, String.toList_append]
      exact (h.append _).append _

private theorem Expr.opens_print {expression : Expr} (h : expression.Printable) :
    Opens expression.print.toList := by
  cases expression with
  | reference target =>
      have hword := h.1.isWord.1
      rw [Expr.print]
      cases hname : target.name.toList with
      | nil => simp [hname, isWord] at hword
      | cons character tail =>
          simp only [hname, isWord, Bool.and_eq_true] at hword
          refine ⟨character, tail, rfl, ?_, ?_⟩ <;> rintro rfl <;>
            exact absurd hword.1.1 (by decide)
  | int value =>
      have hdigits := Number.all_isDigit_toDigits value.toInt.natAbs
      rw [Expr.print, printInteger, if_neg (Int.not_lt.2 h), Nat.toList_repr]
      cases htext : Nat.toDigits 10 value.toInt.natAbs with
      | nil => exact absurd htext Nat.toDigits_ne_nil
      | cons digit digits =>
          have hdigit := hdigits digit (by simp [htext])
          refine ⟨digit, digits, rfl, ?_, ?_⟩ <;> rintro rfl <;>
            exact absurd hdigit (by decide)
  | float value => exact h.elim
  | bool value => cases value <;> exact ⟨_, _, rfl, by decide, by decide⟩
  | string value | operator op operandType? left right
  | apply callee arguments returns | array elementType? elements
  | conditional condition thenBranch elseBranch returns
  | function arguments returns returnsOmitted body signature? =>
      simp only [Expr.print, String.toList_append]
      exact ⟨_, _, rfl, by decide, by decide⟩

/-- Whatever ends the text, it is scanned as the tokens of the expression. -/
def Expr.Scanned (line : Nat) (expression : Expr) : Prop :=
  ∀ rest, Ends rest → Reads line expression.print (expression.tokens line) rest

def Statement.Scanned (line : Nat) (statement : Statement) : Prop :=
  ∀ rest, Ends rest → Reads line statement.print (statement.tokens line) rest

namespace Expr

variable {line : Nat}

private theorem scanned_operator {left right : Expr} (op : Operator)
    (operandType? : Option Ty) (hleft : left.Scanned line)
    (hright : right.Scanned line) :
    (Expr.operator op operandType? left right).Scanned line := by
  intro rest _
  have hreads := ((((((Reads.openingParen line _).append (hleft _
    (ends_append " " rfl _))).append (.blank line _)).append (.operator op line
    _)).append (.blank line _)).append (hright _ (ends_append ")" rfl _))).append
    (.closingParen line rest)
  exact hreads.of_eq (by simp [tokens, parenTokens])

private theorem scanned_apply {callee : Expr} {arguments : List Expr}
    (returns : List Ty) (hopens : Opens callee.print.toList)
    (h : ∀ unit ∈ callee :: arguments, unit.Scanned line) :
    (Expr.apply callee arguments returns).Scanned line := by
  intro rest _
  have hunits := Reads.blanks h (ends_append ")" rfl rest)
  have hhead := ((hopens.intercalate " " (arguments.map print)).append
    (")".toList ++ rest)).head?_ne.1
  have hmarks := (Reads.openingParen line _).append (.bang hhead line)
  have hreads := (hmarks.append hunits).append (.closingParen line rest)
  rw [print, printAll_eq_map, tokens, tokensAll_eq_map]
  exact hreads.of_eq (by simp [parenTokens])

private theorem scanned_conditional {condition thenBranch elseBranch : Expr}
    (returns : List Ty) (hcondition : condition.Scanned line)
    (hthen : thenBranch.Scanned line) (helse : elseBranch.Scanned line) :
    (Expr.conditional condition thenBranch elseBranch returns).Scanned line := by
  intro rest _
  have hif (after : List Char) : Reads line "(if "
      [.ofKind (.opening .paren) line, .ofKind .ifWord line] after :=
    ((Reads.openingParen line _).append (.keyword .ifWord rfl rfl
      (ends_append " " rfl after) line)).append (.blank line after)
  have helseWord (after : List Char) :
      Reads line " else " [.ofKind .elseWord line] after :=
    ((Reads.blank line _).append (.keyword .elseWord rfl rfl
      (ends_append " " rfl after) line)).append (.blank line after)
  have hreads := ((((((hif _).append (hcondition _ (ends_append " " rfl _))).append
    (.blank line _)).append (hthen _ (ends_append " else " rfl _))).append
    (helseWord _)).append (helse _ (ends_append ")" rfl rest))).append
    (.closingParen line rest)
  exact hreads.of_eq (by simp [tokens, parenTokens])

private theorem scanned_array {elements : List Expr} (elementType? : Option Ty)
    (hopens : ∀ element ∈ elements, Opens element.print.toList)
    (h : ∀ element ∈ elements, element.Scanned line) :
    (Expr.array elementType? elements).Scanned line := by
  intro rest _
  cases elements with
  | nil => exact .solitary .arrayMark rfl line rest
  | cons element elements =>
      have helements := Reads.commas h (ends_append "]" rfl rest)
      have hopensAll :=
        (hopens element List.mem_cons_self).intercalate ", " (elements.map print)
      have hhead := (hopensAll.append ("]".toList ++ rest)).head?_ne.2
      have hreads := ((Reads.openingSquare hhead line).append helements).append
        (.solitary (.closing .square) rfl line rest)
      rw [print, printAll_eq_map, tokens, tokensAll_eq_map]
      exact hreads.of_eq (by simp [arrayTokens])

private theorem scanned_function {arguments : List Variable} {returns : List Ty}
    {returnsOmitted : Bool} {body : List Statement} (signature? : Option Signature)
    (harguments : ∀ argument ∈ arguments, argument.Printable)
    (hreturns : Ty.anyHasHole returns = false) (hbody : Form.OneLine body)
    (h : ∀ statement ∈ body, statement.Scanned line) :
    (Expr.function arguments returns returnsOmitted body signature?).Scanned
      line := by
  intro rest _
  have harrow (after : List Char) : Reads line ") -> "
      [.ofKind (.closing .paren) line, .ofKind .arrow line] after :=
    (Reads.closingParen line _).append (.arrow line after)
  have hleft (after : List Char) :=
    ((Reads.openingParen line _).append (Variable.reads_printList harguments line
      (ends_append ") -> " rfl after))).append (harrow after)
  have hopener (after : List Char) :
      Reads line "\x7b " [.ofKind (.opening .brace) line] after :=
    (Reads.solitary (.opening .brace) rfl line _).append (.blank line after)
  have hcloser : Reads line " \x7d" [.ofKind (.closing .brace) line] rest :=
    (Reads.blank line _).append (.solitary (.closing .brace) rfl line rest)
  have hbodyText : Reads line ("; ".intercalate (Statement.printAll body))
      (Statement.tokensAll line body).flatten (" \x7d".toList ++ rest) := by
    rcases hbody with rfl | ⟨expressions, valueLine, rfl⟩
    · exact .empty line _
    · simpa [Statement.printAll, Statement.tokensAll] using
        h _ List.mem_cons_self _ (ends_append " \x7d" rfl rest)
  have hreads := ((((hleft _).append (Ty.reads_returns returnsOmitted hreturns line
    _)).append (hopener _)).append hbodyText).append hcloser
  exact hreads.of_eq (by simp [tokens, FunctionLiteral.tokens])

end Expr

namespace Statement

variable {line : Nat}

private theorem scanned_assign {targets : List Variable} {value : Expr}
    (valueLine : Nat) (htargets : ∀ target ∈ targets, target.Printable)
    (hvalue : value.Scanned line) :
    (Statement.assign targets value valueLine).Scanned line := by
  intro rest hrest
  have hsign (after : List Char) :
      Reads line " = " [.ofKind .assign line] after := by
    have hequal : Reads line "=" [.ofKind .assign line] (" ".toList ++ after) :=
      .assign line after
    exact ((Reads.blank line _).append hequal).append (.blank line after)
  have hleft := Variable.reads_printList htargets line
    (ends_append " = " rfl (value.print.toList ++ rest))
  exact ((hleft.append (hsign _)).append (hvalue rest hrest)).of_eq
    (by simp [tokens])

private theorem scanned_result {expressions : List Expr} (valueLine : Nat)
    (h : ∀ expression ∈ expressions, expression.Scanned line) :
    (Statement.result expressions valueLine).Scanned line := by
  intro rest hrest
  have hreturn (after : List Char) :
      Reads line "return " [.ofKind .returnWord line] after :=
    (Reads.keyword .returnWord rfl rfl (ends_append " " rfl after) line).append
      (.blank line after)
  rw [print, Expr.printAll_eq_map, tokens, Expr.tokensAll_eq_map]
  exact (hreturn _).append (Reads.commas h hrest)

end Statement

mutual

theorem Expr.scanned_of_printable (line : Nat) :
    (expression : Expr) → expression.Printable →
      expression.Scanned line
  | .reference target, h => fun _ hrest => .name h.1 hrest line
  | .int value, h => by
      intro rest hrest
      rw [Expr.print, Expr.tokens, printInteger, if_neg (Int.not_lt.2 h)]
      exact .natural _ hrest line
  | .float _, h => h.elim
  | .string value, h => fun rest _ => .string h line rest
  | .bool value, _ => by
      intro rest hrest
      cases value <;> exact .word (by decide) hrest line
  | .operator op operandType? left right, h =>
      Expr.scanned_operator op operandType? (left.scanned_of_printable line h.1)
        (right.scanned_of_printable line h.2.1)
  | .apply callee arguments returns, h => by
      refine Expr.scanned_apply returns (Expr.opens_print h.1) ?_
      intro unit hunit
      rcases List.mem_cons.1 hunit with hcallee | hunit
      · exact hcallee ▸ callee.scanned_of_printable line h.1
      · exact Expr.scanned_of_allPrintable line arguments h.2.1 unit hunit
  | .conditional condition thenBranch elseBranch returns, h =>
      Expr.scanned_conditional returns (condition.scanned_of_printable line h.1)
        (thenBranch.scanned_of_printable line h.2.1)
        (elseBranch.scanned_of_printable line h.2.2.1)
  | .array elementType? elements, h =>
      Expr.scanned_array elementType?
        (fun element helement =>
          Expr.opens_print (Expr.allPrintable_iff.1 h.1 element helement))
        (Expr.scanned_of_allPrintable line elements h.1)
  | .function arguments returns returnsOmitted body signature?, h =>
      Expr.scanned_function signature? h.1 h.2.1 h.2.2.2.1
        (Statement.scanned_of_allPrintable line body h.2.2.2.2.1)

theorem Expr.scanned_of_allPrintable (line : Nat) :
    (expressions : List Expr) → Expr.AllPrintable expressions →
      ∀ expression ∈ expressions, expression.Scanned line
  | [], _, expression, hexpression => by simp at hexpression
  | first :: expressions, h, expression, hexpression => by
      rcases List.mem_cons.1 hexpression with hfirst | hexpression
      · exact hfirst ▸ first.scanned_of_printable line h.1
      · exact Expr.scanned_of_allPrintable line expressions h.2 expression
          hexpression

theorem Statement.scanned_of_printable (line : Nat) :
    (statement : Statement) → statement.Printable →
      statement.Scanned line
  | .assign _ value valueLine, h =>
      Statement.scanned_assign valueLine h.2.1
        (value.scanned_of_printable line h.2.2)
  | .result expressions valueLine, h =>
      Statement.scanned_result valueLine
        (Expr.scanned_of_allPrintable line expressions h)

theorem Statement.scanned_of_allPrintable (line : Nat) :
    (statements : List Statement) →
      Statement.AllPrintable statements →
      ∀ statement ∈ statements, statement.Scanned line
  | [], _, statement, hstatement => by simp at hstatement
  | first :: statements, h, statement, hstatement => by
      rcases List.mem_cons.1 hstatement with hfirst | hstatement
      · exact hfirst ▸ first.scanned_of_printable line h.1
      · exact Statement.scanned_of_allPrintable line statements h.2 statement
          hstatement

end

end ExprLang
