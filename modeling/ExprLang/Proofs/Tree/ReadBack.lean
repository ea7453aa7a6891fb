import ExprLang.Proofs.Token.Scan
import ExprLang.Proofs.Tree.Drafts
import ExprLang.Proofs.Tree.Forms
import ExprLang.Tree.Parser

/-!
# Tokens of trees are read back

The tokens of a tree, read as a window, give the tree again.
-/

namespace ExprLang

open Juxtaposed

/-! ## Forms -/

namespace Form

private theorem ofWindow_operator_of_units {left right : List Token}
    (hleft : IsUnit left) (hright : IsUnit right) (op : Operator)
    (line windowLine : Nat) :
    ofWindow ⟨left ++ .ofKind (.operator op) line :: right, windowLine⟩ =
      .ok (.operator op ⟨left, line⟩ ⟨right, line⟩) := by
  have hnonempty : left ≠ [] := by
    obtain ⟨first, rest, rfl, -⟩ := hleft.head
    simp
  exact ofWindow_operator hnonempty (hleft.nested.after_eq _)
    (hright.nested.after_eq _) hleft.closed (Token.kind_ofKind (.operator op) line)
    (by simp [hleft.operators_topLevel])
    (by simp [hright.operators_leading]) windowLine

private theorem ofWindow_application_of_units {callee : List Token}
    {arguments : List (List Token)} (h : ∀ unit ∈ callee :: arguments, IsUnit unit)
    (line windowLine : Nat) :
    ofWindow ⟨.ofKind .bang line :: (callee :: arguments).flatten, windowLine⟩ =
      .ok (.apply ⟨callee, line⟩ (arguments.map (⟨·, line⟩))) :=
  ofWindow_application (Token.kind_ofKind .bang line)
    (fun unit hunit => .unit (h unit hunit))
    (fun unit hunit =>
      (h unit ((List.dropLast_sublist _).subset hunit)).closed) windowLine

private theorem ofWindow_conditional_of_units
    {condition thenBranch elseBranch : List Token} (hcondition : IsUnit condition)
    (hthen : IsUnit thenBranch) (helse : IsUnit elseBranch)
    (line windowLine : Nat) :
    ofWindow ⟨.ofKind .ifWord line ::
        ([condition, thenBranch].flatten ++ .ofKind .elseWord line :: elseBranch),
        windowLine⟩ =
      .ok (.conditional ⟨condition, line⟩ ⟨thenBranch, line⟩
        ⟨elseBranch, line⟩) := by
  have hform := ofWindow_conditional (Token.kind_ofKind .ifWord line)
    (Token.kind_ofKind .elseWord line) (.unit hcondition) hcondition.closed
    (.unit hthen) (.unit helse) windowLine
  simpa using hform

private theorem ofWindow_array {elements : List (List Token)}
    (h : ∀ element ∈ elements, IsUnit element) (hnonempty : elements ≠ [])
    (line windowLine : Nat) :
    ofWindow ⟨arrayTokens line elements, windowLine⟩ =
      .ok (.array (elements.map (⟨·, line⟩))) := by
  obtain ⟨element, others, rfl⟩ := List.exists_cons_of_ne_nil hnonempty
  have hnested := nested_join_of_units line h
  have hunit : IsUnit (arrayTokens line (element :: others)) :=
    isUnit_square (.intro rfl rfl) hnested
  have hoperator := hunit.atOperator?_eq_none
  have hsquare := Enclosed.ofBracket?_ofKind hnested .square line []
  have hitems := Comma.items_join_of_units line h
  have hliteral := FunctionLiteral.ofTokens?_of_head_ne
    (show (Token.ofKind (.opening .square) line).kind ≠ .opening .paren by simp)
    (Comma.join line (element :: others) ++ [.ofKind (.closing .square) line])
  have hparen := Enclosed.ofBracket?_of_head_ne
    (show (Token.ofKind (.opening .square) line).kind ≠ .opening .paren by simp)
    (Comma.join line (element :: others) ++ [.ofKind (.closing .square) line])
  rw [arrayTokens] at hunit hoperator ⊢
  rw [ofWindow_span (hunit.nested.after_eq _) (by simp) rfl, ofSpan, hoperator,
    hliteral, hparen, hsquare]
  show Except.ok
      (array ((Comma.items (Comma.join line (element :: others))).map (⟨·,
        line⟩))) = _
  rw [hitems]

/-- A body is read as one line when it is empty or one return statement. -/
def OneLine (body : List Statement) : Prop :=
  body = [] ∨ ∃ expressions line, body = [.result expressions line]

instance : (body : List Statement) → Decidable (OneLine body)
  | [] => isTrue (.inl rfl)
  | [.result _ _] => isTrue (.inr ⟨_, _, rfl⟩)
  | [.assign _ _ _] => isFalse (by simp [OneLine])
  | _ :: _ :: _ => isFalse (by simp [OneLine])

private theorem takeWhile_of_all_isOrdinary {tokens : List Token}
    (h : tokens.all Token.isOrdinary = true) :
    tokens.takeWhile (·.kind ≠ .eof) = tokens := by
  have hall : ∀ token ∈ tokens, decide (token.kind ≠ .eof) = true := by
    intro token htoken
    have hordinary := List.all_eq_true.1 h token htoken
    simp only [Token.isOrdinary, Bool.and_eq_true] at hordinary
    exact hordinary.2
  have hself : (tokens ++ []).takeWhile (fun token =>
        decide (token.kind ≠ Kind.eof)) = tokens ++ [] :=
    List.takeWhile_append_of_pos hall
  rwa [List.append_nil] at hself

private theorem ofStream_bodyTokens {body : List Statement} (h : OneLine body)
    (line endLine : Nat) :
    Drafts.ofStream
        (Listed.mk (bodyTokens (Statement.tokensAll line body).flatten) endLine) =
      ⟨Statement.draftsFrom line body, none⟩ := by
  have htokens : bodyTokens (Statement.tokensAll line body).flatten =
      Statement.linesFrom line body := by
    rcases h with rfl | ⟨expressions, valueLine, rfl⟩
    · rfl
    · simp [Statement.tokensAll, Statement.linesFrom, Statement.tokens, bodyTokens]
  have hassigning : ∀ statement ∈ body, statement.Assigning := by
    rcases h with rfl | ⟨expressions, valueLine, rfl⟩ <;> simp [Statement.Assigning]
  have hordinary : (Statement.linesFrom line body).all Token.isOrdinary = true := by
    rcases h with rfl | ⟨expressions, valueLine, rfl⟩
    · rfl
    · exact Statement.all_isOrdinary_tokens line _
  rw [htokens, Drafts.ofStream, Listed.tokens_eq_takeWhile,
    takeWhile_of_all_isOrdinary hordinary, Drafts.ofTokens_linesFrom _ hassigning]

private theorem any_newline_eq_false {tokens : List Token}
    (h : tokens.all Token.isOrdinary = true) :
    tokens.any (·.kind = .newline) = false := by
  rw [List.any_eq_false]
  intro token htoken
  have hordinary := List.all_eq_true.1 h token htoken
  simp only [Token.isOrdinary, Bool.and_eq_true] at hordinary
  simpa using hordinary.1.1

private theorem ofWindow_function {arguments : List Variable} {returns : List Ty}
    {returnsOmitted : Bool} {body : List Statement}
    (harguments : ∀ argument ∈ arguments, argument.Concrete)
    (hreturns : Ty.anyHasHole returns = false)
    (homitted : returnsOmitted = true → returns = []) (hbody : OneLine body)
    (line windowLine : Nat) (signature? : Option Signature) :
    ofWindow ⟨(Expr.function arguments returns returnsOmitted body
        signature?).tokens line,
        windowLine⟩ =
      .ok (.function (arguments.map Variable.plain) (Ty.plainAll returns)
        returnsOmitted ⟨Statement.draftsFrom line body, none⟩) := by
  have hunit := Expr.isUnit_tokens line
    (.function arguments returns returnsOmitted body signature?)
  have hoperator := hunit.atOperator?_eq_none
  have hliteral := FunctionLiteral.ofTokens?_tokens line
    (Variable.nested_join_tokens line arguments)
    (nested_of_mem_returns line returns returnsOmitted)
    (nested_flatten (Statement.nested_of_mem_tokensAll line body)) []
  have hnewline := Statement.all_isOrdinary_tokensAll line body
  rw [← List.all_flatten] at hnewline
  have hvariables := VariableList.read_tokens line harguments
  have hdrafts := ofStream_bodyTokens hbody line line
  rw [List.append_nil] at hliteral
  rw [Expr.tokens] at hunit hoperator ⊢
  rw [FunctionLiteral.tokens] at hunit hoperator hliteral ⊢
  have hcut := FunctionLiteral.cut_of_ofTokens? hliteral
  rw [ofWindow_span (hunit.nested.after_eq _) (by simp) rfl, ofSpan, hoperator,
    hliteral, hcut]
  show ofFunction line _ = _
  cases returnsOmitted with
  | true =>
      obtain rfl := homitted rfl
      simp [ofFunction, hvariables, hdrafts, any_newline_eq_false hnewline,
        Ty.plainAll, bind, Except.bind, pure, Except.pure]
  | false =>
      have hlist :
          TypeLiteral.readList (Comma.join line (Ty.tokensAll line returns)) =
            .ok (Ty.plainAll returns) := by
        rw [TypeLiteral.readList_join,
          TypeLiteral.readPieces_tokensAll line returns hreturns]
      simp [ofFunction, hvariables, hdrafts, hlist, bind, Except.bind, pure,
        Except.pure]

end Form

/-! ## Trees on one line -/

mutual

/-- The expression with all its statements on one line, and no table indices in its
types. -/
def Expr.onLine (line : Nat) : Expr → Expr
  | .reference target => .reference target.plain
  | .function arguments returns returnsOmitted body signature? =>
      .function (arguments.map Variable.plain) (Ty.plainAll returns) returnsOmitted
        (Statement.onLineAll line body)
        (signature?.map fun signature =>
          ⟨Ty.plainAll signature.arguments, Ty.plainAll signature.returns, none⟩)
  | .apply callee arguments returns =>
      .apply (callee.onLine line) (Expr.onLineAll line arguments)
        (Ty.plainAll returns)
  | .conditional condition thenBranch elseBranch returns =>
      .conditional (condition.onLine line) (thenBranch.onLine line)
        (elseBranch.onLine line) (Ty.plainAll returns)
  | .int value => .int value
  | .float value => .float value
  | .string value => .string value
  | .bool value => .bool value
  | .operator op operandType? left right =>
      .operator op (operandType?.map Ty.plain) (left.onLine line)
        (right.onLine line)
  | .array elementType? elements =>
      .array (elementType?.map Ty.plain) (Expr.onLineAll line elements)

def Expr.onLineAll (line : Nat) : List Expr → List Expr
  | [] => []
  | expression :: expressions =>
      expression.onLine line :: Expr.onLineAll line expressions

def Statement.onLine (line : Nat) : Statement → Statement
  | .assign targets value _ =>
      .assign (targets.map Variable.plain) (value.onLine line) line
  | .result expressions _ => .result (Expr.onLineAll line expressions) line

def Statement.onLineAll (line : Nat) : List Statement → List Statement
  | [] => []
  | statement :: statements =>
      statement.onLine line :: Statement.onLineAll line statements

end

def Statement.onLinesFrom (line : Nat) : List Statement → List Statement
  | [] => []
  | statement :: statements =>
      statement.onLine line :: Statement.onLinesFrom (line + 1) statements

/-! ## Printable trees -/

def Variable.Printable (target : Variable) : Prop :=
  Lexeme.IsName target.name ∧ target.Concrete

mutual

/-- Trees without inferred types whose printed form is read back: names are names,
numbers are natural, texts are plain, declared types have no hole and bodies take
one line. -/
def Expr.Printable : Expr → Prop
  | .reference target => Lexeme.IsName target.name ∧ target.type? = none
  | .function arguments returns returnsOmitted body signature? =>
      (∀ argument ∈ arguments, argument.Printable) ∧ Ty.anyHasHole returns = false ∧
        (returnsOmitted = true → returns = []) ∧ Form.OneLine body ∧
        Statement.AllPrintable body ∧
        signature? = none
  | .apply callee arguments returns =>
      callee.Printable ∧ Expr.AllPrintable arguments ∧ returns = []
  | .conditional condition thenBranch elseBranch returns =>
      condition.Printable ∧ thenBranch.Printable ∧ elseBranch.Printable ∧
        returns = []
  | .int value => 0 ≤ value.toInt
  | .float _ => False
  | .string value => ∀ character ∈ value.toList, Text.isPlain character = true
  | .bool _ => True
  | .operator _ operandType? left right =>
      left.Printable ∧ right.Printable ∧ operandType? = none
  | .array elementType? elements => Expr.AllPrintable elements ∧ elementType? = none

def Expr.AllPrintable : List Expr → Prop
  | [] => True
  | expression :: expressions =>
      expression.Printable ∧ Expr.AllPrintable expressions

def Statement.Printable : Statement → Prop
  | .assign targets value _ =>
      targets ≠ [] ∧ (∀ target ∈ targets, target.Printable) ∧ value.Printable
  | .result expressions _ => Expr.AllPrintable expressions

def Statement.AllPrintable : List Statement → Prop
  | [] => True
  | statement :: statements =>
      statement.Printable ∧ Statement.AllPrintable statements

end

instance (target : Variable) : Decidable target.Printable :=
  inferInstanceAs (Decidable (_ ∧ ∀ type ∈ target.type?, _))

mutual

def Expr.decidePrintable : (expression : Expr) → Decidable expression.Printable
  | .reference _ => inferInstanceAs (Decidable (_ ∧ _))
  | .function _ _ _ body _ =>
      have := Statement.decideAllPrintable body
      inferInstanceAs (Decidable (_ ∧ _ ∧ _ ∧ _ ∧ _ ∧ _))
  | .apply callee arguments _ =>
      have := callee.decidePrintable
      have := Expr.decideAllPrintable arguments
      inferInstanceAs (Decidable (_ ∧ _ ∧ _))
  | .conditional condition thenBranch elseBranch _ =>
      have := condition.decidePrintable
      have := thenBranch.decidePrintable
      have := elseBranch.decidePrintable
      inferInstanceAs (Decidable (_ ∧ _ ∧ _ ∧ _))
  | .int _ => inferInstanceAs (Decidable (_ ≤ _))
  | .float _ => isFalse id
  | .string value =>
      decidable_of_iff (value.toList.all Text.isPlain = true) List.all_eq_true
  | .bool _ => isTrue trivial
  | .operator _ _ left right =>
      have := left.decidePrintable
      have := right.decidePrintable
      inferInstanceAs (Decidable (_ ∧ _ ∧ _))
  | .array _ elements =>
      have := Expr.decideAllPrintable elements
      inferInstanceAs (Decidable (_ ∧ _))

def Expr.decideAllPrintable :
    (expressions : List Expr) → Decidable (Expr.AllPrintable expressions)
  | [] => isTrue trivial
  | expression :: expressions =>
      have := expression.decidePrintable
      have := Expr.decideAllPrintable expressions
      inferInstanceAs (Decidable (_ ∧ _))

def Statement.decidePrintable :
    (statement : Statement) → Decidable statement.Printable
  | .assign _ value _ =>
      have := value.decidePrintable
      inferInstanceAs (Decidable (_ ∧ _ ∧ _))
  | .result expressions _ => Expr.decideAllPrintable expressions

def Statement.decideAllPrintable : (statements : List Statement) →
    Decidable (Statement.AllPrintable statements)
  | [] => isTrue trivial
  | statement :: statements =>
      have := statement.decidePrintable
      have := Statement.decideAllPrintable statements
      inferInstanceAs (Decidable (_ ∧ _))

end

instance (expression : Expr) : Decidable expression.Printable :=
  expression.decidePrintable

instance (statements : List Statement) :
    Decidable (Statement.AllPrintable statements) :=
  Statement.decideAllPrintable statements

theorem Statement.assigning_of_printable {statement : Statement}
    (h : statement.Printable) :
    statement.Assigning := by
  cases statement with
  | assign targets value line =>
      exact ⟨h.1, fun target htarget => (h.2.1 target htarget).2⟩
  | result expressions line => exact trivial

theorem Statement.allPrintable_iff {statements : List Statement} :
    Statement.AllPrintable statements ↔
      ∀ statement ∈ statements, statement.Printable := by
  induction statements with
  | nil => simp [Statement.AllPrintable]
  | cons statement statements ih => simp [Statement.AllPrintable, ih]

theorem Expr.allPrintable_iff {expressions : List Expr} :
    Expr.AllPrintable expressions ↔
      ∀ expression ∈ expressions, expression.Printable := by
  induction expressions with
  | nil => simp [Expr.AllPrintable]
  | cons expression expressions ih => simp [Expr.AllPrintable, ih]

/-! ## Building -/

section

variable {parse : Window → Except ParseError Expr}

theorem Window.buildAll_cons {window : Window} {windows : List Window}
    {expression : Expr} {expressions : List Expr}
    (hfirst : parse window = .ok expression)
    (hothers :
      Window.buildAll windows (fun other _ => parse other) = .ok expressions) :
    Window.buildAll (window :: windows) (fun other _ => parse other) =
      .ok (expression :: expressions) := by
  rw [Window.buildAll, hfirst, hothers]
  rfl

private theorem Draft.build_result {windows : List Window} {expressions : List Expr}
    (h : Window.buildAll windows (fun window _ => parse window) = .ok expressions)
    (line : Nat) :
    (Draft.result windows line).build (fun window _ => parse window) =
      .ok (.result expressions line) := by
  rw [Draft.build]
  show (Window.buildAll windows (fun window _ => parse window) >>= _) = _
  rw [h]
  rfl

private theorem Draft.buildAll_cons {draft : Draft} {drafts : List Draft}
    {statement : Statement} {statements : List Statement}
    (hfirst : draft.build (fun window _ => parse window) = .ok statement)
    (hothers :
      Draft.buildAll drafts (fun window _ => parse window) = .ok statements) :
    Draft.buildAll (draft :: drafts) (fun window _ => parse window) =
      .ok (statement :: statements) := by
  rw [Draft.buildAll, hfirst, hothers]
  rfl

theorem Drafts.build_eq_ok {drafts : List Draft} {statements : List Statement}
    (h : Draft.buildAll drafts (fun window _ => parse window) = .ok statements) :
    (Drafts.mk drafts none).build (fun window _ => parse window) =
      .ok statements := by
  rw [Drafts.build]
  show (Draft.buildAll drafts (fun window _ => parse window) >>= _) = _
  rw [h]
  rfl

theorem Form.build_operator {left right : Window} {leftValue rightValue : Expr}
    (op : Operator) (hleft : parse left = .ok leftValue)
    (hright : parse right = .ok rightValue) :
    (Form.operator op left right).build (fun window _ => parse window) =
      .ok (.operator op none leftValue rightValue) := by
  rw [Form.build, hleft, hright]
  rfl

theorem Form.build_apply {callee : Window} {arguments : List Window} {value : Expr}
    {values : List Expr} (hcallee : parse callee = .ok value)
    (harguments :
      Window.buildAll arguments (fun window _ => parse window) = .ok values) :
    (Form.apply callee arguments).build (fun window _ => parse window) =
      .ok (.apply value values []) := by
  rw [Form.build, hcallee, harguments]
  rfl

theorem Form.build_conditional {condition thenBranch elseBranch : Window}
    {conditionValue thenValue elseValue : Expr}
    (hcondition : parse condition = .ok conditionValue)
    (hthen : parse thenBranch = .ok thenValue)
    (helse : parse elseBranch = .ok elseValue) :
    (Form.conditional condition thenBranch elseBranch).build (fun window _ =>
        parse window) =
      .ok (.conditional conditionValue thenValue elseValue []) := by
  rw [Form.build, hcondition, hthen, helse]
  rfl

private theorem Form.build_array {elements : List Window} {values : List Expr}
    (h : Window.buildAll elements (fun window _ => parse window) = .ok values) :
    (Form.array elements).build (fun window _ => parse window) =
      .ok (.array none values) := by
  rw [Form.build]
  show (Window.buildAll elements (fun window _ => parse window) >>= _) = _
  rw [h]
  rfl

private theorem Form.build_function {arguments : List Variable} {returns : List Ty}
    {returnsOmitted : Bool} {body : Drafts} {statements : List Statement}
    (h : body.build (fun window _ => parse window) = .ok statements) :
    (Form.function arguments returns returnsOmitted body).build (fun window _ =>
        parse window) =
      .ok (.function arguments returns returnsOmitted statements none) := by
  rw [Form.build]
  show (body.build (fun window _ => parse window) >>= _) = _
  rw [h]
  rfl

end

/-! ## Reading back -/

theorem Expr.ofWindow_of_form {window : Window} {form : Form}
    (h : Form.ofWindow window = .ok form) :
    Expr.ofWindow window = form.build fun part _ => Expr.ofWindow part := by
  rw [Expr.ofWindow]
  split
  · rename_i herror
    rw [h] at herror
    cases herror
  · rename_i hok
    rw [h] at hok
    cases hok
    rfl

theorem Expr.ofWindow_of_error {window : Window} {error : ParseError}
    (h : Form.ofWindow window = .error error) :
    Expr.ofWindow window = .error error := by
  rw [Expr.ofWindow]
  split <;> simp_all

private theorem Statement.onLinesFrom_of_oneLine {body : List Statement}
    (h : Form.OneLine body) (line : Nat) :
    Statement.onLinesFrom line body = Statement.onLineAll line body := by
  rcases h with rfl | ⟨expressions, valueLine, rfl⟩ <;> rfl

theorem Expr.ofWindow_single {token : Token} {value : Expr}
    (hbracket : token.kind.isBracket = false)
    (h : Form.ofToken token = .ok (.atom value)) (windowLine : Nat) :
    Expr.ofWindow ⟨[token], windowLine⟩ = .ok value :=
  Expr.ofWindow_of_form ((Form.ofWindow_single hbracket windowLine).trans h)

theorem Expr.ofWindow_paren {top : Kind → Prop} {inner : List Token}
    (h : Nested top inner) (line windowLine : Nat) :
    Expr.ofWindow ⟨parenTokens line inner, windowLine⟩ =
      Expr.ofWindow ⟨inner, line⟩ :=
  Expr.ofWindow_of_form (Form.ofWindow_paren rfl rfl h windowLine)

mutual

theorem Expr.ofWindow_tokens (line windowLine : Nat) :
    (expression : Expr) → expression.Printable →
      Expr.ofWindow ⟨expression.tokens line, windowLine⟩ =
        .ok (expression.onLine line)
  | .reference ⟨name, type?⟩, h => by
      obtain rfl : type? = none := h.2
      exact Expr.ofWindow_single rfl rfl windowLine
  | .int value, h => by
      have hvalue : Form.ofToken ⟨.int, printInteger value, line⟩ =
          .ok (.atom (.int value)) := by
        simp only [Form.ofToken, Number.int64?_printInteger h]
      exact Expr.ofWindow_single rfl hvalue windowLine
  | .float _, h => h.elim
  | .string value, _ => Expr.ofWindow_single rfl rfl windowLine
  | .bool value, _ => by
      cases value <;> exact Expr.ofWindow_single rfl rfl windowLine
  | .operator op operandType? left right, h => by
      obtain ⟨hleft, hright, rfl⟩ := h
      have hunits := And.intro (left.isUnit_tokens line) (right.isUnit_tokens line)
      have hform := Form.ofWindow_operator_of_units hunits.1 hunits.2 op line line
      rw [Expr.tokens,
        Expr.ofWindow_paren (phrase_operator hunits.1 hunits.2 op line).nested,
        Expr.ofWindow_of_form hform]
      exact Form.build_operator op (left.ofWindow_tokens line line hleft)
        (right.ofWindow_tokens line line hright)
  | .apply callee arguments returns, h => by
      obtain ⟨hcallee, harguments, rfl⟩ := h
      have hunits : ∀ unit ∈ callee.tokens line :: Expr.tokensAll line arguments,
          IsUnit unit := by
        intro unit hunit
        rcases List.mem_cons.1 hunit with rfl | hunit
        · exact callee.isUnit_tokens line
        · exact Expr.isUnit_of_mem_tokensAll line arguments unit hunit
      have hform := Form.ofWindow_application_of_units hunits line line
      rw [Expr.tokens, Expr.ofWindow_paren (phrase_application hunits line).nested,
        Expr.ofWindow_of_form hform]
      exact Form.build_apply (callee.ofWindow_tokens line line hcallee)
        (Expr.buildAll_tokensAll line arguments harguments)
  | .conditional condition thenBranch elseBranch returns, h => by
      obtain ⟨hcondition, hthen, helse, rfl⟩ := h
      have hform :=
        Form.ofWindow_conditional_of_units (condition.isUnit_tokens line)
          (thenBranch.isUnit_tokens line) (elseBranch.isUnit_tokens line) line line
      have hphrase := phrase_conditional (condition.isUnit_tokens line)
        (thenBranch.isUnit_tokens line) (elseBranch.isUnit_tokens line) line
      rw [Expr.tokens, Expr.ofWindow_paren hphrase.nested,
        Expr.ofWindow_of_form hform]
      exact Form.build_conditional (condition.ofWindow_tokens line line hcondition)
        (thenBranch.ofWindow_tokens line line hthen)
        (elseBranch.ofWindow_tokens line line helse)
  | .array elementType? [], h => by
      obtain ⟨-, rfl⟩ := h
      exact Expr.ofWindow_single rfl rfl windowLine
  | .array elementType? (element :: elements), h => by
      obtain ⟨helements, rfl⟩ := h
      have hform := Form.ofWindow_array
        (Expr.isUnit_of_mem_tokensAll line (element :: elements))
        (by simp [Expr.tokensAll]) line windowLine
      rw [Expr.tokens, Expr.ofWindow_of_form hform]
      exact Form.build_array
        (Expr.buildAll_tokensAll line (element :: elements) helements)
  | .function arguments returns returnsOmitted body signature?, h => by
      obtain ⟨harguments, hreturns, homitted, hbody, hstatements, rfl⟩ := h
      have hform := Form.ofWindow_function
        (fun argument hargument => (harguments argument hargument).2) hreturns
        homitted hbody line windowLine none
      have hstatements := Statement.buildAll_draftsFrom line body hstatements
      rw [Statement.onLinesFrom_of_oneLine hbody] at hstatements
      rw [Expr.ofWindow_of_form hform]
      exact Form.build_function (Drafts.build_eq_ok hstatements)

theorem Expr.buildAll_tokensAll (line : Nat) :
    (expressions : List Expr) → Expr.AllPrintable expressions →
      Window.buildAll ((Expr.tokensAll line expressions).map (⟨·, line⟩))
          (fun window _ => Expr.ofWindow window) =
        .ok (Expr.onLineAll line expressions)
  | [], _ => rfl
  | expression :: expressions, h =>
      Window.buildAll_cons (expression.ofWindow_tokens line line h.1)
        (Expr.buildAll_tokensAll line expressions h.2)

theorem Statement.build_draft (line : Nat) :
    (statement : Statement) → statement.Printable →
      (statement.draft line).build (fun window _ => Expr.ofWindow window) =
        .ok (statement.onLine line)
  | .assign targets value _, h => by
      rw [Statement.draft, Draft.build, value.ofWindow_tokens line line h.2.2]
      rfl
  | .result expressions _, h =>
      Draft.build_result (Expr.buildAll_tokensAll line expressions h) line

theorem Statement.buildAll_draftsFrom (line : Nat) :
    (statements : List Statement) →
      Statement.AllPrintable statements →
      Draft.buildAll (Statement.draftsFrom line statements)
          (fun window _ => Expr.ofWindow window) =
        .ok (Statement.onLinesFrom line statements)
  | [], _ => rfl
  | statement :: statements, h =>
      Draft.buildAll_cons (statement.build_draft line h.1)
        (Statement.buildAll_draftsFrom (line + 1) statements h.2)

end

end ExprLang
