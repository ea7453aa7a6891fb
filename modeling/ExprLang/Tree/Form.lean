import ExprLang.Tree.Draft
import ExprLang.Window.Juxtaposed
import ExprLang.Window.Split

/-!
# Forms

A form is an expression taken apart once: its parts are still windows of tokens.
Every part is shorter than the window it comes from, by
`Form.length_of_mem_windows`.
-/

namespace ExprLang

inductive Form where
  | atom (value : Expr)
  | group (inner : Window)
  | operator (op : Operator) (left right : Window)
  | apply (callee : Window) (arguments : List Window)
  | conditional (condition thenBranch elseBranch : Window)
  | array (elements : List Window)
  | function (arguments : List Variable) (returns : List Ty) (returnsOmitted : Bool)
      (body : Drafts)

namespace Form

def windows : Form → List Window
  | .atom _ => []
  | .group inner => [inner]
  | .operator _ left right => [left, right]
  | .apply callee arguments => callee :: arguments
  | .conditional condition thenBranch elseBranch =>
      [condition, thenBranch, elseBranch]
  | .array elements => elements
  | .function _ _ _ body => body.windows

/-! ## The forms -/

/-- Every kind of bracket must open as often as it closes. -/
def checkBalance (tokens : List Token) : Except ParseError Unit :=
  match (Depth.zero.after tokens).uneven? with
  | some bracket => .error (.unbalanced (tokens.head?.elim 0 Token.line) bracket)
  | none => .ok ()

def ofToken (token : Token) : Except ParseError Form :=
  match token.kind with
  | .int =>
      match Number.int64? token.text with
      | some value => .ok (.atom (.int value))
      | none => .error (.ofToken token)
  | .float =>
      match Number.float token.text with
      | .ok value => .ok (.atom (.float value))
      | .error fault => .error (.floatText token.text fault)
  | .string => .ok (.atom (.string token.text))
  | .bool => .ok (.atom (.bool (token.text = "true")))
  | .identifier => .ok (.atom (.named token.text))
  | .arrayMark => .ok (.atom (.array none []))
  | .illegal => .error (.illegalCharacter token.line token.text)
  | _ => .error (.ofToken token)

def ofOperator (split : Split) : Except ParseError Form :=
  match split.token.kind.operator? with
  | some op =>
      .ok (.operator op ⟨split.left, split.token.line⟩
        ⟨split.right, split.token.line⟩)
  | none => .error (.notOperator split.token.kind)

def ofApplication (line : Nat) (rest : List Token) : Except ParseError Form :=
  if rest.isEmpty then .error (.unexpected line "end of expression" .callee)
  else
    match Juxtaposed.pieces rest with
    | [] => .error .noPieces
    | callee :: arguments => .ok (.apply ⟨callee, line⟩ (arguments.map (⟨·, line⟩)))

def ofConditional (line : Nat) (rest : List Token) : Except ParseError Form :=
  match Split.atElse? rest with
  | none => .error (.unexpected line "end of expression" .elseBranch)
  | some split =>
      match Juxtaposed.pieces split.left with
      | [condition, thenBranch] =>
          .ok (.conditional ⟨condition, line⟩ ⟨thenBranch, line⟩
            ⟨split.right, split.token.line⟩)
      | pieces => .error (.branchCount line (pieces.countP (!·.isEmpty)))

/-- A body on one line is the expression that the function returns. -/
def bodyTokens (body : List Token) : List Token :=
  match body with
  | [] => []
  | first :: _ =>
      if first.kind = .returnWord || body.any (·.kind = .newline) then body
      else .ofKind .returnWord first.line :: body

def ofFunction (line : Nat) (literal : FunctionLiteral) :
    Except ParseError Form := do
  let returns ← literal.returns?.elim (.ok []) TypeLiteral.readList
  let arguments ← VariableList.read literal.arguments
  if literal.returns?.isNone && literal.body.any (·.kind = .newline) then
    throw (.undeclaredReturns line)
  let body := Drafts.ofStream (Listed.mk (bodyTokens literal.body) literal.lastLine)
  return .function arguments returns literal.returns?.isNone body

def ofSpan (first : Token) (tokens : List Token) : Except ParseError Form :=
  match Split.atOperator? tokens with
  | some split => ofOperator split
  | none =>
      match (FunctionLiteral.ofTokens? tokens).filter (·.rest.isEmpty) with
      | some _ => FunctionLiteral.cut tokens >>= ofFunction first.line
      | none =>
          match (Enclosed.ofBracket? .paren tokens).filter (·.rest.isEmpty) with
          | some enclosed => .ok (.group ⟨enclosed.inner, first.line⟩)
          | none =>
              match (Enclosed.ofBracket? .square tokens).filter (·.rest.isEmpty) with
              | some enclosed =>
                  .ok (.array ((Comma.items enclosed.inner).map (⟨·, first.line⟩)))
              | none =>
                  .error (.ofToken
                    ((tokens.drop (Juxtaposed.unitLength tokens)).headD first))

def ofWindow (window : Window) : Except ParseError Form :=
  match window.tokens with
  | [] => .error (.emptyExpression window.line)
  | first :: rest => do
      checkBalance (first :: rest)
      if rest.isEmpty then ofToken first
      else if first.kind = .bang then ofApplication first.line rest
      else if first.kind = .ifWord then ofConditional first.line rest
      else ofSpan first (first :: rest)

/-! ## Broken invariants

The errors without a line are for windows that the searches of the parser do not
hand out. -/

theorem ofOperator_of_atOperator? {tokens : List Token} {split : Split}
    (h : Split.atOperator? tokens = some split) :
    ∃ op, split.token.kind = .operator op ∧
      ofOperator split = .ok (.operator op ⟨split.left, split.token.line⟩
          ⟨split.right, split.token.line⟩) := by
  obtain ⟨op, hop⟩ := Split.kind_of_atOperator? h
  exact ⟨op, hop, by simp [ofOperator, hop, Kind.operator?]⟩

theorem ofApplication_of_ne_nil (line : Nat) {rest : List Token} (h : rest ≠ []) :
    ∃ callee arguments, Juxtaposed.pieces rest = callee :: arguments ∧
      ofApplication line rest =
        .ok (.apply ⟨callee, line⟩ (arguments.map (⟨·, line⟩))) := by
  obtain ⟨callee, arguments, hpieces⟩ :=
    List.exists_cons_of_ne_nil (Juxtaposed.pieces_ne_nil rest)
  exact ⟨callee, arguments, hpieces, by simp [ofApplication, h, hpieces]⟩

/-! ## Parts are shorter -/

private theorem ofToken_windows {token : Token} {form : Form}
    (h : ofToken token = .ok form) :
    form.windows = [] := by
  unfold ofToken at h
  split at h <;> (try split at h) <;> cases h <;> rfl

private theorem length_of_mem_ofOperator {tokens : List Token} {split : Split}
    {form : Form} {window : Window} (hsplit : Split.atOperator? tokens = some split)
    (hform : ofOperator split = .ok form) (h : window ∈ form.windows) :
    window.tokens.length < tokens.length := by
  have := congrArg List.length (Split.eq_of_atOperator? hsplit)
  obtain ⟨op, -, hoperator⟩ := ofOperator_of_atOperator? hsplit
  rw [hoperator] at hform
  cases hform
  simp only [windows, List.mem_cons, List.not_mem_nil, or_false] at h
  simp at this
  rcases h with rfl | rfl <;> simp <;> omega

private theorem length_of_mem_ofApplication {line : Nat} {rest : List Token}
    {form : Form} {window : Window} (hform : ofApplication line rest = .ok form)
    (h : window ∈ form.windows) :
    window.tokens.length ≤ rest.length := by
  unfold ofApplication at hform
  split at hform
  · cases hform
  split at hform
  · cases hform
  · rename_i callee arguments hpieces
    cases hform
    have hpart : ∃ piece ∈ callee :: arguments, window = ⟨piece, line⟩ := by
      simpa [windows, eq_comm] using h
    obtain ⟨piece, hpiece, rfl⟩ := hpart
    exact Juxtaposed.length_le_of_mem_pieces (hpieces ▸ hpiece)

private theorem length_of_mem_ofConditional {line : Nat} {rest : List Token}
    {form : Form} {window : Window} (hform : ofConditional line rest = .ok form)
    (h : window ∈ form.windows) :
    window.tokens.length ≤ rest.length := by
  unfold ofConditional at hform
  split at hform
  · cases hform
  · rename_i split hsplit
    have := congrArg List.length (Split.eq_of_atElseFrom? hsplit)
    split at hform
    · rename_i condition thenBranch hpieces
      cases hform
      have hcondition : condition.length ≤ split.left.length :=
        Juxtaposed.length_le_of_mem_pieces (hpieces ▸ List.mem_cons_self)
      have hthen : thenBranch.length ≤ split.left.length :=
        Juxtaposed.length_le_of_mem_pieces
          (hpieces ▸ List.mem_cons_of_mem _ List.mem_cons_self)
      simp only [windows, List.mem_cons, List.not_mem_nil, or_false] at h
      simp at this
      rcases h with rfl | rfl | rfl <;> simp <;> omega
    · cases hform

theorem length_bodyTokens_le (body : List Token) :
    (bodyTokens body).length ≤ body.length + 1 := by
  unfold bodyTokens
  split
  · simp
  · split <;> simp

theorem length_of_mem_ofFunction {line : Nat} {literal : FunctionLiteral}
    {form : Form} {window : Window} (hform : ofFunction line literal = .ok form)
    (h : window ∈ form.windows) :
    window.tokens.length ≤ literal.body.length := by
  unfold ofFunction at hform
  cases hreturns : literal.returns?.elim (.ok []) TypeLiteral.readList with
  | error error => simp [hreturns, bind, Except.bind] at hform
  | ok returns =>
      cases harguments : VariableList.read literal.arguments with
      | error error => simp [hreturns, harguments, bind, Except.bind] at hform
      | ok arguments =>
          simp only [hreturns, harguments, bind, Except.bind, pure,
            Except.pure] at hform
          split at hform
          · cases hform
          · cases hform
            have inDrafts := Drafts.length_of_mem_ofTokens h
            have :=
              Listed.length_tokens_le ⟨bodyTokens literal.body, literal.lastLine⟩
            have := length_bodyTokens_le literal.body
            simp at *
            omega

private theorem length_of_mem_ofSpan {first : Token} {tokens : List Token}
    {form : Form} {window : Window} (hform : ofSpan first tokens = .ok form)
    (h : window ∈ form.windows) :
    window.tokens.length < tokens.length := by
  unfold ofSpan at hform
  split at hform
  · rename_i split hsplit
    exact length_of_mem_ofOperator hsplit hform h
  · split at hform
    · rename_i literal hliteral
      have hliteral := (Option.filter_eq_some_iff.1 hliteral).1
      rw [FunctionLiteral.cut_of_ofTokens? hliteral] at hform
      have := FunctionLiteral.length_of_ofTokens? hliteral
      have := length_of_mem_ofFunction hform h
      omega
    · split at hform
      · rename_i enclosed henclosed
        have :=
          Enclosed.length_of_ofTokens? (Option.filter_eq_some_iff.1 henclosed).1
        cases hform
        simp only [windows, List.mem_singleton] at h
        subst h
        simp
        omega
      · split at hform
        · rename_i enclosed henclosed
          have :=
            Enclosed.length_of_ofTokens? (Option.filter_eq_some_iff.1 henclosed).1
          cases hform
          obtain ⟨piece, hpiece, rfl⟩ := List.mem_map.1 h
          have := Comma.length_le_of_mem_items hpiece
          simp
          omega
        · cases hform

theorem length_of_mem_windows {whole window : Window} {form : Form}
    (hform : ofWindow whole = .ok form) (h : window ∈ form.windows) :
    window.tokens.length < whole.tokens.length := by
  unfold ofWindow at hform
  split at hform
  · cases hform
  · rename_i first rest htokens
    cases hbalance : checkBalance (first :: rest) with
    | error error => simp [hbalance, bind, Except.bind] at hform
    | ok balanced =>
        simp only [hbalance, bind, Except.bind] at hform
        rw [htokens]
        split at hform
        · rw [ofToken_windows hform] at h
          cases h
        · split at hform
          · have := length_of_mem_ofApplication hform h
            simp
            omega
          · split at hform
            · have := length_of_mem_ofConditional hform h
              simp
              omega
            · exact length_of_mem_ofSpan hform h

end Form

end ExprLang
