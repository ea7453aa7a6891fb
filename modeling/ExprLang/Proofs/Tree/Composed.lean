import ExprLang.Proofs.Tree.Phrases

/-!
# Windows put together

A window that is put together from windows that are parsed, by an operator, an
application mark or the words of a conditional, is parsed as the tree of what they
are parsed as.  Parentheses around a window that is parsed leave no trace in the
tree.
-/

namespace ExprLang

open Outcome

/-! ## Windows that are parsed -/

namespace Expr

theorem exists_form_of_ofWindow {window : Window} {expression : Expr}
    (h : Expr.ofWindow window = .ok expression) :
    ∃ form, Form.ofWindow window = .ok form := by
  rw [Expr.ofWindow] at h
  split at h
  · cases h
  · exact ⟨_, ‹_›⟩

theorem ne_nil_of_ofTokens {tokens : List Token} {expression : Expr}
    (h : Expr.ofTokens tokens = .ok expression) : tokens ≠ [] := by
  rintro rfl
  obtain ⟨form, hform⟩ := exists_form_of_ofWindow h
  cases hform

theorem balanced_of_ofTokens {tokens : List Token} {expression : Expr}
    (h : Expr.ofTokens tokens = .ok expression) :
    Depth.zero.after tokens = .zero := by
  obtain ⟨first, rest, rfl⟩ := List.exists_cons_of_ne_nil (ne_nil_of_ofTokens h)
  obtain ⟨form, hform⟩ := exists_form_of_ofWindow h
  simp only [Form.ofWindow, bind_eq_ok_iff] at hform
  obtain ⟨_, hbalance, -⟩ := hform
  exact Form.checkBalance_eq_ok_iff.1 hbalance

theorem ofWindow_of_ofTokens {tokens : List Token} {expression : Expr}
    (h : Expr.ofTokens tokens = .ok expression) (line : Nat) :
    Expr.ofWindow ⟨tokens, line⟩ = .ok expression := by
  obtain ⟨first, rest, rfl⟩ := List.exists_cons_of_ne_nil (ne_nil_of_ofTokens h)
  obtain ⟨form, hform⟩ := exists_form_of_ofWindow h
  have hlined : Form.ofWindow ⟨first :: rest, line⟩ = .ok form := hform
  rw [ofWindow_of_form hlined, ← ofWindow_of_form hform]
  exact h

theorem ofTokens_name (name : String) (line : Nat) :
    Expr.ofTokens [⟨.identifier, name, line⟩] = .ok (.named name) :=
  ofWindow_single rfl rfl line

end Expr

theorem Window.buildAll_of_ofTokens {windows : List (List Token)}
    {values : List Expr}
    (h : List.Forall₂ (fun window value => Expr.ofTokens window = .ok value) windows
      values) (line : Nat) :
    Window.buildAll (windows.map (⟨·, line⟩))
        (fun window _ => Expr.ofWindow window) = .ok values := by
  induction h with
  | nil => rfl
  | cons hfirst _ ih =>
      exact Window.buildAll_cons (Expr.ofWindow_of_ofTokens hfirst line) ih

theorem Expr.phrase_of_forall₂ {windows : List (List Token)} {values : List Expr}
    (h : List.Forall₂ (fun window value => Expr.ofTokens window = .ok value) windows
      values) (hend : ∀ window ∈ windows, EndFree window) :
    ∀ window ∈ windows, Phrase window := by
  induction h with
  | nil => simp
  | cons hfirst _ ih =>
      obtain ⟨hhead, htail⟩ := List.forall_mem_cons.1 hend
      exact List.forall_mem_cons.2 ⟨phrase_of_ofTokens hfirst hhead, ih htail⟩

/-! ## Operators -/

/-- The window can stand to the left of an operator of the tier. -/
structure LeftOperand (tier : Tier) (window : List Token) (value : Expr) :
    Prop where
  parsed : Expr.ofTokens window = .ok value
  closed : Closed window
  notLooser : ∀ op ∈ operators (topLevel window), tier.rank ≤ op.tier.rank

structure RightOperand (tier : Tier) (window : List Token) (value : Expr) :
    Prop where
  parsed : Expr.ofTokens window = .ok value
  tighter : ∀ op ∈ operators (leading window), tier.rank < op.tier.rank

/-- The window is a chain of operators of the tier, or of tighter ones. -/
structure Chained (tier : Tier) (window : List Token) (value : Expr) : Prop where
  parsed : Expr.ofTokens window = .ok value
  notLooser : ∀ op ∈ operators (leading window), tier.rank ≤ op.tier.rank

private theorem LeftOperand.chained {tier : Tier} {window : List Token}
    {value : Expr} (h : LeftOperand tier window value) :
    Chained tier window value :=
  ⟨h.parsed, by rw [leading_of_closed h.closed]; exact h.notLooser⟩

theorem Chained.left {tier looser : Tier} {window : List Token} {value : Expr}
    (h : Chained tier window value) (hlooser : looser.rank ≤ tier.rank)
    (hclosed : Closed window) :
    LeftOperand looser window value := by
  refine ⟨h.parsed, hclosed, fun op hop => ?_⟩
  rw [← leading_of_closed hclosed] at hop
  exact hlooser.trans (h.notLooser op hop)

private theorem Chained.right {tier looser : Tier} {window : List Token}
    {value : Expr} (h : Chained tier window value)
    (hlooser : looser.rank < tier.rank) :
    RightOperand looser window value :=
  ⟨h.parsed, fun op hop => hlooser.trans_le (h.notLooser op hop)⟩

theorem LeftOperand.operator {left right : List Token} {sign : Token}
    {op : Operator} {leftValue rightValue : Expr}
    (hleft : LeftOperand op.tier left leftValue) (hsign : sign.kind = .operator op)
    (hright : RightOperand op.tier right rightValue) :
    Chained op.tier (left ++ sign :: right)
      (.operator op none leftValue rightValue) := by
  have hbalanced := Expr.balanced_of_ofTokens hleft.parsed
  constructor
  · have hform := Form.ofWindow_operator (Expr.ne_nil_of_ofTokens hleft.parsed)
      hbalanced (Expr.balanced_of_ofTokens hright.parsed) hleft.closed hsign
      hleft.notLooser hright.tighter
    rw [Expr.ofTokens, Expr.ofWindow_of_form (hform _)]
    exact Form.build_operator op (Expr.ofWindow_of_ofTokens hleft.parsed sign.line)
      (Expr.ofWindow_of_ofTokens hright.parsed sign.line)
  · rw [leading_append hbalanced hleft.closed, leading_cons_operator hsign,
      operators, List.filterMap_append, List.filterMap_cons, hsign]
    intro other hother
    rcases List.mem_append.1 hother with hother | hother
    · exact hleft.notLooser other hother
    rcases List.mem_cons.1 hother with rfl | hother
    · exact le_refl _
    · exact (hright.tighter other hother).le

/-- An operand of a chain, with the operator before it and what its window is parsed
as. -/
structure Operand where
  sign : Token
  op : Operator
  window : List Token
  value : Expr

namespace Operand

def tokens (operand : Operand) : List Token := operand.sign :: operand.window

structure Continues (tier : Tier) (operand : Operand) : Prop where
  sign : operand.sign.kind = .operator operand.op
  tier_eq : operand.op.tier = tier
  right : RightOperand tier operand.window operand.value

def attach (left : Expr) (operand : Operand) : Expr :=
  .operator operand.op none left operand.value

end Operand

/-- A chain of operators of one tier is split at the last of them, so that its tree
grows to the left. -/
theorem LeftOperand.chain {tier : Tier} {first : List Token} {value : Expr}
    {operands : List Operand} (hfirst : LeftOperand tier first value)
    (h : ∀ operand ∈ operands, operand.Continues tier)
    (hclosed : ∀ operand ∈ operands.dropLast, Closed operand.window) :
    Chained tier (first ++ operands.flatMap Operand.tokens)
      (operands.foldl Operand.attach value) := by
  induction operands generalizing first value with
  | nil => simpa using hfirst.chained
  | cons operand operands ih =>
      obtain ⟨⟨hsign, rfl, hright⟩, hothers⟩ := List.forall_mem_cons.1 h
      have hlonger := hfirst.operator hsign hright
      cases operands with
      | nil => simpa [Operand.tokens, Operand.attach] using hlonger
      | cons next operands =>
          rw [List.dropLast_cons_cons] at hclosed
          obtain ⟨hoperand, hclosed⟩ := List.forall_mem_cons.1 hclosed
          -- An operand that is not the last must be closed, or it would take the
          -- rest of the chain.
          have hbracket : operand.sign.kind.isBracket = false := by rw [hsign]; rfl
          have hwhole : Closed (first ++ operand.sign :: operand.window) := by
            rw [closed_append_iff (Expr.balanced_of_ofTokens hfirst.parsed),
              closed_cons_iff hbracket, hsign]
            exact ⟨hfirst.closed, rfl, hoperand⟩
          have hchain := ih (hlonger.left (le_refl _) hwhole) hothers hclosed
          simpa [Operand.tokens, Operand.attach] using hchain

/-- Operators compose their operands by tier: an operator to whose left none is
looser and to whose right none is as loose is the root.  An application or a
conditional to its right takes the rest, whatever operators that has.  A chain of
operators of one tier, of any length, associates to the left, and is an operand of
looser operators. -/
theorem Expr.operators_compose {tier : Tier} {left : List Token} {leftValue : Expr}
    (hleft : LeftOperand tier left leftValue) :
    (∀ (sign : Token) (op : Operator) (right : List Token) (rightValue : Expr),
        sign.kind = .operator op →
        op.tier = tier → RightOperand tier right rightValue →
        Expr.ofTokens (left ++ sign :: right) =
          .ok (.operator op none leftValue rightValue)) ∧
      (∀ (sign mark : Token) (op : Operator) (rest : List Token)
          (rightValue : Expr),
        sign.kind = .operator op →
        op.tier = tier → mark.kind.takesRest = true →
        Expr.ofTokens (mark :: rest) = .ok rightValue →
        Expr.ofTokens (left ++ sign :: mark :: rest) =
          .ok (.operator op none leftValue rightValue)) ∧
      (∀ operands : List Operand, (∀ operand ∈ operands, operand.Continues tier) →
        (∀ operand ∈ operands.dropLast, Closed operand.window) →
      let window := left ++ operands.flatMap Operand.tokens
      let value := operands.foldl Operand.attach leftValue
      Expr.ofTokens window = .ok value ∧
        ∀ looser : Tier, looser.rank < tier.rank →
          RightOperand looser window value ∧
            (Closed window → LeftOperand looser window value)) := by
  refine ⟨?_, ?_, ?_⟩
  · rintro sign op right rightValue hsign rfl hright
    exact (hleft.operator hsign hright).parsed
  · rintro sign mark op rest rightValue hsign rfl hmark hright
    have hnone : operators (leading (mark :: rest)) = [] := by
      rw [leading_cons_takesRest hmark]; rfl
    exact (hleft.operator hsign ⟨hright, by simp [hnone]⟩).parsed
  · intro operands h hclosed
    have hchain := hleft.chain h hclosed
    exact ⟨hchain.parsed,
      fun looser hlooser => ⟨hchain.right hlooser, hchain.left hlooser.le⟩⟩

/-- In `a * b - c - !f d == e` the application takes the comparison, and the
differences associate to the left. -/
theorem Expr.difference_operators_compose :
    let name (text : String) : List Token := [⟨.identifier, text, 1⟩]
    let sign (op : Operator) : Token := .ofKind (.operator op) 1
    let product : List Token := name "a" ++ sign .mul :: name "b"
    let comparison : List Token := name "d" ++ sign .eq :: name "e"
    let parts : List Token := [name "f", comparison].flatten
    let first : Expr := .operator .mul none (.named "a") (.named "b")
    let last : Expr :=
      .apply (.named "f") [.operator .eq none (.named "d") (.named "e")] []
    LeftOperand .additive product first ∧
      RightOperand .additive (name "c") (.named "c") ∧
      Expr.ofTokens (product ++ sign .sub :: name "c") =
        .ok (.operator .sub none first (.named "c")) ∧
      Expr.ofTokens (product ++ sign .sub :: .ofKind .bang 1 :: parts) =
        .ok (.operator .sub none first last) ∧
      Expr.ofTokens (product ++ (sign .sub :: name "c" ++
            (sign .sub :: .ofKind .bang 1 :: parts ++ []))) =
        .ok (.operator .sub none
          (.operator .sub none first (.named "c")) last) := by
  intro name sign product comparison parts first last
  have hfactor : LeftOperand .multiplicative (name "a") (.named "a") :=
    ⟨ofTokens_name "a" 1, by decide, by decide⟩
  have hcompared : LeftOperand .comparison (name "d") (.named "d") :=
    ⟨ofTokens_name "d" 1, by decide, by decide⟩
  have hproduct : Expr.ofTokens product = .ok first :=
    (operators_compose hfactor).1 (sign .mul) .mul (name "b") _ rfl rfl
      ⟨ofTokens_name "b" 1, by decide⟩
  have hcomparison : Expr.ofTokens comparison =
      .ok (.operator .eq none (.named "d") (.named "e")) :=
    (operators_compose hcompared).1 (sign .eq) .eq (name "e") _ rfl rfl
      ⟨ofTokens_name "e" 1, by decide⟩
  have hform := Form.ofWindow_application (Token.kind_ofKind .bang 1)
    (phrase_of_forall₂ (.cons (ofTokens_name "f" 1) (.cons hcomparison .nil))
      (by decide)) (by decide) 1
  have hlast : Expr.ofTokens (.ofKind .bang 1 :: parts) = .ok last :=
    (ofWindow_of_form hform).trans (Form.build_apply (ofTokens_name "f" 1)
      (Window.buildAll_of_ofTokens (.cons hcomparison .nil) 1))
  have hleft : LeftOperand .additive product first :=
    ⟨hproduct, by decide, by decide⟩
  have hright : RightOperand .additive (name "c") (.named "c") :=
    ⟨ofTokens_name "c" 1, by decide⟩
  obtain ⟨hroot, hrest, hchain⟩ := operators_compose hleft
  have hoperands : ∀ operand ∈ [⟨sign .sub, .sub, name "c", .named "c"⟩,
          ⟨sign .sub, .sub, .ofKind .bang 1 :: parts, last⟩],
      Operand.Continues .additive operand :=
    List.forall_mem_cons.2 ⟨⟨rfl, rfl, hright⟩,
      List.forall_mem_singleton.2 ⟨rfl, rfl, hlast, by decide⟩⟩
  exact ⟨hleft, hright, hroot (sign .sub) .sub (name "c") _ rfl rfl hright,
    hrest (sign .sub) (.ofKind .bang 1) .sub parts last rfl rfl rfl hlast,
    (hchain _ hoperands (by decide)).1⟩

/-! ## Applications and conditionals -/

/-- An application is cut into the windows that it is put together from. -/
theorem Expr.application_parts {mark : Token} {callee : List Token}
    {arguments : List (List Token)} {value : Expr} {values : List Expr}
    (hmark : mark.kind = .bang)
    (hend : ∀ window ∈ callee :: arguments, EndFree window)
    (hparsed : List.Forall₂ (fun window value => Expr.ofTokens window = .ok value)
      (callee :: arguments) (value :: values))
    (hclosed : ∀ window ∈ (callee :: arguments).dropLast, Closed window) :
    Expr.ofTokens (mark :: (callee ++ arguments.flatten)) =
      .ok (.apply value values []) := by
  have hform :=
    Form.ofWindow_application hmark (phrase_of_forall₂ hparsed hend) hclosed
  obtain ⟨hcallee, harguments⟩ := List.forall₂_cons.1 hparsed
  rw [← List.flatten_cons, Expr.ofTokens, ofWindow_of_form (hform _)]
  exact Form.build_apply (ofWindow_of_ofTokens hcallee mark.line)
    (Window.buildAll_of_ofTokens harguments mark.line)

theorem Expr.nested_application_parts :
    let name (text : String) : List Token := [⟨.identifier, text, 1⟩]
    let inner : List Token := .ofKind .bang 1 :: (name "g" ++ [name "d"].flatten)
    let array : Expr := .array none [.named "c"]
    let arguments : List (List Token) :=
      [parenTokens 1 (name "a") ++ .ofKind (.operator .sub) 1 :: name "b",
        array.tokens 1, inner]
    let values : List Expr :=
      [.operator .sub none (.named "a") (.named "b"), array,
        .apply (.named "g") [.named "d"] []]
    List.Forall₂ (fun window value => Expr.ofTokens window = .ok value)
        (name "f" :: arguments) (.named "f" :: values) ∧
      Expr.ofTokens (.ofKind .bang 1 :: (name "f" ++ arguments.flatten)) =
        .ok (.apply (.named "f") values []) := by
  intro name inner array arguments values
  have hinner : Expr.ofTokens inner = .ok (.apply (.named "g") [.named "d"] []) :=
    application_parts rfl (by decide)
      (.cons (ofTokens_name "g" 1) (.cons (ofTokens_name "d" 1) .nil)) (by decide)
  have hparen : Expr.ofTokens (parenTokens 1 (name "a")) = .ok (.named "a") :=
    (Expr.ofWindow_paren (.single rfl trivial : WellNested (name "a")) 1 1).trans
      (ofTokens_name "a" 1)
  have hleft :
      LeftOperand (Operator.tier .sub) (parenTokens 1 (name "a")) (.named "a") :=
    ⟨hparen, by decide, by decide⟩
  have hdifference := hleft.operator (Token.kind_ofKind (.operator .sub) 1)
    ⟨ofTokens_name "b" 1, by decide⟩
  have harray : Expr.ofTokens (array.tokens 1) = .ok array :=
    Expr.ofWindow_tokens 1 1 array ⟨⟨⟨⟨_, _, rfl, rfl⟩, rfl⟩, trivial⟩, rfl⟩
  have hparsed : List.Forall₂ (fun window value => Expr.ofTokens window = .ok value)
      (name "f" :: arguments) (.named "f" :: values) :=
    .cons (ofTokens_name "f" 1)
      (.cons hdifference.parsed (.cons harray (.cons hinner .nil)))
  exact ⟨hparsed, application_parts rfl (by decide) hparsed (by decide)⟩

/-- A conditional is cut at its own `else`, whatever conditionals its branches
hold. -/
theorem Expr.conditional_branches {word other : Token}
    {condition thenBranch elseBranch : List Token}
    {conditionValue thenValue elseValue : Expr} (hword : word.kind = .ifWord)
    (hother : other.kind = .elseWord)
    (hend : ∀ window ∈ [condition, thenBranch, elseBranch], EndFree window)
    (hcondition : Expr.ofTokens condition = .ok conditionValue)
    (hclosed : Closed condition) (hthen : Expr.ofTokens thenBranch = .ok thenValue)
    (helse : Expr.ofTokens elseBranch = .ok elseValue) :
    Expr.ofTokens (word :: (condition ++ thenBranch ++ other :: elseBranch)) =
      .ok (.conditional conditionValue thenValue elseValue []) := by
  have hphrase {window : List Token} {value : Expr}
      (hwindow : window ∈ [condition, thenBranch, elseBranch])
      (h : Expr.ofTokens window = .ok value) : Phrase window :=
    phrase_of_ofTokens h (hend window hwindow)
  have hform :=
    Form.ofWindow_conditional hword hother (hphrase (by simp) hcondition) hclosed
      (hphrase (by simp) hthen) (hphrase (by simp) helse)
  rw [Expr.ofTokens, ofWindow_of_form (hform _)]
  exact Form.build_conditional (ofWindow_of_ofTokens hcondition word.line)
    (ofWindow_of_ofTokens hthen word.line) (ofWindow_of_ofTokens helse other.line)

theorem Expr.nested_conditional_branches :
    let name (text : String) : List Token := [⟨.identifier, text, 1⟩]
    let inner : List Token :=
      .ofKind .ifWord 1 :: (name "a" ++ name "b" ++ .ofKind .elseWord 1 :: name "d")
    let innerValue : Expr := .conditional (.named "a") (.named "b") (.named "d") []
    Expr.ofTokens inner = .ok innerValue ∧
      Expr.ofTokens (.ofKind .ifWord 1 ::
          (name "c" ++ inner ++ .ofKind .elseWord 1 :: name "e")) =
        .ok (.conditional (.named "c") innerValue (.named "e") []) := by
  intro name inner innerValue
  have hinner : Expr.ofTokens inner = .ok innerValue :=
    conditional_branches rfl rfl (by decide) (ofTokens_name "a" 1) (by decide)
      (ofTokens_name "b" 1) (ofTokens_name "d" 1)
  exact ⟨hinner, conditional_branches rfl rfl (by decide) (ofTokens_name "c" 1)
    (by decide) hinner (ofTokens_name "e" 1)⟩

/-! ## Parentheses -/

/-- Any number of pairs of parentheses around a window. -/
inductive Parenthesised (tokens : List Token) : List Token → Prop
  | plain : Parenthesised tokens tokens
  | pair {inner outer : List Token} (h : Parenthesised tokens inner)
      (hpair : Bracketed .paren inner outer) :
      Parenthesised tokens outer

private theorem Parenthesised.parsed {tokens outer : List Token} {expression : Expr}
    (h : Parenthesised tokens outer) (hnested : WellNested tokens)
    (hparsed : Expr.ofTokens tokens = .ok expression) :
    WellNested outer ∧ Expr.ofTokens outer = .ok expression := by
  induction h with
  | plain => exact ⟨hnested, hparsed⟩
  | pair _ hpair ih =>
      obtain ⟨hinner, hvalue⟩ := ih
      refine ⟨hpair.nested hinner, ?_⟩
      cases hpair with
      | @intro opener closer hopener hcloser =>
          rw [Expr.ofTokens,
            Expr.ofWindow_of_form (Form.ofWindow_paren hopener hcloser hinner _)]
          exact Expr.ofWindow_of_ofTokens hvalue opener.line

/-- A window that is parsed is parsed as the same tree inside parentheses, be it one
pair of them or many. -/
theorem Expr.parentheses_redundant {tokens outer : List Token} {expression : Expr}
    (hend : EndFree tokens) (h : Expr.ofTokens tokens = .ok expression)
    (hpairs : Parenthesised tokens outer) :
    Expr.ofTokens outer = .ok expression :=
  (hpairs.parsed (phrase_of_ofTokens h hend).nested h).2

theorem Expr.difference_parentheses_redundant :
    let name (text : String) : List Token := [⟨.identifier, text, 2⟩]
    let tokens := parenTokens 2 (name "a") ++
      .ofKind (.operator .sub) 2 :: parenTokens 2 (name "b")
    let value : Expr := .operator .sub none (.named "a") (.named "b")
    EndFree tokens ∧ Expr.ofTokens tokens = .ok value ∧
      Expr.ofTokens (.ofKind (.opening .paren) 1 ::
          (tokens ++ [.ofKind (.closing .paren) 3])) = .ok value := by
  intro name tokens value
  have hparen (text : String) :
      Expr.ofTokens (parenTokens 2 (name text)) = .ok (.named text) :=
    (Expr.ofWindow_paren (.single rfl trivial : WellNested (name text)) 2 2).trans
      (ofTokens_name text 2)
  have hleft :
      LeftOperand (Operator.tier .sub) (parenTokens 2 (name "a")) (.named "a") :=
    ⟨hparen "a", by decide, by decide⟩
  have hdifference :=
    hleft.operator (Token.kind_ofKind (.operator .sub) 2) ⟨hparen "b", by decide⟩
  have hend : EndFree tokens := by decide
  exact ⟨hend, hdifference.parsed,
    parentheses_redundant hend hdifference.parsed (.pair .plain (.intro rfl rfl))⟩

end ExprLang
