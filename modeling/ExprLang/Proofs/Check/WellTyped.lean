import ExprLang.Proofs.Check.Derivation
import ExprLang.Tree.Node

/-!
# Checked trees are well typed

A check changes nothing but type fields.  What it reports as the types of an
expression is what the type fields of the new expression say, and every node of the
new tree fits the types of its children.
-/

namespace ExprLang

open Checker Ty

/-! ## Trees without types -/

mutual

/-- The expression without the types that a check fills in.  Declared types of a
function literal stay. -/
def Expr.erased : Expr → Expr
  | .reference target => .reference ⟨target.name, none⟩
  | .function arguments returns returnsOmitted body _ =>
      .function arguments (if returnsOmitted then [] else returns) returnsOmitted
        (Statement.erasedAll body) none
  | .apply callee arguments _ => .apply callee.erased (Expr.erasedAll arguments) []
  | .conditional condition thenBranch elseBranch _ =>
      .conditional condition.erased thenBranch.erased elseBranch.erased []
  | .int value => .int value
  | .float value => .float value
  | .string value => .string value
  | .bool value => .bool value
  | .operator op _ left right => .operator op none left.erased right.erased
  | .array _ elements => .array none (Expr.erasedAll elements)

def Expr.erasedAll : List Expr → List Expr
  | [] => []
  | expression :: expressions => expression.erased :: Expr.erasedAll expressions

def Statement.erased : Statement → Statement
  | .assign targets value line =>
      .assign (targets.map fun target => ⟨target.name, none⟩) value.erased line
  | .result expressions line => .result (Expr.erasedAll expressions) line

def Statement.erasedAll : List Statement → List Statement
  | [] => []
  | statement :: statements => statement.erased :: Statement.erasedAll statements

end

def Program.erased (program : Program) : Program :=
  ⟨Statement.erasedAll program.statements⟩

/-! ## Nodes that fit their children -/

def Statement.resultTypes (statements : List Statement) : List (List Ty) :=
  statements.filterMap fun
    | .assign .. => none
    | .result expressions _ => some (expressions.flatMap Expr.types)

def Expr.LocallyTyped : Expr → Prop
  | .int _ | .float _ | .string _ | .bool _ => True
  | .reference target => target.type?.isSome
  | .operator op operandType? left right =>
      ∃ base, op.Accepts base ∧ operandType? = some (.primitive base) ∧
        left.types = [.primitive base] ∧ right.types = [.primitive base]
  | .conditional condition thenBranch elseBranch returns =>
      condition.types = [.bool] ∧ thenBranch.types = returns ∧
        sameAll thenBranch.types elseBranch.types = true
  | .array elementType? elements =>
      elements ≠ [] ∧ ∃ type, elementType? = some type ∧
          ∀ element ∈ elements,
            ∃ found, element.types = [found] ∧ type.same found = true
  | .apply callee arguments returns =>
      ∃ parameters results index actuals substitution,
        callee.types = [.function parameters results index] ∧
        arguments.map Expr.types = actuals.map ([·]) ∧
        sameAll (instantiateAll substitution parameters) actuals = true ∧
        (∀ name ∈ holesAll results, name ∈ holesAll parameters) ∧
        returns = instantiateAll substitution results
  | .function arguments returns returnsOmitted body signature? =>
      ∃ types, arguments.map Variable.type? = types.map some ∧
        signature? = some ⟨types, returns, none⟩ ∧
        (returnsOmitted = true → Statement.resultTypes body = [returns])

def Statement.LocallyTyped : Statement → Prop
  | .assign targets value _ => targets.map Variable.type? = value.types.map some
  | .result _ _ => True

/-- Only assignments stand at top level; a block as such is not constrained. -/
def Node.LocallyTyped : Node → Prop
  | .program root => Statement.resultTypes root.statements = []
  | .block _ => True
  | .statement content => content.LocallyTyped
  | .expression content => content.LocallyTyped

/-! ## What a check makes of a tree -/

/-- The new expression is the old one with type fields that fit, and yields the
types. -/
structure Expr.Fills (old new : Expr) (types : List Ty) : Prop where
  types_eq : types = new.types
  erased_eq : new.erased = old.erased
  fits : ∀ depth, ∀ entry ∈ new.preorder depth, entry.2.LocallyTyped

structure Expr.FillsAll (old new : List Expr) : Prop where
  erased_eq : Expr.erasedAll new = Expr.erasedAll old
  fits : ∀ depth, ∀ entry ∈ Expr.preorderAll depth new, entry.2.LocallyTyped

structure Statement.Fills (old new : Statement) (types? : Option (List Ty)) :
    Prop where
  types_eq : types?.toList = Statement.resultTypes [new]
  erased_eq : new.erased = old.erased
  fits : ∀ depth, ∀ entry ∈ new.preorder depth, entry.2.LocallyTyped

structure Statement.FillsAll (old new : List Statement)
    (candidates : List (List Ty)) : Prop where
  types_eq : candidates = Statement.resultTypes new
  erased_eq : Statement.erasedAll new = Statement.erasedAll old
  fits : ∀ depth, ∀ entry ∈ Statement.preorderAll depth new, entry.2.LocallyTyped

namespace Expr.Fills

variable {left right newLeft newRight : Expr} {types otherTypes : List Ty}

theorem operator {op : Operator} {operandType? : Option Ty} {operand : Ty}
    (hleft : left.Fills newLeft types)
    (hright : right.Fills newRight otherTypes)
    (hoperand : Rule.operand op types otherTypes = .ok operand) :
    (Expr.operator op operandType? left right).Fills
      (.operator op (some operand) newLeft newRight) [op.resultType operand] where
  types_eq := by simp [Expr.types]
  erased_eq := by simp [Expr.erased, hleft.erased_eq, hright.erased_eq]
  fits := by
    obtain ⟨base, haccepts, htypes, hotherTypes, rfl⟩ :=
      Rule.operand_eq_ok_iff.1 hoperand
    intro depth entry hentry
    simp only [Expr.preorder, List.mem_cons, List.mem_append] at hentry
    rcases hentry with rfl | hentry | hentry
    · exact ⟨base, haccepts, rfl, hleft.types_eq ▸ htypes,
        hright.types_eq ▸ hotherTypes⟩
    · exact hleft.fits _ entry hentry
    · exact hright.fits _ entry hentry

theorem conditional {condition newCondition : Expr}
    {conditionTypes returns result : List Ty}
    (hcondition : condition.Fills newCondition conditionTypes)
    (hthen : left.Fills newLeft types)
    (helse : right.Fills newRight otherTypes)
    (hresult : Rule.Branches conditionTypes types otherTypes result) :
    (Expr.conditional condition left right returns).Fills
      (.conditional newCondition newLeft newRight result) result where
  types_eq := rfl
  erased_eq := by simp [Expr.erased, hcondition.erased_eq, hthen.erased_eq,
    helse.erased_eq]
  fits := by
    obtain ⟨hbool, hsame, -, rfl⟩ := hresult
    intro depth entry hentry
    simp only [Expr.preorder, List.mem_cons, List.mem_append] at hentry
    rcases hentry with rfl | (hentry | hentry) | hentry
    · refine ⟨hcondition.types_eq ▸ hbool, hthen.types_eq.symm, ?_⟩
      rw [← hthen.types_eq, ← helse.types_eq]
      exact hsame
    · exact hcondition.fits _ entry hentry
    · exact hthen.fits _ entry hentry
    · exact helse.fits _ entry hentry

theorem array {elementType? : Option Ty} {elements newElements : List Expr}
    {type : Ty} (helements : FillsAll elements newElements)
    (hnonempty : newElements ≠ [])
    (htypes : newElements.map Expr.types = types.map ([·]))
    (hsame : ∀ found ∈ types, type.same found = true) :
    (Expr.array elementType? elements).Fills (.array (some type) newElements)
      [.array type] where
  types_eq := by simp [Expr.types]
  erased_eq := by simp [Expr.erased, helements.erased_eq]
  fits := by
    intro depth entry hentry
    simp only [Expr.preorder, List.mem_cons] at hentry
    rcases hentry with rfl | hentry
    · refine ⟨hnonempty, type, rfl, ?_⟩
      intro element helement
      have hmem := List.mem_map_of_mem (f := Expr.types) helement
      rw [htypes] at hmem
      obtain ⟨found, hfound, heq⟩ := List.mem_map.1 hmem
      exact ⟨found, heq.symm, hsame found hfound⟩
    · exact helements.fits _ entry hentry

theorem apply {callee newCallee : Expr} {arguments newArguments : List Expr}
    {calleeTypes actuals returns result : List Ty}
    (hcallee : callee.Fills newCallee calleeTypes)
    (harguments : FillsAll arguments newArguments)
    (hactuals : newArguments.map Expr.types = actuals.map ([·]))
    (hresult : Rule.application calleeTypes actuals = .ok result) :
    (Expr.apply callee arguments returns).Fills
      (.apply newCallee newArguments result) result where
  types_eq := rfl
  erased_eq := by simp [Expr.erased, hcallee.erased_eq, harguments.erased_eq]
  fits := by
    obtain ⟨parameters, results, index, substitution, hfunction, hsame, hholes,
        rfl⟩ :=
      Rule.application_sound hresult
    intro depth entry hentry
    simp only [Expr.preorder, List.mem_cons, List.mem_append] at hentry
    rcases hentry with rfl | hentry | hentry
    · exact ⟨parameters, results, index, actuals, substitution,
        hcallee.types_eq ▸ hfunction, hactuals, hsame, hholes, rfl⟩
    · exact hcallee.fits _ entry hentry
    · exact harguments.fits _ entry hentry

theorem function {arguments : List Variable} {returns : List Ty}
    {returnsOmitted : Bool} {body newBody : List Statement}
    {signature? : Option Signature} {candidates : List (List Ty)}
    (hbody : Statement.FillsAll body newBody candidates)
    (htypes : arguments.map Variable.type? = types.map some)
    (hreturns : if returnsOmitted then candidates = [otherTypes]
      else otherTypes = returns) :
    (Expr.function arguments returns returnsOmitted body signature?).Fills
      (.function arguments otherTypes returnsOmitted newBody
        (some ⟨types, otherTypes, none⟩)) [.function types otherTypes none] where
  types_eq := rfl
  erased_eq := by
    cases returnsOmitted with
    | true => simp [Expr.erased, hbody.erased_eq]
    | false =>
        simp only [Bool.false_eq_true, if_false] at hreturns
        simp [Expr.erased, hbody.erased_eq, hreturns]
  fits := by
    intro depth entry hentry
    simp only [Expr.preorder, List.mem_cons] at hentry
    rcases hentry with rfl | rfl | hentry
    · refine ⟨types, htypes, rfl, ?_⟩
      rintro rfl
      rw [← hbody.types_eq]
      exact hreturns
    · trivial
    · exact hbody.fits _ entry hentry

end Expr.Fills

theorem Expr.FillsAll.cons {expression newExpression : Expr}
    {expressions newExpressions : List Expr} {types : List Ty}
    (hothers : Expr.FillsAll expressions newExpressions)
    (hfirst : expression.Fills newExpression types) :
    Expr.FillsAll (expression :: expressions)
      (newExpression :: newExpressions) where
  erased_eq := by simp [Expr.erasedAll, hfirst.erased_eq, hothers.erased_eq]
  fits := by
    intro depth entry hentry
    simp only [Expr.preorderAll, List.mem_append] at hentry
    rcases hentry with hentry | hentry
    · exact hfirst.fits _ entry hentry
    · exact hothers.fits _ entry hentry

theorem Statement.Fills.assign {targets : List Variable}
    {value newValue : Expr} {types : List Ty} {line : Nat}
    (hvalue : value.Fills newValue types)
    (hlength : targets.length = types.length) :
    (Statement.assign targets value line).Fills
      (.assign (typed targets types) newValue line) none where
  types_eq := by simp [Statement.resultTypes]
  erased_eq := by
    simp only [Statement.erased, hvalue.erased_eq, Statement.assign.injEq, and_true]
    apply List.ext_getElem <;> simp [typed, hlength]
  fits := by
    intro depth entry hentry
    simp only [Statement.preorder, List.mem_cons] at hentry
    rcases hentry with rfl | hentry
    · show (typed targets types).map Variable.type? = newValue.types.map some
      rw [← hvalue.types_eq]
      apply List.ext_getElem <;> simp [typed, hlength]
    · exact hvalue.fits _ entry hentry

theorem Statement.Fills.result {expressions newExpressions : List Expr}
    {types : List Ty} {line : Nat}
    (hexpressions : Expr.FillsAll expressions newExpressions)
    (htypes : types = newExpressions.flatMap Expr.types) :
    (Statement.result expressions line).Fills (.result newExpressions line)
      (some types) where
  types_eq := by simp [Statement.resultTypes, htypes]
  erased_eq := by simp [Statement.erased, hexpressions.erased_eq]
  fits := by
    intro depth entry hentry
    simp only [Statement.preorder, List.mem_cons] at hentry
    rcases hentry with rfl | hentry
    · trivial
    · exact hexpressions.fits _ entry hentry

theorem Statement.FillsAll.cons {statement newStatement : Statement}
    {statements newStatements : List Statement} {types? : Option (List Ty)}
    {candidates : List (List Ty)}
    (hothers : Statement.FillsAll statements newStatements candidates)
    (hfirst : statement.Fills newStatement types?) :
    Statement.FillsAll (statement :: statements)
      (newStatement :: newStatements) (types?.toList ++ candidates) where
  types_eq := by
    rw [hfirst.types_eq, hothers.types_eq]
    exact List.filterMap_append.symm
  erased_eq := by simp [Statement.erasedAll, hfirst.erased_eq, hothers.erased_eq]
  fits := by
    intro depth entry hentry
    simp only [Statement.preorderAll, List.mem_append] at hentry
    rcases hentry with hentry | hentry
    · exact hfirst.fits _ entry hentry
    · exact hothers.fits _ entry hentry

/-! ## Runs -/

mutual

theorem Expr.Checks.fills {line : Nat} {bound : Bool} {table after : SymbolTable}
    {expression new : Expr} {types : List Ty} :
    Expr.Checks line bound table expression new types after →
      expression.Fills new types
  | .int _ _ _ _ | .float _ _ _ _ | .string _ _ _ _ | .bool _ _ _ _
  | .reference _ _ _ =>
      ⟨rfl, rfl, by simp [Expr.preorder, Node.LocallyTyped, Expr.LocallyTyped]⟩
  | .operator hleft hright hoperand => .operator hleft.fills hright.fills hoperand
  | .conditional hcondition hthen helse htypes =>
      .conditional hcondition.fills hthen.fills helse.fills htypes
  | .array helements hsame => by
      obtain ⟨hfills, htypes⟩ := helements.fills
      refine .array hfills ?_ htypes
        (List.forall_mem_cons.2 ⟨Ty.same_refl _, hsame⟩)
      rintro rfl
      cases helements
  | .apply harguments hcallee htypes =>
      .apply hcallee.fills harguments.fills.1 harguments.fills.2 htypes
  | .function htypes hbody hresults => .function hbody.fills htypes hresults

theorem Expr.ChecksEach.fills {line : Nat} {table after : SymbolTable}
    {expressions new : List Expr} {types : List Ty} :
    Expr.ChecksEach line table expressions new types after →
      Expr.FillsAll expressions new ∧ new.map Expr.types = types.map ([·])
  | .nil _ _ => ⟨⟨rfl, by simp [Expr.preorderAll]⟩, rfl⟩
  | .cons hfirst _ hothers =>
      ⟨hothers.fills.1.cons hfirst.fills,
        by simp [← hfirst.fills.types_eq, hothers.fills.2]⟩

theorem Expr.ChecksResults.fills {line : Nat} {table after : SymbolTable}
    {expressions new : List Expr} {types : List Ty} :
    Expr.ChecksResults line table expressions new types after →
      Expr.FillsAll expressions new ∧ types = new.flatMap Expr.types
  | .nil _ _ => ⟨⟨rfl, by simp [Expr.preorderAll]⟩, rfl⟩
  | .cons hfirst _ hothers =>
      ⟨hothers.fills.1.cons hfirst.fills,
        by simp [← hfirst.fills.types_eq, hothers.fills.2]⟩

theorem Statement.Checks.fills {inFunction : Bool} {table after : SymbolTable}
    {statement new : Statement} {types? : Option (List Ty)} :
    Statement.Checks inFunction table statement new types? after →
      statement.Fills new types?
  | .recursive _ _ _ hassigned hvalue => .assign hvalue.fills hassigned.length_eq
  | .assign _ _ hvalue hassigned => .assign hvalue.fills hassigned.length_eq
  | .result hexpressions => .result hexpressions.fills.1 hexpressions.fills.2

theorem Statement.ChecksAll.fills {inFunction : Bool} {table after : SymbolTable}
    {statements new : List Statement} {candidates : List (List Ty)} :
    Statement.ChecksAll inFunction table statements new candidates after →
      Statement.FillsAll statements new candidates
  | .nil _ _ => ⟨rfl, rfl, by simp [Statement.preorderAll]⟩
  | .cons hfirst hothers => hothers.fills.cons hfirst.fills

end

private theorem Expr.fills_of_check (expression : Expr) {line : Nat} {bound : Bool}
    {table after : SymbolTable} {new : Expr} {types : List Ty}
    (h : (expression.check line bound).Yields table (new, types) after) :
    expression.Fills new types :=
  (expression.checks_of_yields h).fills

private theorem Statement.fillsAll_of_checkAll (statements : List Statement)
    {inFunction : Bool} {table after : SymbolTable} {new : List Statement}
    {candidates : List (List Ty)}
    (h : (Statement.checkAll inFunction statements).Yields table
      (new, candidates) after) :
    Statement.FillsAll statements new candidates :=
  (Statement.checksAll_of_yields statements h).fills

private theorem Statement.Checks.types?_eq_none {table after : SymbolTable}
    {statement new : Statement} {types? : Option (List Ty)}
    (h : Statement.Checks false table statement new types? after) :
    types? = none := by
  cases h <;> rfl

private theorem Statement.ChecksAll.candidates_eq_nil {table after : SymbolTable}
    {statements new : List Statement} {candidates : List (List Ty)} :
    Statement.ChecksAll false table statements new candidates after →
      candidates = []
  | .nil _ _ => rfl
  | .cons hfirst hothers => by
      rw [hfirst.types?_eq_none, hothers.candidates_eq_nil]
      rfl

private theorem Statement.candidates_of_checkAll_false
    {statements new : List Statement} {candidates : List (List Ty)}
    {table after : SymbolTable}
    (h :
      (Statement.checkAll false statements).Yields table (new, candidates) after) :
    candidates = [] :=
  (Statement.checksAll_of_yields statements h).candidates_eq_nil

/-- A check keeps the tree and fills its type fields: the types that it reports for
an expression are those of the new expression, and every node of a checked program
fits the types of its children. -/
theorem Program.check_wellTyped :
    (∀ (expression new : Expr) (line : Nat) (bound : Bool)
          (table after : SymbolTable) (types : List Ty),
        (expression.check line bound).Yields table (new, types) after →
        types = new.types) ∧
      (∀ (program new : Program) (table after : SymbolTable),
        program.check.Yields table new after →
        new.erased = program.erased ∧
          ∀ entry ∈ new.preorder, entry.2.LocallyTyped) := by
  refine ⟨?_, ?_⟩
  · intro expression new line bound table after types h
    exact (expression.fills_of_check h).types_eq
  · intro program new table after h
    obtain ⟨candidates, hstatements⟩ := Program.check_iff.1 h
    have hfills := Statement.fillsAll_of_checkAll program.statements hstatements
    refine ⟨congrArg Program.mk hfills.erased_eq, ?_⟩
    intro entry hentry
    simp only [Program.preorder, List.mem_cons] at hentry
    rcases hentry with rfl | rfl | hentry
    · show Statement.resultTypes new.statements = []
      rw [← hfills.types_eq]
      exact Statement.candidates_of_checkAll_false hstatements
    · trivial
    · exact hfills.fits _ entry hentry

def Program.factorial : Program := ⟨[
  .assign [⟨"xs", none⟩] (.array none [.int 3, .int 5]) 1,
  .assign [⟨"factorial", none⟩]
    (.function [⟨"n", some .int⟩] [.int] false
      [.result [.conditional (.operator .eq none (.named "n") (.int 0)) (.int 1)
        (.operator .mul none (.named "n")
          (.apply (.named "factorial")
            [.operator .sub none (.named "n") (.int 1)] [])) []] 2] none) 2,
  .assign [⟨"size", none⟩]
    (.apply (.named "factorial") [.apply (.named "length") [.named "xs"] []] []) 3]⟩

theorem Program.factorial_wellTyped :
    (∃ new types after, ((Expr.array none [.int 3, .int 5]).check 1 true).Yields
          .empty (new, types) after ∧
        types = new.types) ∧
      ∃ new after, Program.factorial.check.Yields .empty new after ∧
        new.erased = Program.factorial.erased ∧
        ∀ entry ∈ new.preorder, entry.2.LocallyTyped :=
  ⟨⟨_, _, _, rfl,
    Program.check_wellTyped.1 (.array none [.int 3, .int 5]) _ 1 true .empty .empty
      _ rfl⟩,
    ⟨_, _, rfl, Program.check_wellTyped.2 Program.factorial _ .empty _ rfl⟩⟩

end ExprLang
