import ExprLang.Proofs.Check.Yields

/-!
# Successful checks of trees

What the parts of an expression or a statement yield when the whole does, one
statement for each form.
-/

namespace ExprLang

open Checker

variable {line : Nat} {bound : Bool} {table after : SymbolTable}

namespace Expr

variable {result : Expr × List Ty}

theorem check_reference_iff {target : Variable} :
    ((Expr.reference target).check line bound).Yields table result after ↔
      ∃ type, table.typeOf? target.name = some type ∧ after = table ∧
        result = (.reference ⟨target.name, some type⟩, [type]) := by
  simp only [check, walk, now_bind, walker_typeOf, yields_bind_iff,
    yields_typeOf_iff, yields_pure_iff]
  constructor
  · rintro ⟨type, _, ⟨htype, rfl⟩, rfl, rfl⟩
    exact ⟨type, htype, rfl, rfl⟩
  · rintro ⟨type, htype, rfl, rfl⟩
    exact ⟨type, after, ⟨htype, rfl⟩, rfl, rfl⟩

theorem check_operator_iff {op : Operator} {operandType? : Option Ty}
    {left right : Expr} :
    ((Expr.operator op operandType? left right).check line bound).Yields table
        result after ↔
      ∃ newLeft leftTypes middle newRight rightTypes operand,
        (left.check line false).Yields table (newLeft, leftTypes) middle ∧
        (right.check line false).Yields middle (newRight, rightTypes) after ∧
        Rule.operand op leftTypes rightTypes = .ok operand ∧
        result = (.operator op (some operand) newLeft newRight,
            [op.resultType operand]) := by
  simp only [check, walk, now_bind, yields_bind_iff, yields_require_iff,
    yields_pure_iff, Prod.exists]
  constructor
  · rintro ⟨_, _, _, hleft, _, _, _, hright, _, _, ⟨hoperand, rfl⟩, rfl, rfl⟩
    exact ⟨_, _, _, _, _, _, hleft, hright, hoperand, rfl⟩
  · rintro ⟨_, _, _, _, _, _, hleft, hright, hoperand, rfl⟩
    exact ⟨_, _, _, hleft, _, _, _, hright, _, _, ⟨hoperand, rfl⟩, rfl, rfl⟩

theorem check_conditional_iff {condition thenBranch elseBranch : Expr}
    {returns : List Ty} :
    ((Expr.conditional condition thenBranch elseBranch returns).check line
        bound).Yields table result after ↔
      ∃ newCondition conditionTypes first newThen thenTypes second newElse elseTypes
          types,
        (condition.check line false).Yields table
          (newCondition, conditionTypes) first ∧
        (thenBranch.check line false).Yields first (newThen, thenTypes) second ∧
        (elseBranch.check line false).Yields second (newElse, elseTypes) after ∧
        Rule.Branches conditionTypes thenTypes elseTypes types ∧
        result = (.conditional newCondition newThen newElse types, types) := by
  simp only [check, walk, now_bind, yields_bind_iff, yields_branches_iff,
    yields_pure_iff, Prod.exists]
  constructor
  · rintro ⟨_, _, _, hcondition, _, _, _, hthen, _, _, _, helse, _, _,
      ⟨htypes, rfl⟩, rfl, rfl⟩
    exact ⟨_, _, _, _, _, _, _, _, _, hcondition, hthen, helse, htypes, rfl⟩
  · rintro ⟨_, _, _, _, _, _, _, _, _, hcondition, hthen, helse, htypes, rfl⟩
    exact ⟨_, _, _, hcondition, _, _, _, hthen, _, _, _, helse, _, _, ⟨htypes, rfl⟩,
      rfl, rfl⟩

theorem check_array_iff {elementType? : Option Ty} {elements : List Expr} :
    ((Expr.array elementType? elements).check line bound).Yields table result
        after ↔
      elements ≠ [] ∧ ∃ newElements type?, (Expr.checkElements line 0 none
            elements).Yields table (newElements, type?) after ∧
          result = (.array type? newElements, type?.toList.map .array) := by
  cases elements with
  | nil => simp [walk]
  | cons element elements =>
      simp only [check, walk, now_bind, List.isEmpty_cons, Bool.false_eq_true,
        if_false, yields_bind_iff, yields_pure_iff, Prod.exists, ne_eq,
        reduceCtorEq, not_false_eq_true, true_and]
      constructor
      · rintro ⟨_, _, _, helements, rfl, rfl⟩
        exact ⟨_, _, helements, rfl⟩
      · rintro ⟨_, _, helements, rfl⟩
        exact ⟨_, _, _, helements, rfl, rfl⟩

theorem check_apply_iff {callee : Expr} {arguments : List Expr}
    {returns : List Ty} :
    ((Expr.apply callee arguments returns).check line bound).Yields table result
        after ↔
      ∃ newArguments actuals middle newCallee calleeTypes types,
        (Expr.checkArguments line arguments).Yields table
          (newArguments, actuals) middle ∧
        (callee.check line false).Yields middle (newCallee, calleeTypes) after ∧
        Rule.application calleeTypes actuals = .ok types ∧
        result = (.apply newCallee newArguments types, types) := by
  simp only [check, walk, now_bind, yields_bind_iff, yields_require_iff,
    yields_pure_iff, Prod.exists]
  constructor
  · rintro ⟨_, _, _, harguments, _, _, _, hcallee, _, _, ⟨htypes, rfl⟩, rfl, rfl⟩
    exact ⟨_, _, _, _, _, _, harguments, hcallee, htypes, rfl⟩
  · rintro ⟨_, _, _, _, _, _, harguments, hcallee, htypes, rfl⟩
    exact ⟨_, _, _, harguments, _, _, _, hcallee, _, _, ⟨htypes, rfl⟩, rfl, rfl⟩

theorem check_function_iff {arguments : List Variable} {returns : List Ty}
    {returnsOmitted : Bool} {body : List Statement}
    {signature? : Option Signature} :
    ((Expr.function arguments returns returnsOmitted body signature?).check line
        bound).Yields table result after ↔
      ∃ types newBody candidates inner results,
        arguments.map Variable.type? = types.map some ∧
        (Statement.checkAll true body).Yields
          (table.enter ((arguments.map Variable.name).zip types))
          (newBody, candidates) inner ∧
        (if returnsOmitted then candidates = [results] else results = returns) ∧
        after = (if bound then inner.leave else inner.leave.reserve.2) ∧
        result = (.function arguments results returnsOmitted newBody
            (some ⟨types, results, none⟩),
            [.function types results none]) := by
  simp only [check, walk, Walker.function, now_bind, walker_inFrame, walker_block,
    yields_bind_iff, yields_require_iff, Rule.declared_eq_ok_iff,
    yields_inFrame_iff, Rule.returns_eq_ok_iff, Prod.exists]
  constructor
  · rintro ⟨_, _, ⟨⟨types, htypes, rfl⟩, rfl⟩, _, _, _, ⟨_, hbody, rfl⟩, _, _,
      ⟨hresults, rfl⟩, h⟩
    refine ⟨types, _, _, _, _, htypes, hbody, hresults, ?_⟩
    cases bound <;> simpa [Signature.toTy, and_comm] using h
  · rintro ⟨types, _, _, _, _, htypes, hbody, hresults, hafter, rfl⟩
    refine ⟨_, _, ⟨⟨types, htypes, rfl⟩, rfl⟩, _, _, _, ⟨_, hbody, rfl⟩, _, _,
      ⟨hresults, rfl⟩, ?_⟩
    cases bound <;> simpa [Signature.toTy] using hafter

theorem types_of_check_declared {value newValue : Expr} {arguments : List Variable}
    {types returns valueTypes : List Ty} {body : List Statement}
    {signature? : Option Signature}
    (hvalue : value = .function arguments returns false body signature?)
    (htypes : arguments.map Variable.type? = types.map some)
    (h : (value.check line bound).Yields table (newValue, valueTypes) after) :
    valueTypes = [.function types returns none] := by
  subst hvalue
  obtain ⟨found, _, _, _, results, hfound, -, hresults, -, hresult⟩ :=
    check_function_iff.1 h
  obtain ⟨-, rfl⟩ := Prod.mk.inj hresult
  have heq : found = types :=
    (List.map_inj_right fun _ _ => Option.some.inj).1 (hfound.symm.trans htypes)
  simp only [Bool.false_eq_true, if_false] at hresults
  rw [heq, hresults]

/-! ## Lists of expressions -/

theorem checkArguments_nil_iff {result : List Expr × List Ty} :
    (checkArguments line []).Yields table result after ↔
      result = ([], []) ∧ after = table := by
  simp [walkArguments]

theorem checkArguments_cons_iff {argument : Expr} {arguments : List Expr}
    {result : List Expr × List Ty} :
    (checkArguments line (argument :: arguments)).Yields table result after ↔
      ∃ newArgument type middle newArguments types,
        (argument.check line false).Yields table (newArgument, [type]) middle ∧
        type.hasHole = false ∧
        (checkArguments line arguments).Yields middle (newArguments, types) after ∧
        result = (newArgument :: newArguments, type :: types) := by
  simp only [checkArguments, walkArguments, yields_bind_iff, yields_single_iff,
    yields_pure_iff, Prod.exists]
  constructor
  · rintro ⟨_, _, _, hargument, _, _, ⟨⟨rfl, hhole⟩, rfl⟩, _, _, _, harguments, rfl,
      rfl⟩
    exact ⟨_, _, _, _, _, hargument, hhole, harguments, rfl⟩
  · rintro ⟨_, _, _, _, _, hargument, hhole, harguments, rfl⟩
    exact ⟨_, _, _, hargument, _, _, ⟨⟨rfl, hhole⟩, rfl⟩, _, _, _, harguments, rfl,
      rfl⟩

theorem checkElements_iff {index : Nat} {expected? type? : Option Ty}
    {elements newElements : List Expr} :
    (checkElements line index expected? elements).Yields table
        (newElements, type?) after ↔
      ∃ types,
        (checkArguments line elements).Yields table (newElements, types) after ∧
        type? = expected?.or types.head? ∧
        ∀ expected,
          type? = some expected → ∀ type ∈ types, expected.same type = true := by
  induction elements generalizing index expected? type? newElements table after with
  | nil =>
      simp only [checkElements, walkElements, yields_pure_iff, checkArguments,
        walkArguments, Prod.mk.injEq]
      constructor
      · rintro ⟨⟨rfl, rfl⟩, rfl⟩
        exact ⟨[], ⟨⟨rfl, rfl⟩, rfl⟩, by simp, by simp⟩
      · rintro ⟨_, ⟨⟨rfl, rfl⟩, rfl⟩, hhead, -⟩
        exact ⟨⟨rfl, by simpa using hhead⟩, rfl⟩
  | cons element elements ih =>
      simp only [checkElements, walkElements, yields_bind_iff, yields_single_iff,
        yields_require_iff, Rule.element_eq_ok_iff, yields_pure_iff, Prod.exists,
        Prod.mk.injEq, ih, checkArguments_cons_iff]
      constructor
      · rintro ⟨_, _, _, helement, found, _, ⟨⟨rfl, hhole⟩, rfl⟩, expected, _,
          ⟨hexpected, rfl⟩, _, _, _, ⟨types, helements, hhead, hsame⟩, ⟨rfl, rfl⟩,
          rfl⟩
        refine ⟨found :: types,
          ⟨_, found, _, _, types, helement, hhole, helements, rfl, rfl⟩, ?_, ?_⟩
        · rcases hexpected with ⟨rfl, rfl⟩ | ⟨rfl, -⟩ <;> simp [hhead]
        · intro other hother type htype
          simp only [hhead, Option.some_or, Option.some.injEq] at hother
          subst hother
          rcases List.mem_cons.1 htype with rfl | htype
          · rcases hexpected with ⟨-, rfl⟩ | ⟨-, hsame⟩
            · exact Ty.same_refl _
            · exact hsame
          · exact hsame _ (by simp [hhead]) type htype
      · rintro ⟨_,
          ⟨newElement, found, middle, others, types, helement, hhole, helements,
            rfl, rfl⟩,
          hhead, hsame⟩
        refine ⟨newElement, _, middle, helement, found, middle, ⟨⟨rfl, hhole⟩, rfl⟩,
          expected?.getD found, middle, ⟨?_, rfl⟩, others, type?, after,
          ⟨types, helements, ?_, ?_⟩, ⟨rfl, rfl⟩, rfl⟩
        · cases expected? with
          | none => simp
          | some expected => simpa using hsame expected (by simp [hhead]) found
        · cases expected? <;> simpa using hhead
        · intro expected hexpected type htype
          exact hsame expected hexpected type (List.mem_cons_of_mem _ htype)

theorem checkResults_nil_iff {result : List Expr × List Ty} :
    (checkResults line []).Yields table result after ↔
      result = ([], []) ∧ after = table := by
  simp [walkResults]

theorem checkResults_cons_iff {expression : Expr} {expressions : List Expr}
    {result : List Expr × List Ty} :
    (checkResults line (expression :: expressions)).Yields table result after ↔
      ∃ newExpression types middle newExpressions otherTypes,
        (expression.check line false).Yields table (newExpression, types) middle ∧
        Ty.anyHasHole types = false ∧
        (checkResults line expressions).Yields middle
          (newExpressions, otherTypes) after ∧
        result = (newExpression :: newExpressions, types ++ otherTypes) := by
  simp only [checkResults, walkResults, now_bind, yields_bind_iff,
    yields_require_iff, Rule.concrete_eq_ok_iff, yields_pure_iff, Prod.exists]
  constructor
  · rintro ⟨_, _, _, hexpression, _, _, ⟨hhole, rfl⟩, _, _, _, hexpressions, rfl,
      rfl⟩
    exact ⟨_, _, _, _, _, hexpression, hhole, hexpressions, rfl⟩
  · rintro ⟨_, _, _, _, _, hexpression, hhole, hexpressions, rfl⟩
    exact ⟨_, _, _, hexpression, (), _, ⟨hhole, rfl⟩, _, _, _, hexpressions, rfl,
      rfl⟩

end Expr

/-! ## Statements -/

namespace Statement

variable {inFunction : Bool} {result : Statement × Option (List Ty)}

theorem check_assign_iff {targets : List Variable} {value : Expr} {line : Nat} :
    ((Statement.assign targets value line).check inFunction).Yields table result
        after ↔
      (∃ target arguments types returns body signature? middle newValue valueTypes,
          targets = [target] ∧
          value = .function arguments returns false body signature? ∧
          Statement.anyRefersTo target.name body = true ∧
          arguments.map Variable.type? = types.map some ∧
          AssignedAll table targets [.function types returns none] middle ∧
          (value.check line true).Yields middle (newValue, valueTypes) after ∧
          result =
            (.assign (typed targets [.function types returns none]) newValue line,
              none)) ∨
        (∃ newValue types middle, ¬ SelfReferring targets value ∧
          (value.check line (targets.length = 1)).Yields table
            (newValue, types) middle ∧
          AssignedAll middle targets types after ∧
          result = (.assign (typed targets types) newValue line, none)) := by
  simp only [check, walk, Walker.assignment, yields_bind_iff, Prod.exists]
  constructor
  · rintro ⟨results?, middle, hresults, newValue, types, last, hcheck, h⟩
    cases results? with
    | none =>
        obtain ⟨hnot, rfl⟩ := yields_bindRecursive_none_iff.1 hresults
        simp only [yields_bind_iff, yields_bindAll_iff, yields_pure_iff] at h
        obtain ⟨_, _, ⟨hall, rfl⟩, rfl, rfl⟩ := h
        exact .inr ⟨_, _, _, hnot, hcheck, hall, rfl⟩
    | some results =>
        obtain ⟨target, arguments, types, returns, body, signature?, rfl, hvalue,
            hrefers, htypes, hall, rfl⟩ := yields_bindRecursive_some_iff.1 hresults
        obtain ⟨rfl, rfl⟩ := yields_pure_iff.1 h
        exact .inl ⟨target, arguments, types, returns, body, signature?, _, _, _,
            rfl, hvalue, hrefers, htypes, hall, hcheck, rfl⟩
  · rintro (⟨target, arguments, types, returns, body, signature?, middle, newValue,
      valueTypes, rfl, hvalue, hrefers, htypes, hall, hcheck, rfl⟩ |
      ⟨newValue, types, middle, hnot, hvalue, hall, rfl⟩)
    · exact ⟨_, middle,
        yields_bindRecursive_some_iff.2 ⟨target, arguments, types, returns, body,
          signature?, rfl, hvalue, hrefers, htypes, hall, rfl⟩,
        _, _, _, hcheck, yields_pure_iff.2 ⟨rfl, rfl⟩⟩
    · refine ⟨none, table, yields_bindRecursive_none_iff.2 ⟨hnot, rfl⟩, _, _, _,
        hvalue, ?_⟩
      simp only [yields_bind_iff, yields_bindAll_iff, yields_pure_iff]
      exact ⟨_, _, ⟨hall, rfl⟩, rfl, rfl⟩

theorem check_result_iff {expressions : List Expr} {line : Nat} :
    ((Statement.result expressions line).check inFunction).Yields table result
        after ↔
      inFunction = true ∧ ∃ newExpressions types, (Expr.checkResults line
            expressions).Yields table (newExpressions, types) after ∧
          result = (.result newExpressions line, some types) := by
  cases inFunction with
  | false => simp [walk]
  | true =>
      simp only [check, walk, Bool.not_true, Bool.false_eq_true, if_false,
        yields_bind_iff, yields_pure_iff, Prod.exists, true_and]
      constructor
      · rintro ⟨_, _, _, hexpressions, rfl, rfl⟩
        exact ⟨_, _, hexpressions, rfl⟩
      · rintro ⟨_, _, hexpressions, rfl⟩
        exact ⟨_, _, _, hexpressions, rfl, rfl⟩

theorem checkAll_nil_iff {result : List Statement × List (List Ty)} :
    (checkAll inFunction []).Yields table result after ↔
      result = ([], []) ∧ after = table := by
  simp [walkAll]

theorem checkAll_cons_iff {statement : Statement} {statements : List Statement}
    {result : List Statement × List (List Ty)} :
    (checkAll inFunction (statement :: statements)).Yields table result after ↔
      ∃ newStatement types? middle newStatements candidates,
        (statement.check inFunction).Yields table (newStatement, types?) middle ∧
        (checkAll inFunction statements).Yields middle
          (newStatements, candidates) after ∧
        result = (newStatement :: newStatements, types?.toList ++ candidates) := by
  simp only [checkAll, walkAll, walker_onLine, yields_bind_iff, yields_pure_iff,
    Prod.exists]
  constructor
  · rintro ⟨_, _, _, hstatement, _, _, _, hstatements, rfl, rfl⟩
    exact ⟨_, _, _, _, _, hstatement, hstatements, rfl⟩
  · rintro ⟨_, _, _, _, _, hstatement, hstatements, rfl⟩
    exact ⟨_, _, _, hstatement, _, _, _, hstatements, rfl, rfl⟩

end Statement

theorem Program.check_iff {program result : Program} :
    program.check.Yields table result after ↔
      ∃ candidates, (Statement.checkAll false program.statements).Yields table
        (result.statements, candidates) after := by
  simp only [Program.check, Program.walk, walker_block, yields_bind_iff,
    yields_pure_iff, Prod.exists]
  constructor
  · rintro ⟨_, candidates, _, hstatements, rfl, rfl⟩
    exact ⟨candidates, hstatements⟩
  · rintro ⟨candidates, hstatements⟩
    exact ⟨_, candidates, _, hstatements, rfl, rfl⟩

end ExprLang
