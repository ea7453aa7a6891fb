import ExprLang.Proofs.Check.Tree

/-!
# Derivations of checks

Successful checks as derivations, with one rule for each kind of tree: from a table
and a tree to the new tree, its types and the table afterwards.  Facts about checked
trees go by recursion over derivations.
-/

namespace ExprLang

open Checker

mutual

inductive Expr.Checks :
    Nat → Bool → SymbolTable → Expr → Expr → List Ty → SymbolTable → Prop
  | int (line : Nat) (bound : Bool) (table : SymbolTable) (value : Int64) :
      Expr.Checks line bound table (.int value) (.int value) [.int] table
  | float (line : Nat) (bound : Bool) (table : SymbolTable) (value : Binary64) :
      Expr.Checks line bound table (.float value) (.float value) [.float] table
  | string (line : Nat) (bound : Bool) (table : SymbolTable) (value : String) :
      Expr.Checks line bound table (.string value) (.string value) [.string] table
  | bool (line : Nat) (bound : Bool) (table : SymbolTable) (value : Bool) :
      Expr.Checks line bound table (.bool value) (.bool value) [.bool] table
  | reference (line : Nat) (bound : Bool) {table : SymbolTable} {target : Variable}
      {type : Ty} (htype : table.typeOf? target.name = some type) :
      Expr.Checks line bound table (.reference target)
        (.reference ⟨target.name, some type⟩) [type] table
  | operator {line : Nat} {bound : Bool} {table middle after : SymbolTable}
      {op : Operator} {operandType? : Option Ty}
      {left right newLeft newRight : Expr} {leftTypes rightTypes : List Ty}
      {operand : Ty}
      (hleft : Expr.Checks line false table left newLeft leftTypes middle)
      (hright : Expr.Checks line false middle right newRight rightTypes after)
      (hoperand : Rule.operand op leftTypes rightTypes = .ok operand) :
      Expr.Checks line bound table (.operator op operandType? left right)
        (.operator op (some operand) newLeft newRight) [op.resultType operand] after
  | conditional {line : Nat} {bound : Bool} {table first second after : SymbolTable}
      {condition thenBranch elseBranch newCondition newThen newElse : Expr}
      {conditionTypes thenTypes elseTypes returns types : List Ty}
      (hcondition :
        Expr.Checks line false table condition newCondition conditionTypes first)
      (hthen : Expr.Checks line false first thenBranch newThen thenTypes second)
      (helse : Expr.Checks line false second elseBranch newElse elseTypes after)
      (htypes : Rule.Branches conditionTypes thenTypes elseTypes types) :
      Expr.Checks line bound table
        (.conditional condition thenBranch elseBranch returns)
        (.conditional newCondition newThen newElse types) types after
  | array {line : Nat} {bound : Bool} {table after : SymbolTable}
      {elementType? : Option Ty} {elements newElements : List Expr} {type : Ty}
      {types : List Ty}
      (helements :
        Expr.ChecksEach line table elements newElements (type :: types) after)
      (hsame : ∀ other ∈ types, type.same other = true) :
      Expr.Checks line bound table (.array elementType? elements)
        (.array (some type) newElements) [.array type] after
  | apply {line : Nat} {bound : Bool} {table middle after : SymbolTable}
      {callee newCallee : Expr} {arguments newArguments : List Expr}
      {actuals calleeTypes returns types : List Ty}
      (harguments :
        Expr.ChecksEach line table arguments newArguments actuals middle)
      (hcallee : Expr.Checks line false middle callee newCallee calleeTypes after)
      (htypes : Rule.application calleeTypes actuals = .ok types) :
      Expr.Checks line bound table (.apply callee arguments returns)
        (.apply newCallee newArguments types) types after
  | function {line : Nat} {bound : Bool} {table inner : SymbolTable}
      {arguments : List Variable} {types returns results : List Ty}
      {returnsOmitted : Bool} {body newBody : List Statement}
      {candidates : List (List Ty)} {signature? : Option Signature}
      (htypes : arguments.map Variable.type? = types.map some)
      (hbody : Statement.ChecksAll true
        (table.enter ((arguments.map Variable.name).zip types)) body newBody
        candidates inner)
      (hresults :
        if returnsOmitted then candidates = [results] else results = returns) :
      Expr.Checks line bound table
        (.function arguments returns returnsOmitted body signature?)
        (.function arguments results returnsOmitted newBody
          (some ⟨types, results, none⟩)) [.function types results none]
        (if bound then inner.leave else inner.leave.reserve.2)

inductive Expr.ChecksEach :
    Nat → SymbolTable → List Expr → List Expr → List Ty → SymbolTable → Prop
  | nil (line : Nat) (table : SymbolTable) :
      Expr.ChecksEach line table [] [] [] table
  | cons {line : Nat} {table middle after : SymbolTable} {expression new : Expr}
      {expressions others : List Expr} {type : Ty} {types : List Ty}
      (hfirst : Expr.Checks line false table expression new [type] middle)
      (hhole : type.hasHole = false)
      (hothers : Expr.ChecksEach line middle expressions others types after) :
      Expr.ChecksEach line table (expression :: expressions) (new :: others)
        (type :: types) after

inductive Expr.ChecksResults :
    Nat → SymbolTable → List Expr → List Expr → List Ty → SymbolTable → Prop
  | nil (line : Nat) (table : SymbolTable) :
      Expr.ChecksResults line table [] [] [] table
  | cons {line : Nat} {table middle after : SymbolTable} {expression new : Expr}
      {expressions others : List Expr} {types otherTypes : List Ty}
      (hfirst : Expr.Checks line false table expression new types middle)
      (hhole : Ty.anyHasHole types = false)
      (hothers :
        Expr.ChecksResults line middle expressions others otherTypes after) :
      Expr.ChecksResults line table (expression :: expressions) (new :: others)
        (types ++ otherTypes) after

inductive Statement.Checks :
    Bool → SymbolTable → Statement → Statement → Option (List Ty) → SymbolTable →
      Prop
  /-- The name is assigned before the function that refers to it is checked. -/
  | recursive (inFunction : Bool) {table middle after : SymbolTable}
      {target : Variable} {arguments : List Variable} {types returns : List Ty}
      {body : List Statement} {signature? : Option Signature} {new : Expr}
      {line : Nat} (hrefers : Statement.anyRefersTo target.name body = true)
      (htypes : arguments.map Variable.type? = types.map some)
      (hassigned : AssignedAll table [target] [.function types returns none] middle)
      (hvalue : Expr.Checks line true middle
        (.function arguments returns false body signature?) new
        [.function types returns none] after) :
      Statement.Checks inFunction table
        (.assign [target] (.function arguments returns false body signature?) line)
        (.assign (typed [target]
          [.function types returns none]) new line) none after
  | assign (inFunction : Bool) {table middle after : SymbolTable}
      {targets : List Variable} {value new : Expr} {types : List Ty} {line : Nat}
      (hplain : ¬ SelfReferring targets value)
      (hvalue : Expr.Checks line (targets.length = 1) table value new types middle)
      (hassigned : AssignedAll middle targets types after) :
      Statement.Checks inFunction table (.assign targets value line)
        (.assign (typed targets types) new line) none after
  | result {table after : SymbolTable} {expressions new : List Expr}
      {types : List Ty} {line : Nat}
      (hexpressions : Expr.ChecksResults line table expressions new types after) :
      Statement.Checks true table (.result expressions line) (.result new line)
        (some types) after

inductive Statement.ChecksAll :
    Bool → SymbolTable → List Statement → List Statement → List (List Ty) →
      SymbolTable → Prop
  | nil (inFunction : Bool) (table : SymbolTable) :
      Statement.ChecksAll inFunction table [] [] [] table
  | cons {inFunction : Bool} {table middle after : SymbolTable}
      {statement new : Statement} {statements others : List Statement}
      {types? : Option (List Ty)} {candidates : List (List Ty)}
      (hfirst : Statement.Checks inFunction table statement new types? middle)
      (hothers :
        Statement.ChecksAll inFunction middle statements others candidates after) :
      Statement.ChecksAll inFunction table (statement :: statements) (new :: others)
        (types?.toList ++ candidates) after

end

/-! ## From runs to derivations -/

mutual

theorem Expr.checks_of_yields :
    (expression : Expr) → ∀ {line : Nat} {bound : Bool} {table after : SymbolTable}
          {new : Expr} {types : List Ty},
        (expression.check line bound).Yields table (new, types) after →
        Expr.Checks line bound table expression new types after
  | .int value => by
      intro h
      simp only [Expr.check, Expr.walk, yields_pure_iff, Prod.mk.injEq] at h
      obtain ⟨⟨rfl, rfl⟩, rfl⟩ := h
      exact .int _ _ _ value
  | .float value => by
      intro h
      simp only [Expr.check, Expr.walk, yields_pure_iff, Prod.mk.injEq] at h
      obtain ⟨⟨rfl, rfl⟩, rfl⟩ := h
      exact .float _ _ _ value
  | .string value => by
      intro h
      simp only [Expr.check, Expr.walk, yields_pure_iff, Prod.mk.injEq] at h
      obtain ⟨⟨rfl, rfl⟩, rfl⟩ := h
      exact .string _ _ _ value
  | .bool value => by
      intro h
      simp only [Expr.check, Expr.walk, yields_pure_iff, Prod.mk.injEq] at h
      obtain ⟨⟨rfl, rfl⟩, rfl⟩ := h
      exact .bool _ _ _ value
  | .reference target => by
      intro h
      obtain ⟨type, htype, rfl, hresult⟩ := Expr.check_reference_iff.1 h
      obtain ⟨rfl, rfl⟩ := Prod.mk.inj hresult
      exact .reference _ _ htype
  | .operator op operandType? left right => by
      intro h
      obtain ⟨_, _, _, _, _, operand, hleft, hright, hoperand, hresult⟩ :=
        Expr.check_operator_iff.1 h
      obtain ⟨rfl, rfl⟩ := Prod.mk.inj hresult
      exact .operator (left.checks_of_yields hleft)
        (right.checks_of_yields hright) hoperand
  | .conditional condition thenBranch elseBranch returns => by
      intro h
      obtain ⟨_, _, _, _, _, _, _, _, _, hcondition, hthen, helse, htypes,
          hresult⟩ := Expr.check_conditional_iff.1 h
      obtain ⟨rfl, rfl⟩ := Prod.mk.inj hresult
      exact .conditional (condition.checks_of_yields hcondition)
        (thenBranch.checks_of_yields hthen)
        (elseBranch.checks_of_yields helse) htypes
  | .array elementType? elements => by
      intro h
      obtain ⟨hnonempty, _, type?, helements, hresult⟩ := Expr.check_array_iff.1 h
      obtain ⟨types, harguments, hhead, hsame⟩ := Expr.checkElements_iff.1 helements
      obtain ⟨rfl, rfl⟩ := Prod.mk.inj hresult
      have heach := Expr.checksEach_of_yields elements harguments
      cases heach with
      | nil => exact absurd rfl hnonempty
      | @cons _ _ _ _ _ _ _ _ type types hfirst hhole hothers =>
          obtain rfl : type? = some type := by simpa using hhead
          exact .array (.cons hfirst hhole hothers) fun other hother =>
            hsame type rfl other (List.mem_cons_of_mem _ hother)
  | .apply callee arguments returns => by
      intro h
      obtain ⟨_, _, _, _, _, _, harguments, hcallee, htypes, hresult⟩ :=
        Expr.check_apply_iff.1 h
      obtain ⟨rfl, rfl⟩ := Prod.mk.inj hresult
      exact .apply (Expr.checksEach_of_yields arguments harguments)
        (callee.checks_of_yields hcallee) htypes
  | .function arguments returns returnsOmitted body signature? => by
      intro h
      obtain ⟨_, _, _, _, _, htypes, hbody, hresults, rfl, hresult⟩ :=
        Expr.check_function_iff.1 h
      obtain ⟨rfl, rfl⟩ := Prod.mk.inj hresult
      exact .function htypes (Statement.checksAll_of_yields body hbody) hresults

theorem Expr.checksEach_of_yields :
    (expressions : List Expr) → ∀ {line : Nat} {table after : SymbolTable}
          {new : List Expr} {types : List Ty},
        (Expr.checkArguments line expressions).Yields table (new, types) after →
        Expr.ChecksEach line table expressions new types after
  | [] => by
      intro h
      obtain ⟨hresult, rfl⟩ := Expr.checkArguments_nil_iff.1 h
      obtain ⟨rfl, rfl⟩ := Prod.mk.inj hresult
      exact .nil _ _
  | expression :: expressions => by
      intro h
      obtain ⟨_, _, _, _, _, hfirst, hhole, hothers, hresult⟩ :=
        Expr.checkArguments_cons_iff.1 h
      obtain ⟨rfl, rfl⟩ := Prod.mk.inj hresult
      exact .cons (expression.checks_of_yields hfirst) hhole
        (Expr.checksEach_of_yields expressions hothers)

theorem Expr.checksResults_of_yields :
    (expressions : List Expr) → ∀ {line : Nat} {table after : SymbolTable}
          {new : List Expr} {types : List Ty},
        (Expr.checkResults line expressions).Yields table (new, types) after →
        Expr.ChecksResults line table expressions new types after
  | [] => by
      intro h
      obtain ⟨hresult, rfl⟩ := Expr.checkResults_nil_iff.1 h
      obtain ⟨rfl, rfl⟩ := Prod.mk.inj hresult
      exact .nil _ _
  | expression :: expressions => by
      intro h
      obtain ⟨_, _, _, _, _, hfirst, hhole, hothers, hresult⟩ :=
        Expr.checkResults_cons_iff.1 h
      obtain ⟨rfl, rfl⟩ := Prod.mk.inj hresult
      exact .cons (expression.checks_of_yields hfirst) hhole
        (Expr.checksResults_of_yields expressions hothers)

theorem Statement.checks_of_yields :
    (statement : Statement) → ∀ {inFunction : Bool} {table after : SymbolTable}
          {new : Statement} {types? : Option (List Ty)},
        (statement.check inFunction).Yields table (new, types?) after →
        Statement.Checks inFunction table statement new types? after
  | .assign targets value line => by
      intro h
      rcases Statement.check_assign_iff.1 h with
        ⟨_, _, _, _, _, _, _, _, _, rfl, hvalue, hrefers, htypes, hassigned, hcheck,
          hresult⟩ |
        ⟨_, _, _, hplain, hcheck, hassigned, hresult⟩
      · obtain ⟨rfl, rfl⟩ := Prod.mk.inj hresult
        obtain rfl := Expr.types_of_check_declared hvalue htypes hcheck
        have hchecks := value.checks_of_yields hcheck
        subst hvalue
        exact .recursive _ hrefers htypes hassigned hchecks
      · obtain ⟨rfl, rfl⟩ := Prod.mk.inj hresult
        exact .assign _ hplain (value.checks_of_yields hcheck) hassigned
  | .result expressions line => by
      intro h
      obtain ⟨rfl, _, _, hexpressions, hresult⟩ := Statement.check_result_iff.1 h
      obtain ⟨rfl, rfl⟩ := Prod.mk.inj hresult
      exact .result (Expr.checksResults_of_yields expressions hexpressions)

theorem Statement.checksAll_of_yields :
    (statements : List Statement) →
      ∀ {inFunction : Bool} {table after : SymbolTable} {new : List Statement}
          {candidates : List (List Ty)},
        (Statement.checkAll inFunction statements).Yields table
          (new, candidates) after →
        Statement.ChecksAll inFunction table statements new candidates after
  | [] => by
      intro h
      obtain ⟨hresult, rfl⟩ := Statement.checkAll_nil_iff.1 h
      obtain ⟨rfl, rfl⟩ := Prod.mk.inj hresult
      exact .nil _ _
  | statement :: statements => by
      intro h
      obtain ⟨_, _, _, _, _, hfirst, hothers, hresult⟩ :=
        Statement.checkAll_cons_iff.1 h
      obtain ⟨rfl, rfl⟩ := Prod.mk.inj hresult
      exact .cons (statement.checks_of_yields hfirst)
        (Statement.checksAll_of_yields statements hothers)

end

/-! ## From derivations to runs -/

mutual

theorem Expr.Checks.yields {line : Nat} {bound : Bool} {table after : SymbolTable}
    {expression new : Expr} {types : List Ty} :
    Expr.Checks line bound table expression new types after →
      (expression.check line bound).Yields table (new, types) after
  | .int _ _ _ _ | .float _ _ _ _ | .string _ _ _ _ | .bool _ _ _ _ => by
      simp [Expr.walk]
  | .reference _ _ htype => Expr.check_reference_iff.2 ⟨_, htype, rfl, rfl⟩
  | .operator hleft hright hoperand =>
      Expr.check_operator_iff.2 ⟨_, _, _, _, _, _, hleft.yields, hright.yields,
        hoperand, rfl⟩
  | .conditional hcondition hthen helse htypes =>
      Expr.check_conditional_iff.2 ⟨_, _, _, _, _, _, _, _, _, hcondition.yields,
        hthen.yields, helse.yields, htypes, rfl⟩
  | .array helements hsame => by
      refine Expr.check_array_iff.2
        ⟨?_, _, _, Expr.checkElements_iff.2 ⟨_, helements.yields, rfl, ?_⟩, rfl⟩
      · rintro rfl
        cases helements
      · rintro _ ⟨⟩ other hother
        rcases List.mem_cons.1 hother with rfl | hother
        · exact Ty.same_refl _
        · exact hsame other hother
  | .apply harguments hcallee htypes =>
      Expr.check_apply_iff.2 ⟨_, _, _, _, _, _, harguments.yields, hcallee.yields,
        htypes, rfl⟩
  | .function htypes hbody hresults =>
      Expr.check_function_iff.2 ⟨_, _, _, _, _, htypes, hbody.yields, hresults, rfl,
        rfl⟩

theorem Expr.ChecksEach.yields {line : Nat} {table after : SymbolTable}
    {expressions new : List Expr} {types : List Ty} :
    Expr.ChecksEach line table expressions new types after →
      (Expr.checkArguments line expressions).Yields table (new, types) after
  | .nil _ _ => Expr.checkArguments_nil_iff.2 ⟨rfl, rfl⟩
  | .cons hfirst hhole hothers =>
      Expr.checkArguments_cons_iff.2 ⟨_, _, _, _, _, hfirst.yields, hhole,
        hothers.yields, rfl⟩

theorem Expr.ChecksResults.yields {line : Nat} {table after : SymbolTable}
    {expressions new : List Expr} {types : List Ty} :
    Expr.ChecksResults line table expressions new types after →
      (Expr.checkResults line expressions).Yields table (new, types) after
  | .nil _ _ => Expr.checkResults_nil_iff.2 ⟨rfl, rfl⟩
  | .cons hfirst hhole hothers =>
      Expr.checkResults_cons_iff.2 ⟨_, _, _, _, _, hfirst.yields, hhole,
        hothers.yields, rfl⟩

theorem Statement.Checks.yields {inFunction : Bool} {table after : SymbolTable}
    {statement new : Statement} {types? : Option (List Ty)} :
    Statement.Checks inFunction table statement new types? after →
      (statement.check inFunction).Yields table (new, types?) after
  | .recursive _ hrefers htypes hassigned hvalue =>
      Statement.check_assign_iff.2 (.inl ⟨_, _, _, _, _, _, _, _, _, rfl, rfl,
        hrefers, htypes, hassigned, hvalue.yields, rfl⟩)
  | .assign _ hplain hvalue hassigned =>
      Statement.check_assign_iff.2 (.inr ⟨_, _, _, hplain, hvalue.yields, hassigned,
        rfl⟩)
  | .result hexpressions =>
      Statement.check_result_iff.2 ⟨rfl, _, _, hexpressions.yields, rfl⟩

theorem Statement.ChecksAll.yields {inFunction : Bool} {table after : SymbolTable}
    {statements new : List Statement} {candidates : List (List Ty)} :
    Statement.ChecksAll inFunction table statements new candidates after →
      (Statement.checkAll inFunction statements).Yields table
        (new, candidates) after
  | .nil _ _ => Statement.checkAll_nil_iff.2 ⟨rfl, rfl⟩
  | .cons hfirst hothers =>
      Statement.checkAll_cons_iff.2 ⟨_, _, _, _, _, hfirst.yields, hothers.yields,
        rfl⟩

end

theorem Program.check_iff_checksAll {program new : Program}
    {table after : SymbolTable} :
    program.check.Yields table new after ↔
      ∃ candidates, Statement.ChecksAll false table program.statements
        new.statements candidates after := by
  rw [Program.check_iff]
  constructor
  · rintro ⟨candidates, h⟩
    exact ⟨candidates, Statement.checksAll_of_yields program.statements h⟩
  · rintro ⟨candidates, h⟩
    exact ⟨candidates, h.yields⟩

end ExprLang
