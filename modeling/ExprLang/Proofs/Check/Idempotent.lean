import ExprLang.Proofs.Check.WellTyped

/-!
# Checking a checked program

A check writes types that the same check accepts: from the same table, the new tree
passes unchanged and leaves the same table.  A derivation for a tree becomes one for
the new tree when every rule reads its own output again.
-/

namespace ExprLang

open Checker

/-! ## References in trees without types -/

mutual

theorem Expr.refersTo_erased (name : String) : (expression : Expr) →
    expression.erased.refersTo name = expression.refersTo name
  | .reference _ | .int _ | .float _ | .string _ | .bool _ => rfl
  | .function _ _ _ body _ => Statement.anyRefersTo_erasedAll name body
  | .apply callee arguments _ => by
      simp [Expr.erased, Expr.refersTo, callee.refersTo_erased,
        Expr.anyRefersTo_erasedAll name arguments]
  | .conditional condition thenBranch elseBranch _ => by
      simp [Expr.erased, Expr.refersTo, condition.refersTo_erased,
        thenBranch.refersTo_erased, elseBranch.refersTo_erased]
  | .operator _ _ left right => by
      simp [Expr.erased, Expr.refersTo, left.refersTo_erased, right.refersTo_erased]
  | .array _ elements => Expr.anyRefersTo_erasedAll name elements

theorem Expr.anyRefersTo_erasedAll (name : String) :
    (expressions : List Expr) →
      Expr.anyRefersTo name (Expr.erasedAll expressions) =
        Expr.anyRefersTo name expressions
  | [] => rfl
  | expression :: expressions => by
      simp [Expr.erasedAll, Expr.anyRefersTo, expression.refersTo_erased,
        Expr.anyRefersTo_erasedAll name expressions]

theorem Statement.refersTo_erased (name : String) : (statement : Statement) →
    statement.erased.refersTo name = statement.refersTo name
  | .assign _ value _ => value.refersTo_erased name
  | .result expressions _ => Expr.anyRefersTo_erasedAll name expressions

theorem Statement.anyRefersTo_erasedAll (name : String) :
    (statements : List Statement) →
      Statement.anyRefersTo name (Statement.erasedAll statements) =
        Statement.anyRefersTo name statements
  | [] => rfl
  | statement :: statements => by
      simp [Statement.erasedAll, Statement.anyRefersTo, statement.refersTo_erased,
        Statement.anyRefersTo_erasedAll name statements]

end

theorem Statement.FillsAll.anyRefersTo_eq {old new : List Statement}
    {candidates : List (List Ty)} (h : Statement.FillsAll old new candidates)
    (name : String) :
    Statement.anyRefersTo name new = Statement.anyRefersTo name old := by
  rw [← Statement.anyRefersTo_erasedAll, h.erased_eq,
    Statement.anyRefersTo_erasedAll]

private theorem Checker.selfReferring_erased {targets : List Variable}
    {value : Expr} :
    SelfReferring (targets.map fun target => ⟨target.name, none⟩) value.erased ↔
      SelfReferring targets value := by
  cases targets with
  | nil => exact Iff.rfl
  | cons target others =>
      cases others with
      | nil =>
          cases value with
          | function arguments returns returnsOmitted body signature? =>
              simp [SelfReferring, Expr.erased, Statement.anyRefersTo_erasedAll]
          | _ => simp [SelfReferring, Expr.erased]
      | cons other others => simp [SelfReferring]

theorem Statement.Fills.selfReferring_iff {targets newTargets : List Variable}
    {value new : Expr} {line : Nat} {types? : Option (List Ty)}
    (h : (Statement.assign targets value line).Fills
      (.assign newTargets new line) types?) :
    SelfReferring newTargets new ↔ SelfReferring targets value := by
  obtain ⟨htargets, hvalue, -⟩ := Statement.assign.inj h.erased_eq
  rw [← selfReferring_erased, htargets, hvalue, selfReferring_erased]

/-! ## Assignments -/

theorem Checker.AssignedAll.again {table after : SymbolTable}
    {targets : List Variable} {types : List Ty}
    (h : AssignedAll table targets types after) :
    AssignedAll table (typed targets types) types after := by
  induction h with
  | nil table => exact .nil table
  | @cons _ _ _ target _ type _ _ hhole hassigned _ ih =>
      refine .cons ?_ hhole hassigned ih
      rintro _ ⟨⟩
      exact Ty.same_refl type

theorem Checker.typed_typed (targets : List Variable) (types : List Ty) :
    typed (typed targets types) types = typed targets types := by
  induction targets generalizing types with
  | nil => rfl
  | cons target targets ih =>
      cases types with
      | nil => rfl
      | cons type types => exact congrArg _ (ih types)

/-! ## Derivations -/

mutual

theorem Expr.Checks.again {line : Nat} {bound : Bool} {table after : SymbolTable}
    {expression new : Expr} {types : List Ty} :
    Expr.Checks line bound table expression new types after →
      Expr.Checks line bound table new new types after
  | .int _ _ _ value => .int _ _ _ value
  | .float _ _ _ value => .float _ _ _ value
  | .string _ _ _ value => .string _ _ _ value
  | .bool _ _ _ value => .bool _ _ _ value
  | .reference _ _ htype => .reference _ _ htype
  | .operator hleft hright hoperand => .operator hleft.again hright.again hoperand
  | .conditional hcondition hthen helse htypes =>
      .conditional hcondition.again hthen.again helse.again htypes
  | .array helements hsame => .array helements.again hsame
  | .apply harguments hcallee htypes => .apply harguments.again hcallee.again htypes
  | .function htypes hbody hresults => by
      -- Omitted return types are found again, although the first check has filled
      -- them in.
      refine .function htypes hbody.again ?_
      split
      · rwa [if_pos ‹_›] at hresults
      · rfl

theorem Expr.ChecksEach.again {line : Nat} {table after : SymbolTable}
    {expressions new : List Expr} {types : List Ty} :
    Expr.ChecksEach line table expressions new types after →
      Expr.ChecksEach line table new new types after
  | .nil line table => .nil line table
  | .cons hfirst hhole hothers => .cons hfirst.again hhole hothers.again

theorem Expr.ChecksResults.again {line : Nat} {table after : SymbolTable}
    {expressions new : List Expr} {types : List Ty} :
    Expr.ChecksResults line table expressions new types after →
      Expr.ChecksResults line table new new types after
  | .nil line table => .nil line table
  | .cons hfirst hhole hothers => .cons hfirst.again hhole hothers.again

theorem Statement.Checks.again {inFunction : Bool} {table after : SymbolTable}
    {statement new : Statement} {types? : Option (List Ty)} :
    Statement.Checks inFunction table statement new types? after →
      Statement.Checks inFunction table new new types? after
  | .recursive inFunction hrefers htypes hassigned
      (.function hdeclared hbody hresults) => by
      rw [← hbody.fills.anyRefersTo_eq] at hrefers
      exact .recursive inFunction hrefers htypes hassigned.again
        (.function hdeclared hbody.again hresults)
  | .assign inFunction hplain hvalue hassigned => by
      have hfills :=
        (Statement.Checks.assign inFunction hplain hvalue hassigned).fills
      have hagain :=
        Statement.Checks.assign inFunction (mt hfills.selfReferring_iff.1 hplain)
          (hassigned.length_typed ▸ hvalue.again) hassigned.again
      rwa [typed_typed] at hagain
  | .result hexpressions => .result hexpressions.again

theorem Statement.ChecksAll.again {inFunction : Bool} {table after : SymbolTable}
    {statements new : List Statement} {candidates : List (List Ty)} :
    Statement.ChecksAll inFunction table statements new candidates after →
      Statement.ChecksAll inFunction table new new candidates after
  | .nil inFunction table => .nil inFunction table
  | .cons hfirst hothers => .cons hfirst.again hothers.again

end

/-- Checking is idempotent: a checked program passes the check it came from, and
nothing changes, neither in the program nor in the table that is left. -/
theorem Program.check_checked (program new : Program) (table after : SymbolTable)
    (h : program.check.Yields table new after) :
    new.check.Yields table new after := by
  obtain ⟨candidates, hchecks⟩ := Program.check_iff_checksAll.1 h
  exact Program.check_iff_checksAll.2 ⟨candidates, hchecks.again⟩

def Program.inferred : Program := ⟨[
  .assign [⟨"first", none⟩]
    (.function [⟨"xs", some (.array .int)⟩] [] true
      [.result [.apply (.named "get") [.named "xs", .int 0] []] 1] none) 1,
  .assign [⟨"countdown", none⟩]
    (.function [⟨"n", some .int⟩] [.int] false
      [.result [.conditional (.operator .lessEq none (.named "n") (.int 0))
        (.named "n")
        (.apply (.named "countdown")
          [.operator .sub none (.named "n") (.int 1)] []) []] 2] none) 2,
  .assign [⟨"end", some .int⟩]
    (.apply (.named "countdown")
      [.apply (.named "first") [.array none [.int 3, .int 5]] []] []) 3]⟩

theorem Program.inferred_check_checked :
    ∃ new after, Program.inferred.check.Yields .empty new after ∧
      new.check.Yields .empty new after := by
  have hcheck : ∃ new after, Program.inferred.check.Yields .empty new after :=
    ⟨_, _, rfl⟩
  obtain ⟨new, after, hcheck⟩ := hcheck
  exact ⟨new, after, hcheck,
    Program.check_checked Program.inferred new .empty after hcheck⟩

end ExprLang
