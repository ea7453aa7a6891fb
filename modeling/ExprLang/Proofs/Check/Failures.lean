import ExprLang.Proofs.Check.Globals

/-!
# Failing statements

A check that fails keeps what it has defined by then.  For every kind of statement
it is said once how its check can fail, and which of its variables are bound at that
point: a name that is bound before the function that refers to it, and the variables
before the first one that can not be bound.  A program that fails leaves these
behind, besides the globals of the statements before.
-/

namespace ExprLang

namespace Checker

variable {α β : Type} {table after : SymbolTable} {error : TypeError} {line : Nat}

/-! ## Failing -/

def Fails (checker : Checker α) (table : SymbolTable) (error : TypeError)
    (after : SymbolTable) : Prop :=
  checker.runOn table = (.error error, after)

theorem Has.of_fails {effect : Effect} {checker : Checker α}
    (h : checker.Has effect) (hfails : checker.Fails table error after) :
    effect table (some error) after := by
  have hrun := h table
  rw [show checker.runOn table = (.error error, after) from hfails] at hrun
  exact hrun

@[simp] theorem not_fails_pure {value : α} :
    ¬ (pure value : Checker α).Fails table error after := by
  simp [Fails]

@[simp] theorem fails_fail_iff {fault : TypeFault} :
    (fail line fault : Checker α).Fails table error after ↔
      error = ⟨line, fault⟩ ∧ after = table := by
  simp [Fails, eq_comm]

@[simp] theorem fails_bind_iff {checker : Checker α} {next : α → Checker β} :
    (checker >>= next).Fails table error after ↔
      checker.Fails table error after ∨
        ∃ value middle, checker.Yields table value middle ∧
          (next value).Fails middle error after := by
  unfold Fails Yields
  rw [runOn_bind]
  cases checker.runOn table with
  | mk outcome middle =>
      cases outcome with
      | error error => simp
      | ok value =>
          simp only [Prod.mk.injEq, reduceCtorEq, false_and, false_or,
            Except.ok.injEq]
          constructor
          · intro h
            exact ⟨value, middle, ⟨rfl, rfl⟩, h⟩
          · rintro ⟨_, _, ⟨rfl, rfl⟩, h⟩
            exact h

@[simp] theorem fails_require_iff {outcome : Except TypeFault α} :
    (require line outcome).Fails table error after ↔
      ∃ fault, outcome = .error fault ∧ error = ⟨line, fault⟩ ∧ after = table := by
  cases outcome <;> simp [Walker.require]

/-! ## Assignments -/

private theorem fails_agree_iff {target : Variable} {type : Ty} :
    (agree line target type).Fails table error after ↔
      ∃ declared, target.type? = some declared ∧ declared.same type = false ∧
        error = ⟨line, .declaredMismatch target.name declared type⟩ ∧
        after = table := by
  unfold agree Walker.agree
  cases target.type? with
  | none => simp
  | some declared => cases h : declared.same type <;> simp [h]

theorem of_place_fails {name : String} {type : Ty}
    (h : (place line name type).Fails table error after) :
    after = table ∧ (error = ⟨line, .globalMutation name⟩ ∨
        ∃ previous, error = ⟨line, .localTypeChange name previous type⟩) := by
  unfold Fails at h
  rw [place, runOn_bind, runOn_get] at h
  dsimp only at h
  split at h
  · cases h
    exact ⟨rfl, .inl rfl⟩
  · split at h
    · cases h
    · cases h
      exact ⟨rfl, .inr ⟨_, rfl⟩⟩
  · cases h

theorem after_eq_of_assign_fails {target : Variable} {type : Ty}
    (h : (Checker.bind line target type).Fails table error after) :
    after = table := by
  simp only [Checker.bind, Walker.bind, now_bind, walker_place, fails_bind_iff,
    fails_agree_iff, fails_require_iff, not_fails_pure, yields_agree_iff,
    yields_require_iff, and_false, exists_false, or_false] at h
  rcases h with ⟨_, _, _, _, rfl⟩ |
    ⟨_, _, ⟨_, rfl⟩, ⟨_, _, _, rfl⟩ | ⟨_, _, ⟨_, rfl⟩, hplace⟩⟩
  · rfl
  · rfl
  · exact (of_place_fails hplace).1

private theorem exists_of_bindEach_fails {targets : List Variable} {types : List Ty}
    (h : (bindEach line targets types).Fails table error after) :
    ∃ done target others doneTypes type otherTypes,
      targets = done ++ target :: others ∧
      types = doneTypes ++ type :: otherTypes ∧
      AssignedAll table done doneTypes after ∧
      (Checker.bind line target type).Fails after error after := by
  induction targets generalizing types table with
  | nil => simp [Walker.bindEach] at h
  | cons target targets ih =>
      cases types with
      | nil => simp [Walker.bindEach] at h
      | cons type types =>
          simp only [bindEach, Walker.bindEach, fails_bind_iff, not_fails_pure,
            and_false, exists_false, or_false] at h
          rcases h with hfirst | ⟨_, middle, hbound, hothers⟩
          · obtain rfl := after_eq_of_assign_fails hfirst
            exact ⟨[], target, targets, [], type, types, rfl, rfl, .nil _, hfirst⟩
          · obtain ⟨hdeclared, hhole, hassigned, -⟩ := yields_assign_iff.1 hbound
            obtain ⟨done, next, others, doneTypes, nextType, otherTypes, rfl, rfl,
                hdone, hnext⟩ := ih hothers
            exact ⟨target :: done, next, others, type :: doneTypes, nextType,
              otherTypes, rfl, rfl, .cons hdeclared hhole hassigned hdone, hnext⟩

private theorem fails_bindAll_iff {targets : List Variable} {types : List Ty} :
    (bindAll line targets types).Fails table error after ↔
      (targets.length ≠ types.length ∧
          error = ⟨line, .assignmentArity targets.length types.length⟩ ∧
          after = table) ∨
        (targets.length = types.length ∧
          (bindEach line targets types).Fails table error after) := by
  unfold bindAll Walker.bindAll
  by_cases hlength : targets.length = types.length <;> simp [hlength]

private theorem of_bindRecursive_fails {targets : List Variable} {value : Expr}
    (h : (bindRecursive line targets value).Fails table error after) :
    SelfReferring targets value ∧ after = table := by
  unfold bindRecursive Walker.bindRecursive at h
  split at h
  · split at h
    · rename_i hrefers
      refine ⟨hrefers, ?_⟩
      split at h
      · simp only [walker_fail, fails_bind_iff, fails_fail_iff, not_yields_fail,
          false_and, exists_false, or_false] at h
        exact h.2
      · simp only [now_bind, fails_bind_iff, fails_require_iff, not_fails_pure,
          yields_require_iff, and_false, exists_false, or_false] at h
        rcases h with ⟨_, _, _, rfl⟩ | ⟨_, _, ⟨_, rfl⟩, hassign⟩
        · rfl
        · exact after_eq_of_assign_fails hassign
    · simp at h
  · simp at h

end Checker

open Checker SymbolTable

/-! ## Statements -/

/-- How the check of a statement fails, and the variables that it has bound by
then. -/
inductive Statement.Fails :
    Bool → SymbolTable → Statement → TypeError → List Variable → SymbolTable → Prop
  | outside (table : SymbolTable) (expressions : List Expr) (line : Nat) :
      Statement.Fails false table (.result expressions line)
        ⟨line, .returnOutsideFunction⟩ [] table
  | result {table after : SymbolTable} {expressions : List Expr} {line : Nat}
      {error : TypeError}
      (h : (Expr.checkResults line expressions).Fails table error after) :
      Statement.Fails true table (.result expressions line) error [] after
  /-- The name of a function that refers to itself can not be bound. -/
  | name (inFunction : Bool) {table : SymbolTable} {targets : List Variable}
      {value : Expr} {line : Nat} {error : TypeError}
      (hself : SelfReferring targets value)
      (h : (bindRecursive line targets value).Fails table error table) :
      Statement.Fails inFunction table (.assign targets value line) error [] table
  /-- The function that refers to itself fails after its name has been bound. -/
  | recursive (inFunction : Bool) {table middle after : SymbolTable}
      {target : Variable} {arguments : List Variable} {types returns : List Ty}
      {body : List Statement} {signature? : Option Signature} {line : Nat}
      {error : TypeError} (hrefers : Statement.anyRefersTo target.name body = true)
      (htypes : arguments.map Variable.type? = types.map some)
      (hassigned : AssignedAll table [target] [.function types returns none] middle)
      (h : ((Expr.function arguments returns false body signature?).check line
        true).Fails middle error after) :
      Statement.Fails inFunction table
        (.assign [target] (.function arguments returns false body signature?) line)
        error (typed [target] [.function types returns none]) after
  | value (inFunction : Bool) {table after : SymbolTable} {targets : List Variable}
      {value : Expr} {line : Nat} {error : TypeError}
      (hplain : ¬ SelfReferring targets value)
      (h : (value.check line (targets.length = 1)).Fails table error after) :
      Statement.Fails inFunction table (.assign targets value line) error [] after
  | arity (inFunction : Bool) {table after : SymbolTable} {targets : List Variable}
      {value new : Expr} {types : List Ty} {line : Nat}
      (hplain : ¬ SelfReferring targets value)
      (hvalue :
        (value.check line (targets.length = 1)).Yields table (new, types) after)
      (hlength : targets.length ≠ types.length) :
      Statement.Fails inFunction table (.assign targets value line)
        ⟨line, .assignmentArity targets.length types.length⟩ [] after
  /-- One variable can not be bound after those before it have been. -/
  | target (inFunction : Bool) {table middle after : SymbolTable}
      {done others : List Variable} {target : Variable} {value new : Expr}
      {doneTypes otherTypes : List Ty} {type : Ty} {line : Nat} {error : TypeError}
      (hplain : ¬ SelfReferring (done ++ target :: others) value)
      (hvalue : (value.check line ((done ++ target :: others).length = 1)).Yields
        table (new, doneTypes ++ type :: otherTypes) middle)
      (hlength : (done ++ target :: others).length =
        (doneTypes ++ type :: otherTypes).length)
      (hdone : AssignedAll middle done doneTypes after)
      (h : (Checker.bind line target type).Fails after error after) :
      Statement.Fails inFunction table
        (.assign (done ++ target :: others) value line) error
        (typed done doneTypes) after

private theorem Statement.exists_fails_of_check {inFunction : Bool}
    {table after : SymbolTable} {statement : Statement} {error : TypeError}
    (h : (statement.check inFunction).Fails table error after) :
    ∃ kept, Statement.Fails inFunction table statement error kept after := by
  cases statement with
  | result expressions line =>
      cases inFunction with
      | false =>
          simp only [Statement.check, Statement.walk, walker_fail, Bool.not_false,
            if_true, fails_bind_iff, fails_fail_iff, not_yields_fail, false_and,
            exists_false, or_false] at h
          obtain ⟨rfl, rfl⟩ := h
          exact ⟨[], .outside _ _ _⟩
      | true =>
          simp only [Statement.check, Statement.walk, Bool.not_true,
            Bool.false_eq_true, if_false, fails_bind_iff, not_fails_pure, and_false,
            exists_false, or_false] at h
          exact ⟨[], .result h⟩
  | assign targets value line =>
      rw [Statement.check, Statement.walk, Walker.assignment, fails_bind_iff] at h
      rcases h with hname | ⟨results?, middle, hresults, h⟩
      · obtain ⟨hself, rfl⟩ := of_bindRecursive_fails hname
        exact ⟨[], .name _ hself hname⟩
      cases results? with
      | some results =>
          obtain ⟨target, arguments, types, returns, body, signature?, rfl, rfl,
              hrefers, htypes, hassigned, -⟩ :=
            yields_bindRecursive_some_iff.1 hresults
          simp only [fails_bind_iff, not_fails_pure, and_false, exists_false,
            or_false] at h
          exact ⟨_, .recursive _ hrefers htypes hassigned h⟩
      | none =>
          obtain ⟨hplain, rfl⟩ := yields_bindRecursive_none_iff.1 hresults
          simp only [fails_bind_iff, fails_bindAll_iff, not_fails_pure, and_false,
            exists_false, or_false, Prod.exists] at h
          rcases h with hvalue |
            ⟨new, types, middle, hvalue, ⟨hlength, rfl, rfl⟩ | ⟨hlength, h⟩⟩
          · exact ⟨[], .value _ hplain hvalue⟩
          · exact ⟨[], .arity _ hplain hvalue hlength⟩
          · obtain ⟨done, target, others, doneTypes, type, otherTypes, rfl, rfl,
                hdone, htarget⟩ :=
              exists_of_bindEach_fails h
            exact ⟨_, .target _ hplain hvalue hlength hdone htarget⟩

private theorem Expr.sameScopes_of_check_fails {line : Nat} {bound : Bool}
    {table after : SymbolTable} {expression : Expr} {error : TypeError}
    (h : (expression.check line bound).Fails table error after) :
    table.SameScopes after :=
  Has.of_fails (expression.relates_check line bound) h

private theorem Statement.Fails.variables_eq {inFunction : Bool}
    {table after : SymbolTable} {statement : Statement} {error : TypeError}
    {kept : List Variable}
    (h : Statement.Fails inFunction table statement error kept after)
    (hframes : table.frames = []) :
    after.globals.map Symbol.variable =
      table.globals.map Symbol.variable ++ kept := by
  cases h with
  | outside | name => simp
  | result h =>
      have hsame : table.SameScopes after :=
        Has.of_fails (Expr.relates_checkResults _ _) h
      rw [hsame.globals_eq, List.append_nil]
  | recursive _ _ _ hassigned h =>
      rw [(Expr.sameScopes_of_check_fails h).globals_eq]
      exact hassigned.variables_eq hframes
  | value _ _ h =>
      rw [(Expr.sameScopes_of_check_fails h).globals_eq, List.append_nil]
  | arity _ _ hvalue =>
      rw [(Expr.checks_of_yields _ hvalue).sameScopes.globals_eq, List.append_nil]
  | target _ _ hvalue _ hdone =>
      have hsame := (Expr.checks_of_yields _ hvalue).sameScopes
      rw [hdone.variables_eq (hsame.frames_eq.trans hframes), hsame.globals_eq]

/-! ## Programs -/

private theorem Statement.exists_of_checkAll_fails {inFunction : Bool}
    {statements : List Statement} {table after : SymbolTable} {error : TypeError}
    (h : (Statement.checkAll inFunction statements).Fails table error after) :
    ∃ earlier statement later before, statements = earlier ++ statement :: later ∧
      (∃ result,
        (Statement.checkAll inFunction earlier).Yields table result before) ∧
      (statement.check inFunction).Fails before error after := by
  induction statements generalizing table with
  | nil => simp [Statement.walkAll] at h
  | cons statement statements ih =>
      simp only [Statement.checkAll, Statement.walkAll, walker_onLine,
        fails_bind_iff, not_fails_pure, and_false, exists_false, or_false] at h
      rcases h with hfirst | ⟨first, middle, hfirst, h⟩
      · exact ⟨[], statement, statements, table, rfl,
          ⟨([], []), by simp [Statement.walkAll]⟩, hfirst⟩
      · obtain ⟨earlier, failing, later, before, rfl, ⟨result, hearlier⟩,
            hfailing⟩ := ih h
        refine ⟨statement :: earlier, failing, later, before, rfl, ?_, hfailing⟩
        exact ⟨_, by simpa only [Statement.checkAll, Statement.walkAll,
          walker_onLine, yields_bind_iff, yields_pure_iff] using ⟨first, middle,
          hfirst, result, before, hearlier, rfl, rfl⟩⟩

theorem Program.exists_of_check_fails {program : Program}
    {table after : SymbolTable} {error : TypeError}
    (h : program.check.Fails table error after) :
    ∃ earlier statement later new before,
      program.statements = earlier ++ statement :: later ∧
      (Program.mk earlier).check.Yields table new before ∧
      (statement.check false).Fails before error after := by
  simp only [Program.check, Program.walk, walker_block, fails_bind_iff,
    not_fails_pure, and_false, exists_false, or_false] at h
  obtain ⟨earlier, statement, later, before, hstatements, ⟨result, hearlier⟩,
      hfails⟩ :=
    Statement.exists_of_checkAll_fails h
  refine ⟨earlier, statement, later, ⟨result.1⟩, before, hstatements, ?_, hfails⟩
  simpa only
    [Program.check, Program.walk, walker_block, yields_bind_iff, yields_pure_iff]
    using ⟨result, before, hearlier, rfl, rfl⟩

/-- A program fails at its first statement that fails after those before it have
been accepted.  Afterwards the globals are those of the statements before, unchanged
and with their indices, and after them the variables that the failing statement has
bound by then, which are none unless it is an assignment that fails late. -/
theorem Program.globals_of_failure {program : Program} {table after : SymbolTable}
    {error : TypeError} (hframes : table.frames = [])
    (h : program.check.Fails table error after) :
    ∃ earlier statement later new before kept,
      program.statements = earlier ++ statement :: later ∧
      (Program.mk earlier).check.Yields table new before ∧
      Statement.Fails false before statement error kept after ∧
      before.Extends after ∧
      after.globals.map Symbol.variable =
        before.globals.map Symbol.variable ++ kept := by
  obtain ⟨earlier, statement, later, new, before, hstatements, hbefore, hfailing⟩ :=
    exists_of_check_fails h
  obtain ⟨kept, hkept⟩ := Statement.exists_fails_of_check hfailing
  have hextends :=
    (statement.has_check closed_extends false fun _ _ => trivial).of_fails hfailing
  have hnil := (Program.extends_of_check hbefore).frames_nil hframes
  exact ⟨earlier, statement, later, new, before, kept, hstatements, hbefore, hkept,
    hextends, hkept.variables_eq hnil⟩

def Program.unfinished : Program := ⟨[
  .assign [⟨"f", none⟩]
    (.function [⟨"n", some .int⟩] [.int] false
      [.result [.apply (.named "f") [.named "missing"] []] 1] none) 1]⟩

def Program.paired : Program := ⟨[
  .assign [⟨"pair", none⟩]
    (.function [] [.int, .bool] false [.result [.int 1, .bool true] 1] none) 1]⟩

def Program.overwritten : Program :=
  ⟨[.assign [⟨"a", none⟩, ⟨"pair", none⟩] (.apply (.named "pair") [] []) 1]⟩

/-- The only statement of a program fails and leaves a name behind: that of the
function whose body fails, and the variable before the one that can not be
assigned. -/
theorem Program.failing_statements_bind :
    (∃ error after, unfinished.check.Fails .empty error after ∧
        after.globals = [⟨"f", .function [.int] [.int] none, 0⟩]) ∧
      ∃ new before error after,
        paired.check.Yields .empty new before ∧ before.globals.find? "a" = none ∧
        overwritten.check.Fails before error after ∧
        after.globals.find? "a" = some ⟨"a", .int, 0⟩ :=
  ⟨⟨_, _, rfl, rfl⟩, _, _, _, _, rfl, rfl, rfl, rfl⟩

theorem Program.unfinished_globals_of_failure :
    ∃ error after, unfinished.check.Fails .empty error after ∧
      ∃ earlier statement later new before kept,
        unfinished.statements = earlier ++ statement :: later ∧
        (Program.mk earlier).check.Yields .empty new before ∧
        Statement.Fails false before statement error kept after ∧
        before.Extends after ∧
        after.globals.map Symbol.variable =
          before.globals.map Symbol.variable ++ kept := by
  have hfails : ∃ error after, unfinished.check.Fails .empty error after :=
    ⟨_, _, rfl⟩
  obtain ⟨error, after, hfails⟩ := hfails
  exact ⟨error, after, hfails, globals_of_failure rfl hfails⟩

end ExprLang
