import ExprLang.Proofs.Check.Appended
import ExprLang.Proofs.Tree.Unlined
import ExprLang.Proofs.Token.Rendered

/-!
# Checks without lines

The check of a program without lines is the check of the program, without lines: it
passes through the same symbol tables, and the line of an error is all that differs.
With the same for trees, lines are nothing but a part of messages.
-/

namespace ExprLang

open Outcome

def TypeError.unlined (error : TypeError) : TypeError := ⟨0, error.fault⟩

/-! ## Checkers -/

namespace Checker

variable {α β γ δ : Type} {change : α → β}

/-- The checker with its result changed and its error moved to line zero. -/
def unlined (change : α → β) (checker : Checker α) : Checker β := fun table =>
  (mapBoth TypeError.unlined change (checker.runOn table).1,
    (checker.runOn table).2)

theorem runOn_unlined (change : α → β) (checker : Checker α) (table : SymbolTable) :
    (checker.unlined change).runOn table =
      (mapBoth TypeError.unlined change (checker.runOn table).1,
        (checker.runOn table).2) :=
  rfl

theorem bind_unlined {checker : Checker α} {unlinedChecker : Checker β}
    {next : α → Checker γ} {changeNext : γ → δ} {other : β → Checker δ}
    (h : unlinedChecker = checker.unlined change)
    (hnext : ∀ value, other (change value) = (next value).unlined changeNext) :
    (unlinedChecker >>= other) = (checker >>= next).unlined changeNext := by
  subst h
  funext table
  show (checker.unlined change >>= other).runOn table =
      ((checker >>= next).unlined changeNext).runOn table
  rw [runOn_unlined, runOn_bind, runOn_bind, runOn_unlined]
  cases checker.runOn table with
  | mk outcome middle =>
      cases outcome with
      | error error => rfl
      | ok value => exact congrArg (Checker.runOn · middle) (hnext value)

theorem now_unlined {line : Nat} {next : Nat → Checker α} {other : Nat → Checker β}
    (h : other 0 = (next line).unlined change) :
    (Walker.now 0 >>= other) = (Walker.now line >>= next).unlined change := h

theorem unlined_get : get = (get : Checker SymbolTable).unlined id := rfl

/-! ## Rules -/

theorem require_unlined (line : Nat) (outcome : Except TypeFault α) :
    require 0 outcome = (require line outcome).unlined id := by
  cases outcome <;> rfl

theorem single_unlined (line : Nat) (place : SinglePlace) (types : List Ty) :
    (Walker.single 0 place types : Checker Ty) =
      unlined id (Walker.single line place types) := by
  unfold Walker.single
  split
  · exact now_unlined (bind_unlined (require_unlined line _) fun _ => rfl)
  · rfl

private theorem branches_unlined (line : Nat)
    (condition thenTypes elseTypes : List Ty) :
    (Walker.branches 0 condition thenTypes elseTypes : Checker (List Ty)) =
      unlined id (Walker.branches line condition thenTypes elseTypes) := by
  unfold Walker.branches
  cases Ty.sameAll condition [.bool] with
  | false => rfl
  | true =>
      cases Ty.sameAll thenTypes elseTypes with
      | false => rfl
      | true =>
          exact now_unlined (bind_unlined (require_unlined line _) fun _ => rfl)

private theorem typeOf_unlined (line : Nat) (name : String) :
    typeOf 0 name = (typeOf line name).unlined id := by
  refine bind_unlined unlined_get fun table => ?_
  dsimp only [id]
  split
  · rfl
  · split <;> rfl

private theorem function_unlined (line : Nat) (bound : Bool)
    (arguments : List Variable) (returns : List Ty) (returnsOmitted : Bool)
    {checkBody unlinedBody : Checker (List Statement × List (List Ty))}
    (h : unlinedBody = checkBody.unlined (Prod.map Statement.unlinedAll id)) :
    Walker.function 0 bound arguments returns returnsOmitted unlinedBody =
      (Walker.function line bound arguments returns returnsOmitted
        checkBody).unlined (Prod.map Expr.unlined id) := by
  refine now_unlined (bind_unlined (require_unlined line _) fun signature => ?_)
  refine bind_unlined (congrArg (inFrame _) h) fun checked => ?_
  refine bind_unlined (require_unlined line _) fun returns => ?_
  cases bound <;> rfl

/-! ## Assignments -/

private theorem agree_unlined (line : Nat) (target : Variable) (type : Ty) :
    agree 0 target type = (agree line target type).unlined id := by
  unfold agree Walker.agree
  split
  · split <;> rfl
  · rfl

private theorem place_unlined (line : Nat) (name : String) (type : Ty) :
    place 0 name type = (place line name type).unlined id := by
  refine bind_unlined unlined_get fun table => ?_
  dsimp only [id]
  split
  · rfl
  · split <;> rfl
  · rfl

theorem assign_unlined (line : Nat) (target : Variable) (type : Ty) :
    Checker.bind 0 target type = (Checker.bind line target type).unlined id := by
  refine now_unlined (bind_unlined (agree_unlined line target type) fun _ => ?_)
  refine bind_unlined (require_unlined line _) fun _ => ?_
  exact bind_unlined (place_unlined line target.name type) fun _ => rfl

private theorem bindEach_unlined (line : Nat) (targets : List Variable)
    (types : List Ty) :
    bindEach 0 targets types = (bindEach line targets types).unlined id := by
  induction targets generalizing types with
  | nil => rfl
  | cons target targets ih =>
      cases types with
      | nil => rfl
      | cons type types =>
          exact bind_unlined (assign_unlined line target type) fun _ =>
            bind_unlined (ih types) fun _ => rfl

private theorem bindAll_unlined (line : Nat) (targets : List Variable)
    (types : List Ty) :
    bindAll 0 targets types = (bindAll line targets types).unlined id := by
  unfold bindAll Walker.bindAll
  split
  · rfl
  · exact bindEach_unlined line targets types

end Checker

/-! ## References -/

mutual

theorem Expr.refersTo_unlined (name : String) :
    (expression : Expr) →
      expression.unlined.refersTo name = expression.refersTo name
  | .reference target => rfl
  | .function arguments returns returnsOmitted body signature? =>
      Statement.anyRefersTo_unlined name body
  | .apply callee arguments returns => by
      simp only [Expr.unlined, Expr.refersTo, Expr.refersTo_unlined name callee,
        Expr.anyRefersTo_unlined name arguments]
  | .conditional condition thenBranch elseBranch returns => by
      simp only [Expr.unlined, Expr.refersTo, Expr.refersTo_unlined name condition,
        Expr.refersTo_unlined name thenBranch,
        Expr.refersTo_unlined name elseBranch]
  | .int _ | .float _ | .string _ | .bool _ => rfl
  | .operator op operandType? left right => by
      simp only [Expr.unlined, Expr.refersTo, Expr.refersTo_unlined name left,
        Expr.refersTo_unlined name right]
  | .array elementType? elements => Expr.anyRefersTo_unlined name elements

theorem Expr.anyRefersTo_unlined (name : String) :
    (expressions : List Expr) →
      Expr.anyRefersTo name (Expr.unlinedAll expressions) =
        Expr.anyRefersTo name expressions
  | [] => rfl
  | expression :: expressions => by
      simp only [Expr.unlinedAll, Expr.anyRefersTo,
        Expr.refersTo_unlined name expression,
        Expr.anyRefersTo_unlined name expressions]

theorem Statement.refersTo_unlined (name : String) :
    (statement : Statement) →
      statement.unlined.refersTo name = statement.refersTo name
  | .assign _ value _ => Expr.refersTo_unlined name value
  | .result expressions _ => Expr.anyRefersTo_unlined name expressions

theorem Statement.anyRefersTo_unlined (name : String) :
    (statements : List Statement) →
      Statement.anyRefersTo name (Statement.unlinedAll statements) =
        Statement.anyRefersTo name statements
  | [] => rfl
  | statement :: statements => by
      simp only [Statement.unlinedAll, Statement.anyRefersTo,
        Statement.refersTo_unlined name statement,
        Statement.anyRefersTo_unlined name statements]

end

namespace Checker

private theorem bindRecursive_unlined (line : Nat) (targets : List Variable)
    (value : Expr) :
    bindRecursive 0 targets value.unlined =
      (bindRecursive line targets value).unlined id := by
  rcases targets with _ | ⟨target, _ | ⟨other, others⟩⟩
  · cases value <;> rfl
  · cases value with
    | function arguments returns returnsOmitted body signature? =>
        simp only [bindRecursive, Walker.bindRecursive, Expr.unlined,
          Statement.anyRefersTo_unlined]
        split
        · cases returnsOmitted with
          | true => rfl
          | false =>
              refine now_unlined
                (bind_unlined (require_unlined line _) fun signature => ?_)
              exact bind_unlined (assign_unlined line target _) fun _ => rfl
        · rfl
    | _ => rfl
  · cases value <;> rfl

end Checker

/-! ## Trees

The line handed to an expression is that of its statement, so it may be any line
here; a statement brings its own. -/

private theorem Expr.isEmpty_unlinedAll (expressions : List Expr) :
    (Expr.unlinedAll expressions).isEmpty = expressions.isEmpty := by
  cases expressions <;> rfl

open Checker

mutual

theorem Expr.check_unlined (line : Nat) (bound : Bool) :
    (expression : Expr) →
      expression.unlined.check 0 bound =
        (expression.check line bound).unlined (Prod.map Expr.unlined id)
  | .int value | .float value | .string value | .bool value => rfl
  | .reference target =>
      now_unlined (bind_unlined (typeOf_unlined line target.name) fun _ => rfl)
  | .operator op operandType? left right => by
      refine now_unlined (bind_unlined (left.check_unlined line false) fun _ => ?_)
      refine bind_unlined (right.check_unlined line false) fun _ => ?_
      exact bind_unlined (require_unlined line _) fun _ => rfl
  | .conditional condition thenBranch elseBranch returns => by
      refine now_unlined
        (bind_unlined (condition.check_unlined line false) fun _ => ?_)
      refine bind_unlined (thenBranch.check_unlined line false) fun _ => ?_
      refine bind_unlined (elseBranch.check_unlined line false) fun _ => ?_
      exact bind_unlined (branches_unlined line _ _ _) fun _ => rfl
  | .array elementType? elements => by
      refine now_unlined ?_
      rw [Expr.isEmpty_unlinedAll]
      split
      · rfl
      · exact bind_unlined (Expr.checkElements_unlined line 0 none elements)
          fun _ => rfl
  | .apply callee arguments returns => by
      refine now_unlined
        (bind_unlined (Expr.checkArguments_unlined line arguments) fun _ => ?_)
      refine bind_unlined (callee.check_unlined line false) fun _ => ?_
      exact bind_unlined (require_unlined line _) fun _ => rfl
  | .function arguments returns returnsOmitted body signature? =>
      function_unlined line bound arguments returns returnsOmitted
        (Statement.checkAll_unlined true body)

theorem Expr.checkElements_unlined (line index : Nat) (expected? : Option Ty) :
    (elements : List Expr) →
      Expr.checkElements 0 index expected? (Expr.unlinedAll elements) =
        (Expr.checkElements line index expected? elements).unlined
          (Prod.map Expr.unlinedAll id)
  | [] => rfl
  | element :: elements => by
      refine bind_unlined (element.check_unlined line false) fun _ => ?_
      refine bind_unlined (single_unlined line _ _) fun _ =>
        bind_unlined (require_unlined line _) fun _ => ?_
      exact bind_unlined (Expr.checkElements_unlined line (index + 1) _ elements)
        fun _ => rfl

theorem Expr.checkArguments_unlined (line : Nat) : (arguments : List Expr) →
    Expr.checkArguments 0 (Expr.unlinedAll arguments) =
      (Expr.checkArguments line arguments).unlined (Prod.map Expr.unlinedAll id)
  | [] => rfl
  | argument :: arguments => by
      refine bind_unlined (argument.check_unlined line false) fun _ =>
        bind_unlined (single_unlined line _ _) fun _ => ?_
      exact bind_unlined (Expr.checkArguments_unlined line arguments) fun _ => rfl

theorem Expr.checkResults_unlined (line : Nat) : (expressions : List Expr) →
    Expr.checkResults 0 (Expr.unlinedAll expressions) =
      (Expr.checkResults line expressions).unlined (Prod.map Expr.unlinedAll id)
  | [] => rfl
  | expression :: expressions => by
      refine bind_unlined (expression.check_unlined line false) fun _ => ?_
      refine now_unlined (bind_unlined (require_unlined line _) fun _ => ?_)
      exact bind_unlined (Expr.checkResults_unlined line expressions) fun _ => rfl

theorem Statement.check_unlined (inFunction : Bool) :
    (statement : Statement) →
      statement.unlined.check inFunction =
        (statement.check inFunction).unlined (Prod.map Statement.unlined id)
  | .assign targets value line => by
      refine bind_unlined (bindRecursive_unlined line targets value) fun bound? =>
        ?_
      refine bind_unlined (value.check_unlined line _) fun _ => ?_
      cases bound? with
      | some results => rfl
      | none => exact bind_unlined (bindAll_unlined line targets _) fun _ => rfl
  | .result expressions line => by
      unfold Statement.unlined Statement.check Statement.walk
      split
      · rfl
      · exact bind_unlined (Expr.checkResults_unlined line expressions) fun _ => rfl

theorem Statement.checkAll_unlined (inFunction : Bool) :
    (statements : List Statement) →
      Statement.checkAll inFunction (Statement.unlinedAll statements) =
        (Statement.checkAll inFunction statements).unlined
          (Prod.map Statement.unlinedAll id)
  | [] => rfl
  | statement :: statements => by
      refine bind_unlined (statement.check_unlined inFunction) fun _ => ?_
      exact bind_unlined (Statement.checkAll_unlined inFunction statements) fun _ =>
        rfl

end

private theorem Program.check_unlined (program : Program) :
    program.unlined.check = program.check.unlined Program.unlined :=
  bind_unlined (Statement.checkAll_unlined false program.statements) fun _ => rfl

/-! ## Lines are diagnostics -/

private theorem Token.map_unlined_of_entries {left right : List Token}
    (h : left.map Token.entry = right.map Token.entry) :
    left.map Token.unlined = right.map Token.unlined := by
  have hentries (tokens : List Token) : tokens.map Token.unlined =
      (tokens.map Token.entry).map fun entry => ⟨entry.1, entry.2, 0⟩ := by
    rw [List.map_map]
    rfl
  rw [hentries, hentries, h]

private theorem Program.runOn_check_unlined (program : Program)
    (table : SymbolTable) :
    program.unlined.check.runOn table =
      (mapBoth TypeError.unlined Program.unlined (program.check.runOn table).1,
        (program.check.runOn table).2) := by
  rw [Program.check_unlined, runOn_unlined]

/-- Lines are for messages only.  Tokens of the same kinds and texts give the same
program or the same error, lines aside; and the same programs, lines aside, give the
same checked programs or the same fault, lines aside, and leave the same symbol
table. -/
theorem Program.lines_only_diagnostic :
    (∀ (left right : List Token) (leftEnd rightEnd : Nat),
        left.map Token.entry = right.map Token.entry →
        (∃ first second, Program.ofTokens left leftEnd = .ok first ∧
            Program.ofTokens right rightEnd = .ok second ∧
            first.unlined = second.unlined) ∨
          ∃ first second, Program.ofTokens left leftEnd = .error first ∧
            Program.ofTokens right rightEnd = .error second ∧
            first.unlined = second.unlined) ∧
      ∀ (left right : Program) (table : SymbolTable), left.unlined = right.unlined →
        (left.check.runOn table).2 = (right.check.runOn table).2 ∧
          ((∃ first second, (left.check.runOn table).1 = .ok first ∧
              (right.check.runOn table).1 = .ok second ∧
              first.unlined = second.unlined) ∨
            ∃ first second, (left.check.runOn table).1 = .error first ∧
              (right.check.runOn table).1 = .error second ∧
              first.fault = second.fault) := by
  refine ⟨?_, ?_⟩
  · intro left right leftEnd rightEnd h
    -- both are compared with the one run without lines
    have htokens := Token.map_unlined_of_entries h
    have houtcomes := Program.ofTokens_unlined left leftEnd
    rw [htokens, Program.ofTokens_unlined right rightEnd] at houtcomes
    exact alike_of_mapBoth_eq houtcomes.symm
  · intro left right table h
    have hruns := Program.runOn_check_unlined left table
    rw [h, Program.runOn_check_unlined right table] at hruns
    obtain ⟨houtcomes, htables⟩ := Prod.mk.inj hruns
    refine ⟨htables.symm, ?_⟩
    rcases alike_of_mapBoth_eq houtcomes.symm with hprograms |
      ⟨first, second, hfirst, hsecond, herrors⟩
    · exact .inl hprograms
    · exact .inr ⟨first, second, hfirst, hsecond, (TypeError.mk.inj herrors).2⟩

def Program.calledLater : Program :=
  ⟨[.assign [⟨"two", none⟩] (.apply (.named "next") [.int 1] []) 8]⟩

theorem Program.moved_lines_only_diagnostic :
    (∃ tokens first second, Program.ofTokens tokens 1 = .ok first ∧
        Program.ofTokens (tokens.map fun token =>
            { token with line := token.line + 6 }) 9 = .ok second ∧
        first.unlined = second.unlined) ∧
      (called.check.runOn .empty).2 = (calledLater.check.runOn .empty).2 ∧
      ∃ first second, (called.check.runOn .empty).1 = .error first ∧
        (calledLater.check.runOn .empty).1 = .error second ∧
        first.fault = second.fault ∧ first.line = 1 ∧ second.line = 8 := by
  obtain ⟨hparse, hcheck⟩ := lines_only_diagnostic
  refine ⟨?_, ?_⟩
  · have hend : EndFree (Statement.linesFrom 1 successor.statements) := by
      unfold EndFree
      decide
    have hfirst :=
      ofTokens_linesFrom (show successor.Printable by decide +kernel) hend 1
    have hmoved := hparse (Statement.linesFrom 1 successor.statements)
      ((Statement.linesFrom 1 successor.statements).map fun token =>
        { token with line := token.line + 6 }) 1 9 rfl
    rcases hmoved with hprograms | ⟨error, _, herror, _, _⟩
    · exact ⟨_, hprograms⟩
    · cases hfirst.symm.trans herror
  · have hcalled :
        (called.check.runOn .empty).1 = .error ⟨1, .undefinedIdentifier "next"⟩ :=
      rfl
    have hlater : (calledLater.check.runOn .empty).1 =
        .error ⟨8, .undefinedIdentifier "next"⟩ := rfl
    obtain ⟨htables, houtcomes⟩ := hcheck called calledLater .empty rfl
    refine ⟨htables, ?_⟩
    rcases houtcomes with ⟨program, _, hprogram, _, _⟩ |
      ⟨first, second, hfirst, hsecond, hfaults⟩
    · cases hcalled.symm.trans hprogram
    · cases hcalled.symm.trans hfirst
      cases hlater.symm.trans hsecond
      exact ⟨_, _, hcalled, hlater, hfaults, rfl, rfl⟩

end ExprLang
