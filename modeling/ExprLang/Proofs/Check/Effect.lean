import ExprLang.Proofs.Check.Traced

/-!
# Effects of checks

An effect says what a run may do: to the symbol table, and with which error.  Checks
of expressions have an inner effect and checks of statements an outer one; a pair
that is closed under what checkers do to a table is an effect of every check.
-/

namespace ExprLang

/-- The table before a run, its error if it fails, and the table after it. -/
abbrev Effect := SymbolTable → Option TypeError → SymbolTable → Prop

namespace Effect

/-- Runs that follow each other have the effect when each of them has it.  Errors
are on one of the lines. -/
structure Sequential (lines : Nat → Prop) (effect : Effect) : Prop where
  done : ∀ table, effect table none table
  failed : ∀ table line fault, lines line → effect table (some ⟨line, fault⟩) table
  next : ∀ {before middle after error?},
    effect before none middle → effect middle error? after →
    effect before error? after

structure Closed (lines : Nat → Prop) (inner outer : Effect) : Prop where
  inside : inner.Sequential lines
  outside : outer.Sequential lines
  widen : ∀ {before error? after},
    inner before error? after → outer before error? after
  define : ∀ {table : SymbolTable} {name} type, table.resolve? name = none →
    outer table none (table.define name type).2
  reserve : ∀ table : SymbolTable, inner table none table.reserve.2
  leave : ∀ {table : SymbolTable} {arguments error? after},
    outer (table.enter arguments) error? after →
    inner table error? after.leave

def ofRelation (relation : SymbolTable → SymbolTable → Prop) : Effect :=
  fun before _ after => relation before after

theorem sequential_ofRelation (relation : SymbolTable → SymbolTable → Prop)
    [Std.Refl relation] [Trans relation relation relation] :
    (ofRelation relation).Sequential (fun _ => True) where
  done table := Std.Refl.refl table
  failed table _ _ _ := Std.Refl.refl table
  next hfirst hsecond := Trans.trans (r := relation) (s := relation) hfirst hsecond

end Effect

namespace Checker

variable {α β : Type} {lines : Nat → Prop} {effect inner outer : Effect}

def error? : Except TypeError α → Option TypeError
  | .ok _ => none
  | .error error => some error

def Has (effect : Effect) (checker : Checker α) : Prop :=
  ∀ table, effect table (error? (checker.runOn table).1) (checker.runOn table).2

private theorem Has.mono {checker : Checker α} (h : checker.Has inner)
    (himp : ∀ {before error? after},
      inner before error? after → outer before error? after) :
    checker.Has outer :=
  fun table => himp (h table)

theorem Has.of_yields {checker : Checker α} (h : checker.Has effect)
    {table after : SymbolTable} {value : α}
    (hyields : checker.Yields table value after) :
    effect table none after := by
  have hrun := h table
  rw [show checker.runOn table = (.ok value, after) from hyields] at hrun
  exact hrun

/-! ## Rules -/

section Rules

variable (h : effect.Sequential lines)

include h

theorem has_bind {checker : Checker α} {next : α → Checker β}
    (hchecker : checker.Has effect) (hnext : ∀ value, (next value).Has effect) :
    (checker >>= next).Has effect := by
  intro table
  have hfirst := hchecker table
  rw [runOn_bind]
  cases hrun : checker.runOn table with
  | mk outcome middle =>
      rw [hrun] at hfirst
      cases outcome with
      | error error => exact hfirst
      | ok value => exact h.next hfirst (hnext value middle)

theorem has_pure (value : α) : (pure value : Checker α).Has effect := h.done

theorem has_fail {line : Nat} (hline : lines line) (fault : TypeFault) :
    (fail line fault : Checker α).Has effect :=
  fun table => h.failed table line fault hline

theorem has_typeOf {line : Nat} (hline : lines line) (name : String) :
    (typeOf line name).Has effect := by
  refine has_bind h h.done fun table => ?_
  split
  · exact has_pure h _
  · split
    · exact has_pure h _
    · exact has_fail h hline _

end Rules

/-! ## Operations -/

theorem has_place (h : Effect.Closed lines inner outer) {line : Nat}
    (hline : lines line) (name : String) (type : Ty) :
    (place line name type).Has outer := by
  intro table
  rw [place, runOn_bind, runOn_get]
  dsimp only
  -- The name is looked up in the table that it is then defined in.
  split
  · exact h.outside.failed table line _ hline
  · split
    · exact h.outside.done table
    · exact h.outside.failed table line _ hline
  · rename_i hnew
    exact h.define type hnew

private theorem has_inFrame (h : Effect.Closed lines inner outer)
    (arguments : List (String × Ty)) {checker : Checker α}
    (hchecker : checker.Has outer) :
    (inFrame arguments checker).Has inner :=
  fun table => h.leave (hchecker (table.enter arguments))

def having (effect : Effect) : Traced.Property :=
  fun _ traced => traced.checker.Has effect

theorem sequential_having (h : effect.Sequential lines) :
    Traced.Sequential lines (having effect) where
  done value := has_pure h value
  failed hline _ := has_fail h hline _
  next hfirst hnext := has_bind h hfirst hnext

theorem closed_having (h : Effect.Closed lines inner outer) :
    Traced.Closed lines (having inner) (having outer) where
  inside := sequential_having h.inside
  outside := sequential_having h.outside
  widen hinner := hinner.mono h.widen
  typeOf name hline := has_typeOf h.inside hline name
  place name type hline := has_place h hline name type
  reserve := h.reserve
  inFrame arguments hbody := has_inFrame h arguments hbody

theorem has_bindAll (h : Effect.Closed lines inner outer) {line : Nat}
    (hline : lines line) (targets : List Variable) (types : List Ty) :
    (bindAll line targets types).Has outer := by
  have hchecker : (Walker.bindAll line targets types : Traced _).checker =
      bindAll line targets types :=
    (Traced.sequential_forgets lines).bindAll hline types fun _ _ _ _ _ _ => rfl
  exact hchecker ▸ (sequential_having h.outside).related.bindAll hline types
      fun target _ type _ _ hother =>
    has_place h hother target.name type

end Checker

/-! ## Trees -/

section Trees

open Checker

variable {lines : Nat → Prop} {inner outer : Effect}
    (h : Effect.Closed lines inner outer) {line : Nat}

include h

theorem Expr.has_check (hline : lines line) (bound : Bool) (expression : Expr)
    (hlines : ∀ other ∈ expression.lines, lines other) :
    (expression.check line bound).Has inner :=
  expression.checker_traced line bound ▸
    expression.inner_traced (closed_having h) hline bound hlines

theorem Expr.has_checkArguments (hline : lines line) (arguments : List Expr)
    (hlines : ∀ other ∈ Expr.linesAll arguments, lines other) :
    (Expr.checkArguments line arguments).Has inner :=
  Expr.checker_tracedArguments line arguments ▸
    Expr.inner_tracedArguments (closed_having h) hline arguments hlines

theorem Expr.has_checkResults (hline : lines line) (expressions : List Expr)
    (hlines : ∀ other ∈ Expr.linesAll expressions, lines other) :
    (Expr.checkResults line expressions).Has inner :=
  Expr.checker_tracedResults line expressions ▸
    Expr.inner_tracedResults (closed_having h) hline expressions hlines

theorem Statement.has_check (inFunction : Bool) (statement : Statement)
    (hlines : ∀ other ∈ statement.lines, lines other) :
    (statement.check inFunction).Has outer :=
  statement.checker_traced inFunction ▸
    statement.outer_traced (closed_having h) inFunction hlines

theorem Statement.has_checkAll (inFunction : Bool) (statements : List Statement)
    (hlines : ∀ other ∈ Statement.linesAll statements, lines other) :
    (Statement.checkAll inFunction statements).Has outer :=
  Statement.checker_tracedAll inFunction statements ▸
    Statement.outer_tracedAll (closed_having h) inFunction statements hlines

theorem Program.has_check (program : Program)
    (hlines : ∀ other ∈ program.lines, lines other) :
    program.check.Has outer :=
  program.checker_traced ▸ program.outer_traced (closed_having h) hlines

end Trees

end ExprLang
