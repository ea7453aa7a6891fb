import ExprLang.Proofs.Check.CurrentLine
import ExprLang.Proofs.Check.Visited

/-!
# Statements that errors blame

The line of an error is that of a statement that fails with it: the statement that
is checked, or one in the body of a function in it.  A body that has been checked
successfully is never blamed for an error that comes later.
-/

namespace ExprLang

open Checker SymbolTable Tracker

/-- A statement of the tree fails with the error, in one of the tables, and the
error is on its line. -/
def Node.Blames (root : Node) (tables : List SymbolTable) (error : TypeError) :
    Prop :=
  ∃ statement, root.Reaches (.statement statement) ∧ error.line = statement.line ∧
    ∃ table ∈ tables,
      ∃ inFunction after, (statement.check inFunction).Fails table error after

theorem Node.Blames.mono {root : Node} {tables others : List SymbolTable}
    {error : TypeError} (h : root.Blames tables error) (hsubset : tables ⊆ others) :
    root.Blames others error := by
  obtain ⟨statement, hreaches, hline, table, htable, hfails⟩ := h
  exact ⟨statement, hreaches, hline, table, hsubset htable, hfails⟩

namespace Traced

def blamingOn (root : Node) (line : Nat) : Property := fun _ traced =>
  ∀ table error after, traced.checker.Fails table error after →
    error.line = line ∨ root.Blames (traced.later table) error

def blamingIn (root : Node) : Property := fun _ traced =>
  ∀ table error after, traced.checker.Fails table error after →
    root.Blames (table :: traced.later table) error

private theorem sequential_blamingOn (root : Node) (line : Nat) :
    Sequential (· = line) (blamingOn root line) where
  done _ _ _ _ hfails := (not_fails_pure hfails).elim
  failed hline _ _ _ _ hfails := by
    obtain ⟨rfl, -⟩ := fails_fail_iff.1 hfails
    exact .inl hline
  next := by
    intro α β traced next hfirst hnext table error after hfails
    rcases fails_bind_iff.1 hfails with hfails | ⟨value, middle, hyields, hfails⟩
    · refine (hfirst table error after hfails).imp_right fun h =>
        h.mono fun state hstate => ?_
      exact mem_later_bind.2 (.inl hstate)
    · refine (hnext value middle error after hfails).imp_right fun h =>
        h.mono fun state hstate => ?_
      exact mem_later_bind.2 (.inr ⟨value, middle, hyields, hstate⟩)

private theorem closedOn_blaming (root : Node) :
    ClosedOn root.Reaches (blamingOn root) (blamingOn root) (blamingIn root) where
  inside := sequential_blamingOn root
  around := sequential_blamingOn root
  widen h := h
  typeOf line _ _ _ _ _ hfails := by
    obtain ⟨-, rfl, -⟩ := fails_typeOf_iff.1 hfails
    exact .inl rfl
  place _ _ _ _ _ _ hfails := by
    obtain ⟨-, rfl | ⟨_, rfl⟩⟩ := of_place_fails hfails
    · exact .inl rfl
    · exact .inl rfl
  reserve _ _ _ _ hfails := by cases hfails
  inFrame line _ _ h table error after hfails := by
    obtain ⟨last, hbody, -⟩ := fails_inFrame_iff.1 hfails
    exact .inr ((h _ _ _ hbody).mono (List.subset_append_left _ _))
  statement := by
    intro statement inFunction hreaches h table error after hfails
    rcases h table error after hfails with hline | hblames
    · rw [statement.checker_traced] at hfails
      exact ⟨statement, hreaches, hline, table, List.mem_cons_self, inFunction,
        after, hfails⟩
    · exact hblames.mono (List.subset_cons_self _ _)
  done _ _ _ _ hfails := (not_fails_pure hfails).elim
  next := by
    intro α β traced next hfirst hnext table error after hfails
    rcases fails_bind_iff.1 hfails with hfails | ⟨value, middle, hyields, hfails⟩
    · exact (hfirst table error after hfails).mono
        (later_subset_bind traced next table)
    · exact (hnext value middle error after hfails).mono
        (later_subset_bind_of_yields next hyields)

end Traced

private theorem Statement.blames_of_check {statement : Statement}
    {inFunction : Bool} {table after : SymbolTable} {error : TypeError}
    (h : (statement.check inFunction).Fails table error after) :
    (Node.statement statement).Blames (table ::
      (statement.traced inFunction).later table) error := by
  have hclosed := Traced.closedOn_blaming (.statement statement)
  have hparts := statement.part_traced hclosed inFunction fun _ hreaches => hreaches
  rw [← statement.checker_traced] at h
  exact hclosed.statement inFunction (.self _) hparts table error after h

/-- A program fails at its first statement that fails after those before it have
been accepted, and the line of the error is that of this statement, or of one in a
function body in it, that fails with this error in a table that the check comes to.
The same holds if the line is kept in a register that gets its old value back only
after a whole body: programs and expressions are checked as before, and every
expression and every assignment that is checked successfully leaves the register as
it was. -/
theorem Program.errors_blame_failing_statement :
    (∀ (program : Program) (table : SymbolTable) (error : TypeError)
          (after : SymbolTable),
        program.check.Fails table error after →
        ∃ earlier statement later new before,
          program.statements = earlier ++ statement :: later ∧
          (Program.mk earlier).check.Yields table new before ∧
          (statement.check false).Fails before error after ∧
          (Node.statement statement).Blames
            (before :: (statement.traced false).later before) error) ∧
      (∀ (program : Program) (line : Nat),
        Follows line line program.track program.check) ∧
      (∀ (expression : Expr) (bound : Bool), (expression.track bound).Keeps ∧
        ∀ line, Follows line line (expression.track bound)
          (expression.check line bound)) ∧
      ∀ (targets : List Variable) (value : Expr) (line : Nat),
        (Walker.assignment targets value line
          fun bound => value.track bound).Keeps := by
  refine ⟨?_, fun program line => program.follows_track line, ?_,
    Expr.keeps_assignment⟩
  · intro program table error after h
    obtain ⟨earlier, statement, later, new, before, hstatements, hbefore, hfails⟩ :=
      Program.exists_of_check_fails h
    exact ⟨earlier, statement, later, new, before, hstatements, hbefore, hfails,
      Statement.blames_of_check hfails⟩
  · exact fun expression bound => ⟨expression.keeps_track bound,
      fun line => expression.follows_track line bound⟩

def Expr.repeating : Expr :=
  .function [⟨"n", some .int⟩] [] true
    [.assign [⟨"m", none⟩] (.named "n") 3, .result [.named "m"] 4] none

def Program.misapplied : Program := ⟨[
  .assign [⟨"x", none⟩] (.int 1) 1,
    .assign [⟨"y", none⟩] (.apply .repeating [.bool true] []) 2]⟩

theorem Program.misapplied_blames_statement :
    (∃ error after, misapplied.check.Fails .empty error after ∧ error.line = 2 ∧
        ∃ earlier statement later new before,
          misapplied.statements = earlier ++ statement :: later ∧
          (Program.mk earlier).check.Yields .empty new before ∧
          (statement.check false).Fails before error after ∧
          (Node.statement statement).Blames
            (before :: (statement.traced false).later before) error) ∧
      ∃ found after,
        (Expr.repeating.track false).runOn ⟨.empty, 2⟩ = (.ok found, after) ∧
        after.line = 2 := by
  constructor
  · have hfails : ∃ error after,
        misapplied.check.Fails .empty error after ∧ error.line = 2 :=
      ⟨_, _, rfl, rfl⟩
    obtain ⟨error, after, hfails, hline⟩ := hfails
    exact ⟨error, after, hfails, hline,
      Program.errors_blame_failing_statement.1 _ _ _ _ hfails⟩
  · have hrun : ∃ found after,
        (Expr.repeating.track false).runOn ⟨.empty, 2⟩ = (.ok found, after) :=
      ⟨_, _, rfl⟩
    obtain ⟨found, after, hrun⟩ := hrun
    exact ⟨found, after, hrun,
      (Program.errors_blame_failing_statement.2.2.1 .repeating false).1 _ _ _ hrun⟩

end ExprLang
