import ExprLang.Proofs.Check.Yields
import ExprLang.Proofs.Tree.Appended

/-!
# Programs one after the other

Checking two programs as one is checking the first and then, if it is accepted, the
second against the table that the first leaves.  With what is known of their texts,
reading and checking a program in parts is the same as reading and checking it at
once.
-/

namespace ExprLang

open Checker

private theorem Statement.checkAll_append (inFunction : Bool)
    (first second : List Statement) :
    Statement.checkAll inFunction (first ++ second) = (do
      let earlier ← Statement.checkAll inFunction first
      let later ← Statement.checkAll inFunction second
      return (earlier.1 ++ later.1, earlier.2 ++ later.2)) := by
  induction first with
  | nil => simp [Statement.walkAll]
  | cons statement statements ih => simp [Statement.walkAll, ih]

theorem Program.check_append (first second : Program) :
    (first ++ second).check = (do
      let new ← first.check
      let others ← second.check
      return new ++ others) := by
  show Program.check ⟨first.statements ++ second.statements⟩ = _
  simp only [Program.check, Program.walk, walker_block, Statement.checkAll_append,
    bind_assoc, pure_bind]
  rfl

private theorem Program.runOn_check_append_of_error {first : Program}
    {table after : SymbolTable} {error : TypeError}
    (h : first.check.runOn table = (.error error, after)) (second : Program) :
    (first ++ second).check.runOn table = (.error error, after) := by
  rw [Program.check_append, runOn_bind, h]

private theorem Program.runOn_check_append_of_ok {first new : Program}
    {table middle : SymbolTable} (h : first.check.runOn table = (.ok new, middle))
    (second : Program) :
    (first ++ second).check.runOn table =
      ((second.check.runOn middle).1.map (new ++ ·),
        (second.check.runOn middle).2) := by
  rw [Program.check_append, runOn_bind, h]
  dsimp only
  rw [runOn_bind]
  cases second.check.runOn middle with
  | mk outcome after => cases outcome <;> rfl

/-- In parts or at once.  A text that can be parsed leaves to the text on the lines
after it what that text gives on its own, be it statements or an error; and the
check of two programs as one is the check of the first and, unless it fails, of the
second after it. -/
theorem Program.append_eq_one_by_one :
    (∀ (earlier later : List Token) (newline : Token) (firstEnd endLine : Nat)
          (first : Program),
        EndFree earlier → newline.kind = .newline →
        Program.ofTokens earlier firstEnd = .ok first →
        Program.ofTokens (earlier ++ newline :: later) endLine =
          (Program.ofTokens later endLine).map (first ++ ·)) ∧
      ∀ (first second : Program) (table : SymbolTable),
        (∀ error after, first.check.runOn table = (.error error, after) →
          (first ++ second).check.runOn table = (.error error, after)) ∧
        ∀ new middle, first.check.runOn table = (.ok new, middle) →
          (first ++ second).check.runOn table =
            ((second.check.runOn middle).1.map (new ++ ·),
              (second.check.runOn middle).2) := by
  refine ⟨?_, ?_⟩
  · intro earlier later newline firstEnd endLine first hend hnewline hfirst
    exact Program.ofTokens_append hend hfirst hnewline later endLine
  · intro first second table
    refine ⟨?_, ?_⟩
    · intro error after hfirst
      exact Program.runOn_check_append_of_error hfirst second
    · intro new middle hfirst
      exact Program.runOn_check_append_of_ok hfirst second

def Program.successor : Program := ⟨[
  .assign [⟨"next", none⟩]
    (.function [⟨"n", some .int⟩] [.int] false
      [.result [.operator .add none (.named "n") (.int 1)] 1] none) 1]⟩

def Program.called : Program :=
  ⟨[.assign [⟨"two", none⟩] (.apply (.named "next") [.int 1] []) 1]⟩

theorem Program.ofTokens_linesFrom {program : Program} (h : program.Printable)
    (hend : EndFree (Statement.linesFrom 1 program.statements)) (endLine : Nat) :
    Program.ofTokens (Statement.linesFrom 1 program.statements) endLine =
      .ok ⟨Statement.onLinesFrom 1 program.statements⟩ := by
  refine Program.ofStream_of_tokens h ?_
  rw [Listed.tokens_eq_takeWhile, hend.takeWhile]

theorem Program.successor_called_one_by_one :
    (∃ tokens others, EndFree tokens ∧ Program.ofTokens tokens 1 = .ok successor ∧
        Program.ofTokens others 2 = .ok called ∧
        Program.ofTokens (tokens ++ .ofKind .newline 1 :: others) 2 =
          .ok (successor ++ called)) ∧
      (∃ new middle, successor.check.runOn .empty = (.ok new, middle) ∧
        (successor ++ called).check.runOn .empty =
          ((called.check.runOn middle).1.map (new ++ ·),
            (called.check.runOn middle).2)) ∧
      ∃ error after, called.check.runOn .empty = (.error error, after) ∧
        (called ++ successor).check.runOn .empty = (.error error, after) := by
  obtain ⟨hparse, hcheck⟩ := append_eq_one_by_one
  refine ⟨?_, ?_, ?_⟩
  · have hend : EndFree (Statement.linesFrom 1 successor.statements) := by
      unfold EndFree
      decide
    have hfirst :=
      ofTokens_linesFrom (show successor.Printable by decide +kernel) hend 1
    have hsecond := ofTokens_linesFrom (show called.Printable by decide +kernel)
      (by unfold EndFree; decide) 2
    have hboth := hparse _ (Statement.linesFrom 1 called.statements)
      (.ofKind .newline 1) 1 2 _ hend rfl hfirst
    rw [hsecond] at hboth
    exact ⟨_, _, hend, hfirst, hsecond, hboth⟩
  · have hfirst : ∃ new middle, successor.check.runOn .empty = (.ok new, middle) :=
      ⟨_, _, rfl⟩
    obtain ⟨new, middle, hfirst⟩ := hfirst
    exact ⟨new, middle, hfirst,
      (hcheck successor called .empty).2 new middle hfirst⟩
  · have hfirst : ∃ error after,
        called.check.runOn .empty = (.error error, after) := ⟨_, _, rfl⟩
    obtain ⟨error, after, hfirst⟩ := hfirst
    exact ⟨error, after, hfirst,
      (hcheck called successor .empty).1 error after hfirst⟩

end ExprLang
