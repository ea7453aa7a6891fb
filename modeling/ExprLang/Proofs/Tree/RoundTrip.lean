import ExprLang.Proofs.Tree.Printed

/-!
# Printed programs are parsed back

A printable program, printed and parsed, is the same program with its statements on
consecutive lines.
-/

namespace ExprLang

/-! ## Lines -/

private theorem scan_newline (line : Nat) (rest : List Char) :
    scan line ('\n' :: rest) = (.ofKind .newline line :: (scan (line + 1) rest).1,
        (scan (line + 1) rest).2) := by
  have hfirst :
      Lexeme.first '\n' ([] ++ rest) = ⟨some .newline, ([] : List Char).length⟩ :=
    rfl
  exact scan_lexeme hfirst rfl (by decide) line

private theorem Statement.scan_print {statements : List Statement}
    (h : Statement.AllPrintable statements) (line : Nat) :
    (scan line ("\n".intercalate (Statement.printAll statements)).toList).1 =
      Statement.linesFrom line statements := by
  induction statements generalizing line with
  | nil => simp [Statement.printAll, Statement.linesFrom, scan_nil]
  | cons statement statements ih =>
      have hstatement := statement.scanned_of_printable line h.1
      cases statements with
      | nil =>
          have hreads := hstatement [] ends_nil
          rw [Reads, List.append_nil, scan_nil, List.append_nil] at hreads
          simp [Statement.printAll, Statement.linesFrom, hreads]
      | cons other statements =>
          have hothers := ih h.2 (line + 1)
          have hreads := hstatement _ (ends_append "\n" rfl
            ("\n".intercalate (Statement.printAll (other :: statements))).toList)
          have hline : Statement.linesFrom line (statement :: other :: statements) =
              statement.tokens line ++ .ofKind .newline line ::
                  Statement.linesFrom (line + 1) (other :: statements) := rfl
          rw [Reads] at hreads
          rw [hline, ← hothers]
          simp only [Statement.printAll, String.intercalate_cons_cons,
            String.toList_append, List.append_assoc]
            at hreads ⊢
          rw [hreads]
          simp [scan_newline]

/-! ## Trees up to lines -/

@[simp] theorem Variable.plain_plain (target : Variable) :
    target.plain.plain = target.plain := by
  simp [Variable.plain, Function.comp_def]

mutual

theorem Expr.onLine_onLine (line other : Nat) : (expression : Expr) →
    (expression.onLine other).onLine line = expression.onLine line
  | .reference target => by simp [Expr.onLine]
  | .int _ | .float _ | .string _ | .bool _ => rfl
  | .operator op operandType? left right => by
      simp [Expr.onLine, left.onLine_onLine, right.onLine_onLine, Function.comp_def]
  | .apply callee arguments returns => by
      simp [Expr.onLine, callee.onLine_onLine,
        Expr.onLineAll_onLineAll line other arguments]
  | .conditional condition thenBranch elseBranch returns => by
      simp [Expr.onLine, condition.onLine_onLine, thenBranch.onLine_onLine,
        elseBranch.onLine_onLine]
  | .array elementType? elements => by
      simp [Expr.onLine, Expr.onLineAll_onLineAll line other elements,
        Function.comp_def]
  | .function arguments returns returnsOmitted body signature? => by
      simp [Expr.onLine, Statement.onLineAll_onLineAll line other body,
        Function.comp_def]

theorem Expr.onLineAll_onLineAll (line other : Nat) :
    (expressions : List Expr) →
      Expr.onLineAll line (Expr.onLineAll other expressions) =
        Expr.onLineAll line expressions
  | [] => rfl
  | expression :: expressions => by
      simp [Expr.onLineAll, expression.onLine_onLine,
        Expr.onLineAll_onLineAll line other expressions]

theorem Statement.onLine_onLine (line other : Nat) : (statement : Statement) →
    (statement.onLine other).onLine line = statement.onLine line
  | .assign targets value _ => by
      simp [Statement.onLine, value.onLine_onLine, Function.comp_def]
  | .result expressions _ => by
      simp [Statement.onLine, Expr.onLineAll_onLineAll line other expressions]

theorem Statement.onLineAll_onLineAll (line other : Nat) :
    (statements : List Statement) →
      Statement.onLineAll line (Statement.onLineAll other statements) =
        Statement.onLineAll line statements
  | [] => rfl
  | statement :: statements => by
      simp [Statement.onLineAll, statement.onLine_onLine,
        Statement.onLineAll_onLineAll line other statements]

end

private theorem Statement.onLineAll_onLinesFrom (line start : Nat)
    (statements : List Statement) :
    Statement.onLineAll line (Statement.onLinesFrom start statements) =
      Statement.onLineAll line statements := by
  induction statements generalizing start with
  | nil => rfl
  | cons statement statements ih =>
      rw [Statement.onLinesFrom, Statement.onLineAll, statement.onLine_onLine, ih,
        ← Statement.onLineAll]

/-! ## Programs -/

namespace Program

/-- The program with all its statements on one line.  Table indices, which take no
part in the equality of types, are dropped. -/
def onLine (line : Nat) (program : Program) : Program :=
  ⟨Statement.onLineAll line program.statements⟩

def Printable (program : Program) : Prop :=
  Statement.AllPrintable program.statements

instance (program : Program) : Decidable program.Printable :=
  inferInstanceAs (Decidable (Statement.AllPrintable program.statements))

theorem ofStream_of_tokens {σ : Type} [TokenStream σ] {stream : σ}
    {program : Program} (h : program.Printable)
    (htokens :
      TokenStream.tokens stream = Statement.linesFrom 1 program.statements) :
    Program.ofStream stream = .ok ⟨Statement.onLinesFrom 1 program.statements⟩ := by
  have hassigning : ∀ statement ∈ program.statements, statement.Assigning :=
    fun statement hstatement =>
    Statement.assigning_of_printable
      (Statement.allPrintable_iff.1 h statement hstatement)
  have hdrafts : Drafts.ofStream stream =
      ⟨Statement.draftsFrom 1 program.statements, none⟩ := by
    rw [Drafts.ofStream, htokens, Drafts.ofTokens_linesFrom _ hassigning]
  have hbuild :=
    Drafts.build_eq_ok (Statement.buildAll_draftsFrom 1 program.statements h)
  rw [Program.ofStream, hdrafts, hbuild]
  rfl

theorem ofString_print {program : Program} (h : program.Printable) :
    Program.ofString program.print =
      .ok ⟨Statement.onLinesFrom 1 program.statements⟩ :=
  ofStream_of_tokens h (Statement.scan_print h 1)

/-- Printing and then parsing gives the program back, with its statements on other
lines. -/
theorem parse_print (program : Program) (h : program.Printable) :
    ∃ parsed, Program.ofString program.print = .ok parsed ∧
      parsed.onLine 0 = program.onLine 0 :=
  ⟨_, ofString_print h,
    congrArg Program.mk (Statement.onLineAll_onLinesFrom 0 1 program.statements)⟩

def greeting : Program := ⟨[
  .assign [⟨"f", none⟩]
    (.function [⟨"x", some .int⟩, ⟨"ys", some (.array .int)⟩] [.int] false
      [.result [.conditional (.operator .less none (.named "x") (.int 2)) (.int 1)
        (.apply (.named "f")
          [.operator .sub none (.named "x") (.int 1),
            .named "ys"] []) []] 7] none) 3,
  .assign [⟨"a", some .int⟩, ⟨"b", none⟩]
    (.apply (.named "f") [.int 5, .array none [.int 1, .int 2]] []) 3,
  .assign [⟨"g", some (.function [.int] [] none)⟩] (.function [] [] true [] none) 4,
  .result [.string "say \"hello\"\n\tworld", .array none [], .bool true] 0]⟩

theorem greeting_parse_print :
    greeting.Printable ∧
      ∃ parsed, Program.ofString greeting.print = .ok parsed ∧
        parsed.onLine 0 = greeting.onLine 0 := by
  have hprintable : greeting.Printable := by decide +kernel
  exact ⟨hprintable, parse_print greeting hprintable⟩

end Program

end ExprLang
