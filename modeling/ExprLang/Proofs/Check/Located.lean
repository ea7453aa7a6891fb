import ExprLang.Analysis
import ExprLang.Proofs.Check.Effect
import ExprLang.Proofs.Tree.Located
import ExprLang.Proofs.Tree.RoundTrip

/-!
# Errors are located

A type error is on the line of a statement of the program.  With the located errors
of parsing, the analysis of a text fails only with errors that name a line of the
text.
-/

namespace ExprLang

open Checker Outcome

/-! ## Type errors -/

def Effect.blaming (lines : Nat → Prop) : Effect :=
  fun _ error? _ => ∀ error ∈ error?, lines error.line

theorem Effect.sequential_blaming (lines : Nat → Prop) :
    (blaming lines).Sequential lines where
  done _ := by simp [blaming]
  failed _ line _ hline := by
    intro error herror
    cases herror
    exact hline
  next _ hsecond := hsecond

theorem Effect.closed_blaming (lines : Nat → Prop) :
    Closed lines (blaming lines) (blaming lines) where
  inside := sequential_blaming lines
  outside := sequential_blaming lines
  widen h := h
  define _ _ := by simp [blaming]
  reserve _ := by simp [blaming]
  leave h := h

private theorem Program.line_mem_of_check {program : Program}
    {table after : SymbolTable} {error : TypeError}
    (h : program.check.runOn table = (.error error, after)) :
    error.line ∈ program.lines := by
  have hblames := program.has_check (Effect.closed_blaming (· ∈ program.lines))
    (fun _ hline => hline) table
  rw [h] at hblames
  exact hblames error rfl

/-! ## Errors of an analysis -/

/-- The errors that blame the parser and not the text. -/
def ParseError.IsInternal : ParseError → Prop
  | .unknownTypeName _ | .floatText _ _ | .notOperator _ | .noPieces
  | .noArgumentList | .noBody => True
  | _ => False

def CompileError.IsInternal : CompileError → Prop
  | .parse error => error.IsInternal
  | .type _ => False

private theorem ParseError.Located.not_isInternal {lines : Nat → Prop}
    {error : ParseError} (h : error.Located lines) :
    ¬ error.IsInternal := by
  obtain ⟨line, hline, -⟩ := h
  cases error <;> simp_all [IsInternal, line?]

private theorem Program.lineOf_of_mem_lines {text : String} {program : Program}
    (h : Program.ofString text = .ok program) {line : Nat}
    (hline : line ∈ program.lines) :
    LineOf text line :=
  AllSound.line_mem (sound_tokens text).1 (Program.lines_of_ofStream h hline)

/-- Every failure blames a line of the text. -/
theorem Analysis.errors_located (text : String) :
    (∀ error, Program.ofString text = .error error →
        ¬ error.IsInternal ∧
          ∃ line, error.line? = some line ∧ 1 ≤ line ∧
            line ≤ 1 + text.toList.count '\n') ∧
      ∀ error, Analysis.ofString text = .error error →
        ¬ error.IsInternal ∧
          ∃ line, error.line? = some line ∧ 1 ≤ line ∧
            line ≤ 1 + text.toList.count '\n' := by
  have hparse : ∀ error,
      Program.ofString text = .error error → error.Located (LineOf text) :=
    fun error herror => (Program.locates_ofString text).of_error herror
  refine ⟨fun error herror =>
    ⟨(hparse error herror).not_isInternal, hparse error herror⟩,
    ?_⟩
  intro error herror
  unfold Analysis.ofString at herror
  split at herror
  · rename_i parseError hparseError
    cases herror
    exact ⟨(hparse parseError hparseError).not_isInternal,
      hparse parseError hparseError⟩
  · rename_i program hprogram
    split at herror
    · rename_i typeError after hcheck
      cases herror
      exact ⟨id, typeError.line, rfl,
        Program.lineOf_of_mem_lines hprogram (Program.line_mem_of_check hcheck)⟩
    · cases herror

def Program.mismatched : Program := ⟨[
  .assign [⟨"x", none⟩] (.int 1) 1,
  .assign [⟨"y", none⟩] (.operator .add none (.named "x") (.bool true)) 2]⟩

theorem Analysis.mismatched_located :
    (∃ error, Program.ofString "=" = .error error ∧ ¬ error.IsInternal ∧
        ∃ line,
          error.line? = some line ∧ 1 ≤ line ∧ line ≤ 1 + "=".toList.count '\n') ∧
      ∃ error, Analysis.ofString Program.mismatched.print = .error error ∧
        ¬ error.IsInternal ∧
        ∃ line, error.line? = some line ∧ 1 ≤ line ∧
          line ≤ 1 + Program.mismatched.print.toList.count '\n' := by
  constructor
  · have hscan : scan 1 ['='] = ([⟨.assign, "=", 1⟩], 1) := by
      have hlexeme :
          Lexeme.first '=' ([] ++ []) = ⟨some .assign, ([] : List Char).length⟩ :=
        rfl
      rw [show ['='] = '=' :: [] ++ [] from rfl, scan_lexeme hlexeme rfl (by simp),
        scan_nil]
      rfl
    have hdrafts : Drafts.ofStream (Cursor.ofString "=") =
        ⟨[], some (.unexpected 1 "'='" .statement)⟩ := by
      have htokens :
          TokenStream.tokens (Cursor.ofString "=") = [⟨.assign, "=", 1⟩] :=
        congrArg Prod.fst hscan
      rw [Drafts.ofStream, htokens, Drafts.ofTokens, if_neg (by simp)]
      rfl
    have hparse :
        Program.ofString "=" = .error (.unexpected 1 "'='" .statement) := by
      rw [Program.ofString, Program.ofStream, hdrafts]
      rfl
    exact ⟨_, hparse, (Analysis.errors_located "=").1 _ hparse⟩
  · have hprintable : Program.mismatched.Printable := by decide +kernel
    have herror : ∃ error,
        Analysis.ofString Program.mismatched.print = .error error := by
      rw [Analysis.ofString, Program.ofString_print hprintable]
      exact ⟨_, rfl⟩
    obtain ⟨error, herror⟩ := herror
    exact ⟨error, herror,
      (Analysis.errors_located Program.mismatched.print).2 error herror⟩

end ExprLang
