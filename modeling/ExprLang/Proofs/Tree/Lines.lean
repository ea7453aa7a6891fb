import ExprLang.Proofs.Tree.Built
import ExprLang.Proofs.Tree.Spans

/-!
# Lines of statements

The lines that the statements of a tree carry, nested bodies included.  In a parsed
tree each of them is the line of a token that the tree was parsed from.
-/

namespace ExprLang

open Outcome

mutual

def Expr.lines : Expr → List Nat
  | .function _ _ _ body _ => Statement.linesAll body
  | .apply callee arguments _ => callee.lines ++ Expr.linesAll arguments
  | .conditional condition thenBranch elseBranch _ =>
      condition.lines ++ (thenBranch.lines ++ elseBranch.lines)
  | .operator _ _ left right => left.lines ++ right.lines
  | .array _ elements => Expr.linesAll elements
  | .reference _ | .int _ | .float _ | .string _ | .bool _ => []

def Expr.linesAll : List Expr → List Nat
  | [] => []
  | expression :: expressions => expression.lines ++ Expr.linesAll expressions

def Statement.lines : Statement → List Nat
  | .assign _ value line => line :: value.lines
  | .result expressions line => line :: Expr.linesAll expressions

def Statement.linesAll : List Statement → List Nat
  | [] => []
  | statement :: statements => statement.lines ++ Statement.linesAll statements

end

def Program.lines (program : Program) : List Nat :=
  Statement.linesAll program.statements

/-! ## Steps -/

def Window.Within (window : Window) (expression : Expr) : Prop :=
  expression.lines ⊆ window.tokens.map Token.line

variable {lines : List Nat}

theorem Window.linesAll_subset {windows : List Window} {expressions : List Expr}
    (hwindows : ∀ window ∈ windows, window.tokens.map Token.line ⊆ lines)
    (h : List.Forall₂ Window.Within windows expressions) :
    Expr.linesAll expressions ⊆ lines := by
  induction h with
  | nil => simp [Expr.linesAll]
  | @cons window expression windows expressions hfirst _ ih =>
      refine List.append_subset.2
        ⟨List.Subset.trans hfirst (hwindows window List.mem_cons_self), ?_⟩
      exact ih fun other hother => hwindows other (List.mem_cons_of_mem _ hother)

private theorem Draft.Builds.lines_subset {draft : Draft} {statement : Statement}
    (h : draft.Builds Window.Within statement) (hline : draft.line ∈ lines)
    (hwindows : ∀ window ∈ draft.windows, window.tokens.map Token.line ⊆ lines) :
    statement.lines ⊆ lines := by
  cases h with
  | @assign targets window value line hvalue =>
      exact List.cons_subset.2
        ⟨hline, List.Subset.trans hvalue (hwindows window List.mem_cons_self)⟩
  | result hexpressions =>
      exact List.cons_subset.2 ⟨hline, Window.linesAll_subset hwindows hexpressions⟩

theorem Draft.linesAll_subset {drafts : List Draft} {statements : List Statement}
    (h : List.Forall₂ (Draft.Builds Window.Within) drafts statements)
    (hdrafts : ∀ draft ∈ drafts, draft.line ∈ lines)
    (hwindows : ∀ window ∈ drafts.flatMap Draft.windows,
      window.tokens.map Token.line ⊆ lines) :
    Statement.linesAll statements ⊆ lines := by
  induction h with
  | nil => simp [Statement.linesAll]
  | @cons draft statement drafts statements hfirst _ ih =>
      simp only [List.mem_cons, forall_eq_or_imp] at hdrafts
      simp only [List.flatMap_cons, List.mem_append] at hwindows
      refine List.append_subset.2
        ⟨?_, ih hdrafts.2 fun window hwindow => hwindows window (.inr hwindow)⟩
      exact hfirst.lines_subset hdrafts.1 fun window hwindow =>
        hwindows window (.inl hwindow)

private theorem Form.lines_of_ofToken {token : Token} {value : Expr}
    (h : Form.ofToken token = .ok (.atom value)) :
    value.lines = [] := by
  unfold Form.ofToken at h
  split at h
  · split at h <;> cases h
    rfl
  · split at h <;> cases h
    rfl
  all_goals
    cases h
    try rfl

private theorem Form.Spans.lines_subset {tokens : List Token} {form : Form}
    {expression : Expr} (h : form.Spans tokens)
    (hbuilds : form.Builds Window.Within expression) :
    expression.lines ⊆ tokens.map Token.line := by
  have hwindows : ∀ part ∈ form.windows,
      part.tokens.map Token.line ⊆ tokens.map Token.line :=
    fun part hpart => ((h.part hpart).1.map Token.line).subset
  have hpart {part : Window} {value : Expr} (hmember : part ∈ form.windows)
      (hvalue : part.Within value) : value.lines ⊆ tokens.map Token.line :=
    List.Subset.trans hvalue (hwindows part hmember)
  cases hbuilds with
  | atom =>
      cases h with
      | atom htoken =>
          rw [lines_of_ofToken htoken]
          exact List.nil_subset _
  | group hinner => exact hpart (by simp [windows]) hinner
  | operator hleft hright =>
      exact List.append_subset.2
        ⟨hpart (by simp [windows]) hleft, hpart (by simp [windows]) hright⟩
  | apply hcallee harguments =>
      refine List.append_subset.2 ⟨hpart (by simp [windows]) hcallee, ?_⟩
      exact Window.linesAll_subset
        (fun part hmember =>
          hwindows part (List.mem_cons_of_mem _ hmember)) harguments
  | conditional hcondition hthen helse =>
      refine List.append_subset.2 ⟨hpart (by simp [windows]) hcondition, ?_⟩
      exact List.append_subset.2
        ⟨hpart (by simp [windows]) hthen, hpart (by simp [windows]) helse⟩
  | array helements => exact Window.linesAll_subset hwindows helements
  | function hbody =>
      cases h with
      | function hliteral =>
          refine Draft.linesAll_subset hbody.1 (fun draft hdraft => ?_) hwindows
          exact (hliteral.body_sublist.map Token.line).subset
            (bodyDrafts_line hdraft)

/-! ## Parsing -/

private theorem Expr.meets_within (window : Window) :
    Meets (Expr.ofWindow window) window.Within (fun _ => True) := by
  have hstep (window : Window) (_ : True) : Meets (Form.ofWindow window)
      (Form.Step (fun _ => True) Window.Within (fun _ => True) window)
      (fun _ => True) := by
    refine meets_iff.2 ⟨fun form hform => ?_, fun _ _ => trivial⟩
    exact ⟨fun _ _ => trivial, fun _ _ => trivial,
      fun expression => (Form.spans_of_ofWindow hform).lines_subset⟩
  exact Expr.meets_ofWindow hstep window trivial

theorem Program.lines_of_ofStream {σ : Type} [TokenStream σ] {stream : σ}
    {program : Program} (h : Program.ofStream stream = .ok program) :
    program.lines ⊆ (TokenStream.tokens stream).map Token.line := by
  have hprogram : Meets (Program.ofStream stream) _ (fun _ => True) :=
    Program.meets_ofStream (fun window _ => Expr.meets_within window) fun _ _ =>
      trivial
  refine Draft.linesAll_subset (hprogram.of_ok h).1
    (fun draft => Drafts.line_of_mem_ofTokens) ?_
  intro window hwindow
  have hsublist :=
    (Drafts.part_of_mem_ofTokens hwindow).1.trans (List.tail_sublist _)
  exact (hsublist.map Token.line).subset

end ExprLang
