import Mathlib.Data.List.Forall2
import ExprLang.Proofs.Outcome
import ExprLang.Tree.Parser

/-!
# How trees are built

A tree is built from a draft or a form when its parts are built from the windows
there.  What holds of the parts of every window then holds of every parsed tree, and
likewise for errors: `Expr.meets_ofWindow` is the induction over windows that all
facts about parsed trees use.
-/

namespace ExprLang

open Outcome

variable {parsed : Window → Expr → Prop} {blames : ParseError → Prop}

inductive Draft.Builds (parsed : Window → Expr → Prop) : Draft → Statement → Prop
  | assign {targets : List Variable} {window : Window} {value : Expr} {line : Nat}
      (h : parsed window value) :
      Builds parsed (.assign targets window line) (.assign targets value line)
  | result {windows : List Window} {expressions : List Expr} {line : Nat}
      (h : List.Forall₂ parsed windows expressions) :
      Builds parsed (.result windows line) (.result expressions line)

def Drafts.Builds (parsed : Window → Expr → Prop) (drafts : Drafts)
    (statements : List Statement) : Prop :=
  List.Forall₂ (Draft.Builds parsed) drafts.statements statements ∧
    drafts.failure? = none

inductive Form.Builds (parsed : Window → Expr → Prop) : Form → Expr → Prop
  | atom (value : Expr) : Builds parsed (.atom value) value
  | group {inner : Window} {value : Expr} (h : parsed inner value) :
      Builds parsed (.group inner) value
  | operator {op : Operator} {leftWindow rightWindow : Window} {left right : Expr}
      (hleft : parsed leftWindow left) (hright : parsed rightWindow right) :
      Builds parsed (.operator op leftWindow rightWindow)
        (.operator op none left right)
  | apply {window : Window} {windows : List Window} {callee : Expr}
      {arguments : List Expr} (hcallee : parsed window callee)
      (harguments : List.Forall₂ parsed windows arguments) :
      Builds parsed (.apply window windows) (.apply callee arguments [])
  | conditional {first second third : Window}
      {condition thenBranch elseBranch : Expr} (hcondition : parsed first condition)
      (hthen : parsed second thenBranch) (helse : parsed third elseBranch) :
      Builds parsed (.conditional first second third)
        (.conditional condition thenBranch elseBranch [])
  | array {windows : List Window} {elements : List Expr}
      (h : List.Forall₂ parsed windows elements) :
      Builds parsed (.array windows) (.array none elements)
  | function {arguments : List Variable} {returns : List Ty} {returnsOmitted : Bool}
      {body : Drafts} {statements : List Statement}
      (h : body.Builds parsed statements) :
      Builds parsed (.function arguments returns returnsOmitted body)
        (.function arguments returns returnsOmitted statements none)

def Form.failure? : Form → Option ParseError
  | .function _ _ _ body => body.failure?
  | _ => none

/-! ## Building meets what parsing meets -/

theorem Window.meets_buildAll {windows : List Window}
    {parse : (window : Window) → window ∈ windows → Except ParseError Expr}
    (h : ∀ window hwindow, Meets (parse window hwindow) (parsed window) blames) :
    Meets (Window.buildAll windows parse) (List.Forall₂ parsed windows) blames := by
  induction windows with
  | nil => exact List.Forall₂.nil
  | cons window windows ih =>
      refine (h window List.mem_cons_self).bind fun expression _ hexpression => ?_
      refine (ih fun other hother => h other (List.mem_cons_of_mem _ hother)).bind
        fun expressions _ hexpressions => ?_
      exact List.Forall₂.cons hexpression hexpressions

private theorem Draft.meets_build {draft : Draft}
    {parse : (window : Window) → window ∈ draft.windows → Except ParseError Expr}
    (h : ∀ window hwindow, Meets (parse window hwindow) (parsed window) blames) :
    Meets (draft.build parse) (draft.Builds parsed) blames := by
  cases draft with
  | assign targets value line =>
      exact (h value _).bind fun expression _ hexpression =>
        Draft.Builds.assign hexpression
  | result windows line =>
      exact (Window.meets_buildAll h).bind fun expressions _ hexpressions =>
        Draft.Builds.result hexpressions

private theorem Draft.meets_buildAll {drafts : List Draft}
    {parse : (window : Window) → window ∈ drafts.flatMap Draft.windows →
      Except ParseError Expr}
    (h : ∀ window hwindow, Meets (parse window hwindow) (parsed window) blames) :
    Meets (Draft.buildAll drafts parse)
      (List.Forall₂ (Draft.Builds parsed) drafts) blames := by
  induction drafts with
  | nil => exact List.Forall₂.nil
  | cons draft drafts ih =>
      refine (Draft.meets_build fun window _ => h window _).bind
        fun statement _ hstatement => ?_
      refine (ih fun window _ => h window _).bind fun statements _ hstatements => ?_
      exact List.Forall₂.cons hstatement hstatements

theorem Drafts.meets_build {drafts : Drafts}
    {parse : (window : Window) → window ∈ drafts.windows → Except ParseError Expr}
    (h : ∀ window hwindow, Meets (parse window hwindow) (parsed window) blames)
    (hfailure : ∀ error ∈ drafts.failure?, blames error) :
    Meets (drafts.build parse) (drafts.Builds parsed) blames := by
  refine (Draft.meets_buildAll h).bind fun statements _ hstatements => ?_
  cases hnone : drafts.failure? with
  | none => exact ⟨hstatements, hnone⟩
  | some error => exact hfailure error hnone

private theorem Form.meets_build {form : Form}
    {parse : (window : Window) → window ∈ form.windows → Except ParseError Expr}
    (h : ∀ window hwindow, Meets (parse window hwindow) (parsed window) blames)
    (hfailure : ∀ error ∈ form.failure?, blames error) :
    Meets (form.build parse) (form.Builds parsed) blames := by
  cases form with
  | atom value => exact Form.Builds.atom value
  | group inner =>
      exact (h inner _).mono fun value _ hvalue => Form.Builds.group hvalue
  | operator op left right =>
      refine (h left _).bind fun leftValue _ hleft => ?_
      refine (h right _).bind fun rightValue _ hright => ?_
      exact Form.Builds.operator hleft hright
  | apply callee arguments =>
      refine (h callee _).bind fun value _ hcallee => ?_
      refine (Window.meets_buildAll fun window _ => h window _).bind
        fun values _ harguments => ?_
      exact Form.Builds.apply hcallee harguments
  | conditional condition thenBranch elseBranch =>
      refine (h condition _).bind fun conditionValue _ hcondition => ?_
      refine (h thenBranch _).bind fun thenValue _ hthen => ?_
      refine (h elseBranch _).bind fun elseValue _ helse => ?_
      exact Form.Builds.conditional hcondition hthen helse
  | array elements =>
      exact (Window.meets_buildAll h).bind fun values _ hvalues =>
        Form.Builds.array hvalues
  | function arguments returns returnsOmitted body =>
      exact (Drafts.meets_build h hfailure).bind fun statements _ hstatements =>
        Form.Builds.function hstatements

/-! ## Parsing -/

/-- What one step needs: the windows that it leaves are good again, a body that can
not be read is blamed, and a tree is as it should be when the trees of these windows
are. -/
structure Form.Step (good : Window → Prop) (parsed : Window → Expr → Prop)
    (blames : ParseError → Prop) (window : Window) (form : Form) : Prop where
  parts : ∀ part ∈ form.windows, good part
  failure : ∀ error ∈ form.failure?, blames error
  built : ∀ expression, form.Builds parsed expression → parsed window expression

theorem Expr.meets_ofWindow {good : Window → Prop}
    (hstep : ∀ window, good window →
      Meets (Form.ofWindow window) (Form.Step good parsed blames window) blames)
    (window : Window) (h : good window) :
    Meets (Expr.ofWindow window) (parsed window) blames := by
  induction window using Expr.ofWindow.induct with
  | case1 window error herror =>
      have hblames := (hstep window h).of_error herror
      rw [Expr.ofWindow]
      split
      · rename_i other hother
        cases herror.symm.trans hother
        exact hblames
      · rename_i form hform
        cases herror.symm.trans hform
  | case2 window form hform ih =>
      have step := (hstep window h).of_ok hform
      rw [Expr.ofWindow]
      split
      · rename_i error herror
        cases hform.symm.trans herror
      · rename_i other hother
        cases hform.symm.trans hother
        have hbuild := Form.meets_build
          (fun part hpart => ih part hpart (step.parts part hpart)) step.failure
        exact hbuild.mono fun expression _ hexpression =>
          step.built expression hexpression

theorem Program.meets_ofStream {σ : Type} [TokenStream σ] {stream : σ}
    (h : ∀ window ∈ (Drafts.ofStream stream).windows,
      Meets (Expr.ofWindow window) (parsed window) blames)
    (hfailure : ∀ error ∈ (Drafts.ofStream stream).failure?, blames error) :
    Meets (Program.ofStream stream)
      (fun program =>
        (Drafts.ofStream stream).Builds parsed program.statements) blames := by
  exact (Drafts.meets_build h hfailure).bind fun statements _ hstatements =>
    hstatements

end ExprLang
