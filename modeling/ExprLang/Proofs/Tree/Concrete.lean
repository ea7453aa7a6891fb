import ExprLang.Proofs.Tree.Built
import ExprLang.Proofs.Tree.Nodes
import ExprLang.Proofs.Tree.Spans

/-!
# Parsed trees declare no holes

No literal denotes a hole, so the types that a parsed tree declares, for variables
and for returns, have none.
-/

namespace ExprLang

open Outcome

mutual

def Expr.Concrete : Expr → Prop
  | .reference _ | .int _ | .float _ | .string _ | .bool _ => True
  | .function arguments returns _ body _ =>
      (∀ argument ∈ arguments, argument.Concrete) ∧ Ty.anyHasHole returns = false ∧
        Statement.AllConcrete body
  | .apply callee arguments _ => callee.Concrete ∧ Expr.AllConcrete arguments
  | .conditional condition thenBranch elseBranch _ =>
      condition.Concrete ∧ thenBranch.Concrete ∧ elseBranch.Concrete
  | .operator _ _ left right => left.Concrete ∧ right.Concrete
  | .array _ elements => Expr.AllConcrete elements

def Expr.AllConcrete : List Expr → Prop
  | [] => True
  | expression :: expressions => expression.Concrete ∧ Expr.AllConcrete expressions

def Statement.Concrete : Statement → Prop
  | .assign targets value _ =>
      (∀ target ∈ targets, target.Concrete) ∧ value.Concrete
  | .result expressions _ => Expr.AllConcrete expressions

def Statement.AllConcrete : List Statement → Prop
  | [] => True
  | statement :: statements => statement.Concrete ∧ Statement.AllConcrete statements

end

def Program.Concrete (program : Program) : Prop :=
  Statement.AllConcrete program.statements

/-! ## Nodes -/

theorem Expr.allConcrete_iff {expressions : List Expr} :
    Expr.AllConcrete expressions ↔
      ∀ expression ∈ expressions, expression.Concrete := by
  induction expressions with
  | nil => simp [Expr.AllConcrete]
  | cons expression expressions ih => simp [Expr.AllConcrete, ih]

private theorem Statement.allConcrete_iff {statements : List Statement} :
    Statement.AllConcrete statements ↔
      ∀ statement ∈ statements, statement.Concrete := by
  induction statements with
  | nil => simp [Statement.AllConcrete]
  | cons statement statements ih => simp [Statement.AllConcrete, ih]

namespace Node

def Concrete : Node → Prop
  | .program root => root.Concrete
  | .block statements => Statement.AllConcrete statements
  | .statement content => content.Concrete
  | .expression content => content.Concrete

private theorem Concrete.child {node child : Node} (h : node.Concrete)
    (hchild : child ∈ node.children) :
    child.Concrete := by
  cases node with
  | program root =>
      obtain rfl := List.mem_singleton.1 hchild
      exact h
  | block statements =>
      obtain ⟨statement, hstatement, rfl⟩ := List.mem_map.1 hchild
      exact Statement.allConcrete_iff.1 h statement hstatement
  | statement content =>
      cases content with
      | assign targets value line =>
          obtain rfl := List.mem_singleton.1 hchild
          exact h.2
      | result expressions line =>
          obtain ⟨expression, hexpression, rfl⟩ := List.mem_map.1 hchild
          exact Expr.allConcrete_iff.1 h expression hexpression
  | expression content =>
      cases content with
      | function arguments returns returnsOmitted body signature? =>
          obtain rfl := List.mem_singleton.1 hchild
          exact h.2.2
      | apply callee arguments returns =>
          rcases List.mem_cons.1 hchild with rfl | hchild
          · exact h.1
          · obtain ⟨argument, hargument, rfl⟩ := List.mem_map.1 hchild
            exact Expr.allConcrete_iff.1 h.2 argument hargument
      | array elementType? elements =>
          obtain ⟨element, helement, rfl⟩ := List.mem_map.1 hchild
          exact Expr.allConcrete_iff.1 h element helement
      | operator op operandType? left right =>
          simp only [children, List.mem_cons, List.not_mem_nil, or_false] at hchild
          rcases hchild with rfl | rfl
          · exact h.1
          · exact h.2
      | conditional condition thenBranch elseBranch returns =>
          simp only [children, List.mem_cons, List.not_mem_nil, or_false] at hchild
          rcases hchild with rfl | rfl | rfl
          · exact h.1
          · exact h.2.1
          · exact h.2.2
      | reference | int | float | string | bool => cases hchild

theorem Concrete.all {node : Node} (h : node.Concrete) : node.All Concrete := by
  intro other hother
  induction hother with
  | self => exact h
  | child hchild _ ih => exact ih (h.child hchild)

end Node

/-! ## Types and variables -/

mutual

theorem TypeLiteral.Denotes.hasHole_eq_false {tokens : List Token} {type : Ty} :
    Denotes tokens type → type.hasHole = false
  | .primitive _ _ => rfl
  | .array _ h => h.hasHole_eq_false
  | .function _ _ _ harguments hreturns => by
      simp [Ty.hasHole, harguments.anyHasHole_eq_false,
        hreturns.anyHasHole_eq_false]

theorem TypeLiteral.EachDenotes.anyHasHole_eq_false {pieces : List (List Token)}
    {types : List Ty} :
    EachDenotes pieces types → Ty.anyHasHole types = false
  | .nil => rfl
  | .skip h => h.anyHasHole_eq_false
  | .cons hfirst h => by
      simp [Ty.anyHasHole, hfirst.hasHole_eq_false, h.anyHasHole_eq_false]

end

namespace VariableList

private theorem Declares.concrete {tokens : List Token} {target : Variable}
    (h : Declares tokens target) :
    target.Concrete := by
  intro type htype
  cases h with
  | plain => cases htype
  | typed _ hliteral | annotated _ _ hliteral =>
      cases htype
      exact hliteral.hasHole_eq_false

theorem DeclaresAll.concrete {tokens : List Token} {targets : List Variable}
    (h : DeclaresAll tokens targets) :
    ∀ target ∈ targets, target.Concrete := by
  induction h with
  | nil => simp
  | last h => exact List.forall_mem_singleton.2 h.concrete
  | cons hfirst _ _ ih => exact List.forall_mem_cons.2 ⟨hfirst.concrete, ih⟩

end VariableList

/-! ## Drafts and forms -/

def Draft.Concrete : Draft → Prop
  | .assign targets _ _ => ∀ target ∈ targets, target.Concrete
  | .result _ _ => True

private theorem Draft.Spans.concrete {tokens : List Token} {draft : Draft}
    (h : Spans tokens draft) :
    draft.Concrete := by
  cases h with
  | assign _ htargets => exact htargets.concrete
  | result => trivial

private theorem Drafts.Spans.concrete {tokens : List Token} {drafts : List Draft}
    (h : Spans tokens drafts) :
    ∀ draft ∈ drafts, draft.Concrete := by
  induction h with
  | nil => simp
  | skip _ _ ih => exact ih
  | cons hfirst _ _ ih => exact List.forall_mem_cons.2 ⟨hfirst.concrete, ih⟩

theorem Drafts.concrete_of_ofTokens (endLine : Nat) (tokens : List Token) :
    ∀ draft ∈ (Drafts.ofTokens endLine tokens).statements, draft.Concrete := by
  obtain ⟨known, unknown, hspans, -⟩ := Drafts.exists_spans_ofTokens endLine tokens
  exact hspans.concrete

def Form.Concrete : Form → Prop
  | .atom value => value.Concrete
  | .function arguments returns _ body =>
      (∀ argument ∈ arguments, argument.Concrete) ∧ Ty.anyHasHole returns = false ∧
        ∀ draft ∈ body.statements, draft.Concrete
  | _ => True

namespace Form

private theorem concrete_of_ofToken {token : Token} {form : Form}
    (h : ofToken token = .ok form) :
    form.Concrete := by
  unfold ofToken at h
  split at h
  · split at h <;> cases h
    trivial
  · split at h <;> cases h
    trivial
  all_goals
    cases h
    try trivial

private theorem Spans.concrete {tokens : List Token} {form : Form}
    (h : Spans tokens form) :
    form.Concrete := by
  cases h with
  | atom h => exact concrete_of_ofToken h
  | function _ _ hreturns harguments =>
      exact ⟨harguments.concrete, hreturns.anyHasHole_eq_false,
        Drafts.concrete_of_ofTokens _ _⟩
  | group | operator | apply | conditional | array => trivial

end Form

/-! ## Building -/

theorem Window.allConcrete_of_forall₂ {windows : List Window}
    {expressions : List Expr}
    (h : List.Forall₂ (fun _ => Expr.Concrete) windows expressions) :
    Expr.AllConcrete expressions := by
  induction h with
  | nil => trivial
  | cons hfirst _ ih => exact ⟨hfirst, ih⟩

private theorem Draft.Builds.concrete {draft : Draft} {statement : Statement}
    (h : draft.Builds (fun _ => Expr.Concrete) statement)
    (hdraft : draft.Concrete) :
    statement.Concrete := by
  cases h with
  | assign hvalue => exact ⟨hdraft, hvalue⟩
  | result hexpressions => exact Window.allConcrete_of_forall₂ hexpressions

theorem Draft.allConcrete_of_forall₂ {drafts : List Draft}
    {statements : List Statement}
    (h : List.Forall₂ (Draft.Builds fun _ => Expr.Concrete) drafts statements)
    (hdrafts : ∀ draft ∈ drafts, draft.Concrete) :
    Statement.AllConcrete statements := by
  induction h with
  | nil => trivial
  | cons hfirst _ ih =>
      obtain ⟨hdraft, hdrafts⟩ := List.forall_mem_cons.1 hdrafts
      exact ⟨hfirst.concrete hdraft, ih hdrafts⟩

private theorem Form.Builds.concrete {form : Form} {expression : Expr}
    (h : form.Builds (fun _ => Expr.Concrete) expression) (hform : form.Concrete) :
    expression.Concrete := by
  cases h with
  | atom => exact hform
  | group hinner => exact hinner
  | operator hleft hright => exact ⟨hleft, hright⟩
  | apply hcallee harguments =>
      exact ⟨hcallee, Window.allConcrete_of_forall₂ harguments⟩
  | conditional hcondition hthen helse => exact ⟨hcondition, hthen, helse⟩
  | array helements => exact Window.allConcrete_of_forall₂ helements
  | function hbody =>
      exact ⟨hform.1, hform.2.1, Draft.allConcrete_of_forall₂ hbody.1 hform.2.2⟩

/-! ## Parsing -/

private theorem Expr.meets_concrete (window : Window) :
    Meets (Expr.ofWindow window) Expr.Concrete (fun _ => True) := by
  have hstep (window : Window) (_ : True) : Meets (Form.ofWindow window)
      (Form.Step (fun _ => True) (fun _ => Expr.Concrete) (fun _ => True) window)
      (fun _ => True) := by
    refine meets_iff.2 ⟨fun form hform => ?_, fun _ _ => trivial⟩
    have hconcrete := (Form.spans_of_ofWindow hform).concrete
    exact ⟨fun _ _ => trivial, fun _ _ => trivial,
      fun expression hbuilds => hbuilds.concrete hconcrete⟩
  exact Expr.meets_ofWindow hstep window trivial

theorem Program.concrete_of_ofString {text : String} {program : Program}
    (h : Program.ofString text = .ok program) : program.Concrete := by
  have hwindows : ∀ window ∈ (Drafts.ofStream (Cursor.ofString text)).windows,
      Meets (Expr.ofWindow window) Expr.Concrete (fun _ => True) :=
    fun window _ => Expr.meets_concrete window
  have hbuilds := (Program.meets_ofStream hwindows fun _ _ => trivial).of_ok h
  exact Draft.allConcrete_of_forall₂ hbuilds.1 (Drafts.concrete_of_ofTokens _ _)

end ExprLang
