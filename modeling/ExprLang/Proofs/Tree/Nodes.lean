import ExprLang.Proofs.Tree.Lines
import ExprLang.Tree.Node

/-!
# Nodes of a tree

The nodes that are reached from a node through its children.  Lines and references
are collected from a tree by functions of their own, one case for each kind of
expression; here they are shown to come from its nodes.
-/

namespace ExprLang

namespace Node

variable {node other : Node} {admits : Node → Prop}

/-- The second node is the first one, or is reached from it through its children. -/
inductive Reaches : Node → Node → Prop
  | self (node : Node) : Reaches node node
  | child {node child other : Node} (hchild : child ∈ node.children)
      (h : Reaches child other) :
      Reaches node other

theorem Reaches.of_children (holds : Node → Prop)
    (hup : ∀ {node child : Node}, child ∈ node.children → holds child → holds node)
    (h : node.Reaches other) (hother : holds other) : holds node := by
  induction h with
  | self => exact hother
  | child hchild _ ih => exact hup hchild (ih hother)

def All (admits : Node → Prop) (node : Node) : Prop :=
  ∀ other, node.Reaches other → admits other

theorem All.self (h : node.All admits) : admits node := h node (.self node)

theorem All.child {part : Node} (h : node.All admits)
    (hpart : part ∈ node.children) :
    part.All admits :=
  fun other hother => h other (.child hpart hother)

end Node

/-! ## Preorder -/

private theorem Expr.preorderAll_eq_flatMap (depth : Nat)
    (expressions : List Expr) :
    Expr.preorderAll depth expressions =
      expressions.flatMap (Expr.preorder depth) := by
  induction expressions with
  | nil => rfl
  | cons expression expressions ih => rw [Expr.preorderAll, List.flatMap_cons, ih]

private theorem Statement.preorderAll_eq_flatMap (depth : Nat)
    (statements : List Statement) :
    Statement.preorderAll depth statements =
      statements.flatMap (Statement.preorder depth) := by
  induction statements with
  | nil => rfl
  | cons statement statements ih =>
      rw [Statement.preorderAll, List.flatMap_cons, ih]

namespace Node

def preorder (depth : Nat) : Node → List (Nat × Node)
  | .program root =>
      (depth, .program root) :: (depth + 1, .block root.statements) ::
        Statement.preorderAll (depth + 2) root.statements
  | .block statements =>
      (depth, .block statements) :: Statement.preorderAll (depth + 1) statements
  | .statement content => content.preorder depth
  | .expression content => content.preorder depth

private theorem preorder_eq (depth : Nat) (node : Node) :
    node.preorder depth =
      (depth, node) :: node.children.flatMap (preorder (depth + 1)) := by
  cases node with
  | program root => simp [preorder, children]
  | block statements =>
      simp [preorder, children, Statement.preorderAll_eq_flatMap, List.flatMap_map]
  | statement content =>
      cases content <;> simp [preorder, children, Statement.preorder,
          Expr.preorderAll_eq_flatMap, List.flatMap_map]
  | expression content =>
      cases content <;>
        simp [preorder, children, Expr.preorder, Expr.preorderAll_eq_flatMap,
          Statement.preorderAll_eq_flatMap, List.flatMap_map]

private theorem Reaches.mem_preorder {node other : Node} (h : node.Reaches other)
    (depth : Nat) :
    ∃ below, (below, other) ∈ node.preorder depth := by
  induction h generalizing depth with
  | self node => exact ⟨depth, by rw [preorder_eq]; exact List.mem_cons_self⟩
  | child hchild _ ih =>
      obtain ⟨below, hbelow⟩ := ih (depth + 1)
      refine ⟨below, ?_⟩
      rw [preorder_eq]
      exact List.mem_cons_of_mem _ (List.mem_flatMap.2 ⟨_, hchild, hbelow⟩)

end Node

theorem Program.all_of_preorder {program : Program} {admits : Node → Prop}
    (h : ∀ entry ∈ program.preorder, admits entry.2) :
    (Node.program program).All admits := by
  intro other hother
  obtain ⟨below, hbelow⟩ := hother.mem_preorder 0
  exact h _ hbelow

/-! ## Lines -/

theorem Expr.linesAll_eq_flatMap (expressions : List Expr) :
    Expr.linesAll expressions = expressions.flatMap Expr.lines := by
  induction expressions with
  | nil => rfl
  | cons expression expressions ih => rw [Expr.linesAll, List.flatMap_cons, ih]

theorem Expr.mem_linesAll {line : Nat} {expression : Expr} {expressions : List Expr}
    (hmember : expression ∈ expressions) (hline : line ∈ expression.lines) :
    line ∈ Expr.linesAll expressions := by
  rw [Expr.linesAll_eq_flatMap]
  exact List.mem_flatMap.2 ⟨expression, hmember, hline⟩

private theorem Statement.linesAll_eq_flatMap (statements : List Statement) :
    Statement.linesAll statements = statements.flatMap Statement.lines := by
  induction statements with
  | nil => rfl
  | cons statement statements ih => rw [Statement.linesAll, List.flatMap_cons, ih]

namespace Node

def lines : Node → List Nat
  | .program root => root.lines
  | .block statements => Statement.linesAll statements
  | .statement content => content.lines
  | .expression content => content.lines

def line? : Node → Option Nat
  | .statement content => some content.line
  | _ => none

private theorem lines_eq (node : Node) :
    node.lines = node.line?.toList ++ node.children.flatMap lines := by
  cases node with
  | program root => simp [lines, line?, children, Program.lines]
  | block statements =>
      simp [lines, line?, children, Statement.linesAll_eq_flatMap, List.flatMap_map]
  | statement content =>
      cases content <;> simp [lines, line?, children, Statement.lines,
          Statement.line, Expr.linesAll_eq_flatMap, List.flatMap_map]
  | expression content =>
      cases content <;> simp [lines, line?, children, Expr.lines,
          Expr.linesAll_eq_flatMap, List.flatMap_map]

theorem Reaches.line_mem {node : Node} {statement : Statement}
    (h : node.Reaches (.statement statement)) :
    statement.line ∈ node.lines := by
  refine h.of_children (fun other => statement.line ∈ other.lines) ?_ ?_
  · intro node child hchild hline
    rw [lines_eq]
    exact List.mem_append_right _ (List.mem_flatMap.2 ⟨child, hchild, hline⟩)
  · rw [lines_eq]
    exact List.mem_append_left _ (by simp [line?])

end Node

/-! ## References -/

private theorem Expr.anyRefersTo_eq_any (name : String) (expressions : List Expr) :
    Expr.anyRefersTo name expressions = expressions.any (Expr.refersTo name) := by
  induction expressions with
  | nil => rfl
  | cons expression expressions ih => rw [Expr.anyRefersTo, List.any_cons, ih]

private theorem Statement.anyRefersTo_eq_any (name : String)
    (statements : List Statement) :
    Statement.anyRefersTo name statements =
      statements.any (Statement.refersTo name) := by
  induction statements with
  | nil => rfl
  | cons statement statements ih => rw [Statement.anyRefersTo, List.any_cons, ih]

namespace Node

def refersTo (name : String) : Node → Bool
  | .program root => root.refersTo name
  | .block statements => Statement.anyRefersTo name statements
  | .statement content => content.refersTo name
  | .expression content => content.refersTo name

def isReference (name : String) : Node → Bool
  | .expression (.reference target) => target.name = name
  | _ => false

private theorem refersTo_eq (name : String) (node : Node) :
    node.refersTo name =
      (node.isReference name || node.children.any (refersTo name)) := by
  cases node with
  | program root => simp [refersTo, isReference, children, Program.refersTo]
  | block statements =>
      simp [refersTo, isReference, children, Statement.anyRefersTo_eq_any,
        List.any_map, Function.comp_def]
  | statement content =>
      cases content <;> simp [refersTo, isReference, children, Statement.refersTo,
          Expr.anyRefersTo_eq_any, List.any_map, Function.comp_def]
  | expression content =>
      cases content <;> simp [refersTo, isReference, children, Expr.refersTo,
          Expr.anyRefersTo_eq_any, List.any_map, Function.comp_def, Bool.or_assoc]

theorem Reaches.refersTo {node : Node} {target : Variable}
    (h : node.Reaches (.expression (.reference target))) :
    node.refersTo target.name = true := by
  refine h.of_children (fun other => other.refersTo target.name = true) ?_ ?_
  · intro node child hchild hrefers
    rw [refersTo_eq, Bool.or_eq_true]
    exact .inr (List.any_eq_true.2 ⟨child, hchild, hrefers⟩)
  · simp [Node.refersTo, Expr.refersTo]

end Node

end ExprLang
