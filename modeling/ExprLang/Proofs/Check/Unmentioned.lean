import ExprLang.Proofs.Check.Agreement

/-!
# Names that do not occur

A global that a program neither refers to nor assigns does not matter to it: whether
the global is there, and what it is, the program is checked alike.  A check looks up
the names of the references and of the variables that are assigned, and no others.
-/

namespace ExprLang

open Checker SymbolTable

/-! ## Tables that differ in one global -/

namespace SymbolTable

/-- The tables are the same up to the global symbol of one name, which may be any or
missing. -/
structure SameBut (name : String) (left right : SymbolTable) : Prop where
  globals : ∀ other,
    other ≠ name → left.globals.find? other = right.globals.find? other
  values : left.values = right.values
  functions : left.functions = right.functions
  frames : left.frames = right.frames

namespace SameBut

variable {name other : String} {left right : SymbolTable}

private theorem resolve?_eq (h : left.SameBut name right) (hother : other ≠ name) :
    left.resolve? other = right.resolve? other := by
  rw [resolve?, resolve?, h.frames, h.globals other hother]

private theorem find?_insert_eq (h : left.SameBut name right) (symbol : Symbol)
    (hother : other ≠ name) :
    (left.globals.insert symbol).find? other =
      (right.globals.insert symbol).find? other := by
  rw [Scope.find?_insert, Scope.find?_insert, h.globals other hother]

private theorem define (h : left.SameBut name right) (hother : other ≠ name)
    (type : Ty) :
    (left.define other type).2.SameBut name (right.define other type).2 := by
  have hframes := h.frames
  have hinsert (index : UInt32) (another : String) (hanother : another ≠ name) :=
    h.find?_insert_eq ⟨other, type, index⟩ hanother
  cases hright : right.frames with
  | nil =>
      rw [hright] at hframes
      simp only [SymbolTable.define, hframes, hright, defineGlobal,
        h.globals other hother, h.values, h.functions]
      split
      · exact ⟨hinsert _, rfl, rfl, rfl⟩
      · split
        · exact ⟨hinsert _, rfl, rfl, rfl⟩
        · exact ⟨hinsert _, rfl, rfl, rfl⟩
  | cons frame frames =>
      rw [hright] at hframes
      rw [define_of_frames hframes, define_of_frames hright]
      exact ⟨h.globals, h.values, h.functions, rfl⟩

private theorem reserve (h : left.SameBut name right) :
    left.reserve.2.SameBut name right.reserve.2 :=
  ⟨h.globals, h.values, congrArg (· + 1) h.functions, h.frames⟩

private theorem enter (h : left.SameBut name right)
    (arguments : List (String × Ty)) :
    (left.enter arguments).SameBut name (right.enter arguments) :=
  ⟨h.globals, h.values, h.functions,
    congrArg (Frame.ofArguments arguments :: ·) h.frames⟩

private theorem leave (h : left.SameBut name right) :
    left.leave.SameBut name right.leave :=
  ⟨h.globals, h.values, h.functions, congrArg List.tail h.frames⟩

end SameBut

end SymbolTable

/-! ## Programs -/

def Node.Assigns (name : String) : Node → Prop
  | .statement (.assign targets _ _) => ∃ target ∈ targets, target.name = name
  | _ => False

def Node.Passes (name : String) (node : Node) : Prop :=
  node.isReference name = false ∧ ¬ node.Assigns name

namespace Traced

private theorem closedOn_sameBut (name : String) :
    ClosedOn (Node.Passes name) (fun _ => respecting (SameBut name))
      (fun _ => respecting (SameBut name)) (respecting (SameBut name)) where
  inside _ := sequential_respecting _ (SameBut name)
  around _ := sequential_respecting _ (SameBut name)
  widen h := h
  typeOf line target hpasses :=
    respecting_typeOf (fun hsame =>
      hsame.resolve?_eq (by simpa [Node.isReference] using hpasses.1)) line
  place hpasses htarget _ := by
    have hother := fun heq => hpasses.2 ⟨_, htarget, heq⟩
    exact respecting_place (fun hsame => hsame.resolve?_eq hother) _ fun hsame =>
      hsame.define hother _
  reserve _ _ _ hsame := ⟨rfl, hsame.reserve⟩
  inFrame _ _ _ h left right hsame := by
    obtain ⟨houtcome, hafter⟩ := h _ _ (hsame.enter _)
    exact ⟨houtcome, hafter.leave⟩
  statement _ _ h := h
  done := (sequential_respecting (fun _ => True) (SameBut name)).done
  next := (sequential_respecting (fun _ => True) (SameBut name)).next

end Traced

private theorem Program.all_passes {program : Program} {name : String}
    (hrefers : program.refersTo name = false)
    (hassigns : ∀ entry ∈ program.preorder, ¬ entry.2.Assigns name) :
    (Node.program program).All (Node.Passes name) := by
  have hnone : (Node.program program).All fun node => ¬ node.Assigns name :=
    Program.all_of_preorder hassigns
  intro node hnode
  refine ⟨?_, hnone node hnode⟩
  rw [Bool.eq_false_iff]
  intro hreference
  unfold Node.isReference at hreference
  split at hreference
  · rename_i target
    obtain rfl : target.name = name := by simpa using hreference
    have hfound : program.refersTo target.name = true := hnode.refersTo
    rw [hrefers] at hfound
    cases hfound
  · cases hreference

/-- A program that neither refers to a name nor assigns it, in whatever function, is
checked alike whether there is a global of this name or not, and whatever it is: the
typed program or the error is the same, and the tables differ afterwards in no more
than this global. -/
theorem Program.unmentioned_global_irrelevant {program : Program} {name : String}
    (hrefers : program.refersTo name = false)
    (hassigns : ∀ entry ∈ program.preorder, ¬ entry.2.Assigns name)
    {left right : SymbolTable} (hsame : left.SameBut name right) :
    (program.check.runOn left).1 = (program.check.runOn right).1 ∧
      (program.check.runOn left).2.SameBut name (program.check.runOn right).2 := by
  have hrespects := program.outer_tracedOn (Traced.closedOn_sameBut name)
    (Program.all_passes hrefers hassigns)
  rw [Traced.respecting, program.checker_traced] at hrespects
  exact hrespects left right hsame

def Program.scaling : Program := ⟨[
  .assign [⟨"scale", none⟩]
    (.function [⟨"limit", some .int⟩, ⟨"n", some .int⟩] [] true
      [.assign [⟨"m", none⟩] (.named "n") 2,
        .result [.operator .mul none (.named "m") (.named "factor")] 3] none) 1]⟩

def SymbolTable.factored : SymbolTable := ⟨[⟨"factor", .int, 0⟩], 1, 4, []⟩

def SymbolTable.limited : SymbolTable :=
  ⟨[⟨"limit", .function [.int] [.bool] none, 3⟩, ⟨"factor", .int, 0⟩], 1, 4, []⟩

theorem Program.scaling_unmentioned_irrelevant :
    factored.SameBut "limit" limited ∧
      ∃ new after other, scaling.check.Yields factored new after ∧
        scaling.check.Yields limited new other ∧ after.SameBut "limit" other := by
  have hassigns : ∀ entry ∈ scaling.preorder, ¬ entry.2.Assigns "limit" := by
    simp [scaling, Program.preorder, Statement.preorderAll, Statement.preorder,
      Expr.preorderAll, Expr.preorder, Node.Assigns, Expr.named]
  have hsame : factored.SameBut "limit" limited := by
    refine ⟨fun other hother => ?_, rfl, rfl, rfl⟩
    simp [factored, limited, Scope.find?, List.find?_cons, hother.symm]
  obtain ⟨houtcome, hafter⟩ := unmentioned_global_irrelevant rfl hassigns hsame
  have hyields : ∃ new after, scaling.check.runOn factored = (.ok new, after) :=
    ⟨_, _, rfl⟩
  obtain ⟨new, after, hyields⟩ := hyields
  rw [hyields] at houtcome hafter
  exact ⟨hsame, new, after, (scaling.check.runOn limited).2, hyields,
    Prod.ext houtcome.symm rfl, hafter⟩

end ExprLang
