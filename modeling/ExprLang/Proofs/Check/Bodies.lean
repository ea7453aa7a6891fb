import ExprLang.Proofs.Check.Globals
import ExprLang.Tree.Node

/-!
# Bodies of functions

Every function literal of a checked tree has a body that was checked in a frame of
its own, and that frame holds one type for each name.  So all assignments of one
body to a name are of the same type.
-/

namespace ExprLang

open Checker SymbolTable

/-! ## Names of a body -/

def SymbolTable.Records (table : SymbolTable) (target : Variable) : Prop :=
  ∃ type found, target.type? = some type ∧
    table.localTypes target.name = some found ∧ found.same type = true

namespace SymbolTable

variable {before after : SymbolTable}

private theorem Extends.localTypes_eq_some (h : before.Extends after)
    {name : String} {type : Ty} (hname : before.localTypes name = some type) :
    after.localTypes name = some type := by
  unfold localTypes at hname ⊢
  cases hframes : before.frames with
  | nil =>
      rw [hframes] at hname
      cases hname
  | cons frame frames =>
      obtain ⟨newFrame, hnew, hsymbols⟩ := h.locals frame frames hframes
      rw [hframes] at hname
      obtain ⟨symbol, hsymbol, htype⟩ := Option.map_eq_some_iff.1 hname
      rw [hnew]
      exact Option.map_eq_some_iff.2
        ⟨symbol, Scope.find?_of_isPrefix hsymbols hsymbol, htype⟩

theorem Records.extends {target : Variable} (h : before.Records target)
    (hextends : before.Extends after) :
    after.Records target := by
  obtain ⟨type, found, htype, hfound, hsame⟩ := h
  exact ⟨type, found, htype, hextends.localTypes_eq_some hfound, hsame⟩

private theorem Records.same {table : SymbolTable} {target other : Variable}
    (h : table.Records target) (hother : table.Records other)
    (hname : target.name = other.name) :
    ∃ type otherType, target.type? = some type ∧ other.type? = some otherType ∧
      type.same otherType = true := by
  obtain ⟨type, found, htype, hfound, hsame⟩ := h
  obtain ⟨otherType, otherFound, hotherType, hotherFound, hotherSame⟩ := hother
  rw [hname, hotherFound] at hfound
  cases hfound
  exact ⟨type, otherType, htype, hotherType,
    Ty.same_trans (Ty.same_symm hsame) hotherSame⟩

end SymbolTable

private theorem Checker.Assigned.records {table after : SymbolTable} {name : String}
    {type : Ty} (h : Assigned table name type after) (hframes : table.frames ≠ []) :
    after.Records ⟨name, some type⟩ := by
  cases h with
  | new hnew =>
      refine ⟨type, type, rfl, ?_, Ty.same_refl type⟩
      rw [localTypes_define hframes]
      simp [Context.extend]
  | @again symbol hlocal hsame =>
      exact ⟨type, symbol.type, rfl, localTypes_eq_some_iff.2 ⟨symbol, hlocal, rfl⟩,
        hsame⟩

private theorem Checker.AssignedAll.records {table after : SymbolTable}
    {targets : List Variable} {types : List Ty}
    (h : AssignedAll table targets types after) (hframes : table.frames ≠ []) :
    ∀ target ∈ typed targets types, after.Records target := by
  induction h with
  | nil => simp [typed]
  | @cons table middle after target targets type types hdeclared hhole hassigned
      hothers ih =>
      have hfirst : AssignedAll table [target] [type] middle :=
        .cons hdeclared hhole hassigned (.nil _)
      intro other hother
      rcases List.mem_cons.1 hother with rfl | hother
      · exact (hassigned.records hframes).extends hothers.extends
      · exact ih (hfirst.sameOutside.frames_ne_nil hframes) other hother

private theorem Statement.Checks.records {inFunction : Bool}
    {table after : SymbolTable} {statement new : Statement}
    {types? : Option (List Ty)}
    (h : Statement.Checks inFunction table statement new types? after)
    (hframes : table.frames ≠ []) :
    ∀ target ∈ Analysis.assigned new, after.Records target := by
  cases h with
  | recursive _ _ _ hassigned hvalue =>
      -- the name is recorded before the function is checked, and stays
      intro target htarget
      exact (hassigned.records hframes target htarget).extends
        hvalue.sameScopes.extends
  | assign _ _ hvalue hassigned =>
      exact hassigned.records (hvalue.sameScopes.frames_eq ▸ hframes)
  | result => simp [Analysis.assigned]

private theorem Statement.ChecksAll.records {inFunction : Bool}
    {table after : SymbolTable} {statements new : List Statement}
    {candidates : List (List Ty)} :
    Statement.ChecksAll inFunction table statements new candidates after →
      table.frames ≠ [] →
      ∀ target ∈ new.flatMap Analysis.assigned, after.Records target
  | .nil _ _, _ => by simp
  | .cons hfirst hothers, hframes => by
      intro target htarget
      rw [List.flatMap_cons, List.mem_append] at htarget
      rcases htarget with htarget | htarget
      · exact (hfirst.records hframes target htarget).extends hothers.extends
      · exact hothers.records (hfirst.extends.outside.frames_ne_nil hframes) target
          htarget

/-! ## Bodies of a tree -/

def Node.CheckedBody : Node → Prop
  | .expression (.function _ _ _ newBody _) =>
      ∃ table body candidates after, table.frames ≠ [] ∧
        Statement.ChecksAll true table body newBody candidates after
  | _ => True

mutual

theorem Expr.Checks.checkedBody {line : Nat} {bound : Bool}
    {table after : SymbolTable} {expression new : Expr} {types : List Ty}
    (depth : Nat) :
    Expr.Checks line bound table expression new types after →
      ∀ entry ∈ new.preorder depth, entry.2.CheckedBody
  | .int _ _ _ _ | .float _ _ _ _ | .string _ _ _ _ | .bool _ _ _ _
  | .reference _ _ _ => by
      simp [Expr.preorder, Node.CheckedBody]
  | .operator hleft hright _ => by
      refine List.forall_mem_cons.2 ⟨trivial, List.forall_mem_append.2 ⟨?_, ?_⟩⟩
      · exact hleft.checkedBody (depth + 1)
      · exact hright.checkedBody (depth + 1)
  | .conditional hcondition hthen helse _ => by
      refine List.forall_mem_cons.2
        ⟨trivial, List.forall_mem_append.2 ⟨List.forall_mem_append.2 ⟨?_, ?_⟩, ?_⟩⟩
      · exact hcondition.checkedBody (depth + 1)
      · exact hthen.checkedBody (depth + 1)
      · exact helse.checkedBody (depth + 1)
  | .array helements _ =>
      List.forall_mem_cons.2 ⟨trivial, helements.checkedBody (depth + 1)⟩
  | .apply harguments hcallee _ => by
      refine List.forall_mem_cons.2 ⟨trivial, List.forall_mem_append.2 ⟨?_, ?_⟩⟩
      · exact hcallee.checkedBody (depth + 1)
      · exact harguments.checkedBody (depth + 1)
  | .function _ hbody _ => by
      refine List.forall_mem_cons.2 ⟨?_, List.forall_mem_cons.2 ⟨trivial, ?_⟩⟩
      · exact ⟨_, _, _, _, by simp [enter], hbody⟩
      · exact hbody.checkedBody (depth + 2)

theorem Expr.ChecksEach.checkedBody {line : Nat} {table after : SymbolTable}
    {expressions new : List Expr} {types : List Ty} (depth : Nat) :
    Expr.ChecksEach line table expressions new types after →
      ∀ entry ∈ Expr.preorderAll depth new, entry.2.CheckedBody
  | .nil _ _ => by simp [Expr.preorderAll]
  | .cons hfirst _ hothers =>
      List.forall_mem_append.2 ⟨hfirst.checkedBody depth, hothers.checkedBody depth⟩

theorem Expr.ChecksResults.checkedBody {line : Nat} {table after : SymbolTable}
    {expressions new : List Expr} {types : List Ty} (depth : Nat) :
    Expr.ChecksResults line table expressions new types after →
      ∀ entry ∈ Expr.preorderAll depth new, entry.2.CheckedBody
  | .nil _ _ => by simp [Expr.preorderAll]
  | .cons hfirst _ hothers =>
      List.forall_mem_append.2 ⟨hfirst.checkedBody depth, hothers.checkedBody depth⟩

theorem Statement.Checks.checkedBody {inFunction : Bool} {table after : SymbolTable}
    {statement new : Statement} {types? : Option (List Ty)} (depth : Nat) :
    Statement.Checks inFunction table statement new types? after →
      ∀ entry ∈ new.preorder depth, entry.2.CheckedBody
  | .recursive _ _ _ _ hvalue | .assign _ _ hvalue _ =>
      List.forall_mem_cons.2 ⟨trivial, hvalue.checkedBody (depth + 1)⟩
  | .result hexpressions =>
      List.forall_mem_cons.2 ⟨trivial, hexpressions.checkedBody (depth + 1)⟩

theorem Statement.ChecksAll.checkedBody {inFunction : Bool}
    {table after : SymbolTable} {statements new : List Statement}
    {candidates : List (List Ty)} (depth : Nat) :
    Statement.ChecksAll inFunction table statements new candidates after →
      ∀ entry ∈ Statement.preorderAll depth new, entry.2.CheckedBody
  | .nil _ _ => by simp [Statement.preorderAll]
  | .cons hfirst hothers =>
      List.forall_mem_append.2 ⟨hfirst.checkedBody depth, hothers.checkedBody depth⟩

end

theorem Program.checkedBody_of_check {program new : Program}
    {table after : SymbolTable} (h : program.check.Yields table new after) :
    ∀ entry ∈ new.preorder, entry.2.CheckedBody := by
  obtain ⟨candidates, hstatements⟩ := Program.check_iff_checksAll.1 h
  exact List.forall_mem_cons.2
    ⟨trivial, List.forall_mem_cons.2 ⟨trivial, hstatements.checkedBody 2⟩⟩

/-- The assignments of a function body to one name are all of one type. -/
def Node.OneTypePerName : Node → Prop
  | .expression (.function _ _ _ body _) =>
      ∀ target ∈ body.flatMap Analysis.assigned,
        ∀ other ∈ body.flatMap Analysis.assigned,
          target.name = other.name → ∃ type otherType, target.type? = some type ∧
            other.type? = some otherType ∧ type.same otherType = true
  | _ => True

theorem Node.CheckedBody.oneTypePerName {node : Node} (h : node.CheckedBody) :
    node.OneTypePerName := by
  unfold OneTypePerName
  split
  · obtain ⟨table, body, candidates, after, hframes, hchecks⟩ := h
    have hrecords := hchecks.records hframes
    intro target htarget other hother hname
    exact (hrecords target htarget).same (hrecords other hother) hname
  · trivial

end ExprLang
