import ExprLang.Analysis
import ExprLang.Proofs.Check.Derivation
import ExprLang.Proofs.SymbolTable.Slots

/-!
# Globals of accepted programs

An accepted program adds to the global scope the variables that its statements
assign, in their order, each with the type that it has in the checked tree.
-/

namespace ExprLang

open Checker SymbolTable

def Symbol.variable (symbol : Symbol) : Variable := ⟨symbol.name, some symbol.type⟩

private theorem SymbolTable.variables_define {table : SymbolTable}
    (hframes : table.frames = []) {name : String}
    (hnew : table.resolve? name = none) (type : Ty) :
    (table.define name type).2.globals.map Symbol.variable =
      table.globals.map Symbol.variable ++ [⟨name, some type⟩] := by
  rw [define_global hframes hnew]
  split <;> simp [Symbol.variable]

namespace Checker

theorem AssignedAll.extends {table after : SymbolTable} {targets : List Variable}
    {types : List Ty} (h : AssignedAll table targets types after) :
    table.Extends after :=
  (has_bindAll closed_extends trivial targets types :
    (bindAll 0 targets types).Has _).of_yields (yields_bindAll_iff.2 ⟨h, rfl⟩)

theorem Assigned.eq_define {table after : SymbolTable} {name : String} {type : Ty}
    (h : Assigned table name type after) (hframes : table.frames = []) :
    table.resolve? name = none ∧ after = (table.define name type).2 := by
  cases h with
  | new hnew => exact ⟨hnew, rfl⟩
  | again hlocal =>
      -- without a frame no name resolves to a local symbol
      simp only [resolve?, hframes, List.head?_nil, Option.bind_none] at hlocal
      simp at hlocal

theorem AssignedAll.variables_eq {table after : SymbolTable}
    {targets : List Variable} {types : List Ty}
    (h : AssignedAll table targets types after) (hframes : table.frames = []) :
    after.globals.map Symbol.variable =
      table.globals.map Symbol.variable ++ typed targets types := by
  induction h with
  | nil => simp [typed]
  | @cons table middle after target targets type types _ _ hassigned hothers ih =>
      obtain ⟨hnew, rfl⟩ := hassigned.eq_define hframes
      have hmiddle := (extends_define hnew type).frames_nil hframes
      rw [ih hmiddle, variables_define hframes hnew, List.append_assoc]
      rfl

end Checker

theorem Expr.Checks.sameScopes {line : Nat} {bound : Bool}
    {table after : SymbolTable} {expression new : Expr} {types : List Ty}
    (h : Expr.Checks line bound table expression new types after) :
    table.SameScopes after :=
  (expression.relates_check line bound).of_yields h.yields

theorem Expr.ChecksEach.sameScopes {line : Nat} {table after : SymbolTable}
    {expressions new : List Expr} {types : List Ty}
    (h : Expr.ChecksEach line table expressions new types after) :
    table.SameScopes after :=
  (Expr.relates_checkArguments line expressions).of_yields h.yields

private theorem Expr.ChecksResults.sameScopes {line : Nat}
    {table after : SymbolTable} {expressions new : List Expr} {types : List Ty}
    (h : Expr.ChecksResults line table expressions new types after) :
    table.SameScopes after :=
  (Expr.relates_checkResults line expressions).of_yields h.yields

theorem Statement.Checks.extends {inFunction : Bool} {table after : SymbolTable}
    {statement new : Statement} {types? : Option (List Ty)}
    (h : Statement.Checks inFunction table statement new types? after) :
    table.Extends after :=
  (statement.has_check closed_extends inFunction fun _ _ => trivial).of_yields
    h.yields

theorem Statement.ChecksAll.extends {inFunction : Bool} {table after : SymbolTable}
    {statements new : List Statement} {candidates : List (List Ty)}
    (h : Statement.ChecksAll inFunction table statements new candidates after) :
    table.Extends after :=
  (Statement.has_checkAll closed_extends inFunction statements fun _ _ =>
    trivial).of_yields h.yields

private theorem Statement.Checks.variables_eq {inFunction : Bool}
    {table after : SymbolTable} {statement new : Statement}
    {types? : Option (List Ty)}
    (h : Statement.Checks inFunction table statement new types? after)
    (hframes : table.frames = []) :
    after.globals.map Symbol.variable =
      table.globals.map Symbol.variable ++ Analysis.assigned new := by
  cases h with
  | recursive _ _ _ hassigned hvalue =>
      rw [hvalue.sameScopes.globals_eq]
      exact hassigned.variables_eq hframes
  | assign _ _ hvalue hassigned =>
      rw [hassigned.variables_eq (hvalue.sameScopes.frames_eq.trans hframes),
        hvalue.sameScopes.globals_eq]
      rfl
  | result hexpressions =>
      rw [hexpressions.sameScopes.globals_eq]
      exact (List.append_nil _).symm

private theorem Statement.ChecksAll.variables_eq {inFunction : Bool}
    {table after : SymbolTable} {statements new : List Statement}
    {candidates : List (List Ty)} :
    Statement.ChecksAll inFunction table statements new candidates after →
      table.frames = [] →
      after.globals.map Symbol.variable =
        table.globals.map Symbol.variable ++ new.flatMap Analysis.assigned
  | .nil _ _, _ => by simp
  | .cons hfirst hothers, hframes => by
      rw [hothers.variables_eq (hfirst.extends.frames_nil hframes),
        hfirst.variables_eq hframes, List.append_assoc, List.flatMap_cons]

theorem Program.variables_of_check {program new : Program}
    {table after : SymbolTable} (h : program.check.Yields table new after)
    (hframes : table.frames = []) :
    after.globals.map Symbol.variable =
      table.globals.map Symbol.variable ++
        new.statements.flatMap Analysis.assigned := by
  obtain ⟨candidates, hstatements⟩ := Program.check_iff_checksAll.1 h
  exact hstatements.variables_eq hframes

theorem Program.extends_check (program : Program) (table : SymbolTable) :
    table.Extends (program.check.runOn table).2 :=
  program.has_check closed_extends (fun _ _ => trivial) table

theorem Program.extends_of_check {program new : Program} {table after : SymbolTable}
    (h : program.check.Yields table new after) : table.Extends after :=
  (program.has_check closed_extends fun _ _ => trivial).of_yields h

theorem Program.nodup_assigned_of_check {program new : Program}
    {table after : SymbolTable} (h : program.check.Yields table new after)
    (hframes : table.frames = [])
    (hglobals : (table.globals.map Symbol.name).Nodup) :
    ((new.statements.flatMap Analysis.assigned).map Variable.name).Nodup := by
  have hnames := (Program.extends_of_check h).names hglobals
  have hmap : after.globals.map Symbol.name =
      (after.globals.map Symbol.variable).map Variable.name := by
    simp [Symbol.variable, Function.comp_def]
  rw [hmap, Program.variables_of_check h hframes, List.map_append] at hnames
  exact (List.nodup_append.1 hnames).2.1

end ExprLang
