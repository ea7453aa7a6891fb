import ExprLang.Proofs.Check.Globals
import ExprLang.Proofs.Typing.Rules

/-!
# What is checked follows the rules

The types that checking gives are types by the rules, in the contexts that the
symbol table stands for.
-/

namespace ExprLang

open Ty Checker SymbolTable

/-! ## Tables and contexts -/

namespace SymbolTable

theorem typeOf?_eq_lookup (table : SymbolTable) (name : String) :
    table.typeOf? name = table.globalTypes.lookup table.localTypes name := by
  rw [typeOf?, map_resolve?, Context.lookup, Option.or_assoc]

end SymbolTable

theorem Checker.AssignedAll.assigns {table after : SymbolTable}
    {targets : List Variable} {types : List Ty}
    (h : AssignedAll table targets types after) (hframes : table.frames ≠ []) :
    Assigns table.globalTypes table.localTypes targets types after.localTypes := by
  induction h with
  | nil table => exact .nil
  | @cons table middle after target targets type types hdeclared hhole hassigned _
      ih =>
      cases hassigned with
      | new hnew =>
          have houtside := table.sameOutside_define target.name type
          have hothers := ih (houtside.frames_ne_nil hframes)
          rw [houtside.globalTypes_eq hframes, localTypes_define hframes] at hothers
          obtain ⟨hlocal, hglobal⟩ := resolve?_eq_none_iff.1 hnew
          exact .new hdeclared hhole hglobal hlocal hothers
      | @again symbol hlocal hsame =>
          exact .again hdeclared hhole
            (localTypes_eq_some_iff.2 ⟨symbol, hlocal, rfl⟩) hsame (ih hframes)

/-! ## Trees -/

mutual

theorem Expr.Checks.hasTypes {line : Nat} {bound : Bool} {table after : SymbolTable}
    {expression new : Expr} {types : List Ty} :
    Expr.Checks line bound table expression new types after →
      HasTypes table.globalTypes table.localTypes expression types
  | .int _ _ _ _ => .int
  | .float _ _ _ _ => .float
  | .string _ _ _ _ => .string
  | .bool _ _ _ _ => .bool
  | .reference _ _ htype => .reference (typeOf?_eq_lookup table _ ▸ htype)
  | .operator hleft hright hoperand => by
      have hleftTypes := hleft.hasTypes
      have hrightTypes := hright.hasTypes
      rw [hleft.sameScopes.globalTypes_eq,
        hleft.sameScopes.localTypes_eq] at hrightTypes
      obtain ⟨base, haccepts, rfl, rfl, rfl⟩ := Rule.operand_eq_ok_iff.1 hoperand
      exact .operator haccepts hleftTypes hrightTypes
  | .conditional hcondition hthen helse htypes => by
      have hconditionTypes := hcondition.hasTypes
      have hthenTypes := hthen.hasTypes
      have helseTypes := helse.hasTypes
      rw [hthen.sameScopes.globalTypes_eq,
        hthen.sameScopes.localTypes_eq] at helseTypes
      rw [hcondition.sameScopes.globalTypes_eq, hcondition.sameScopes.localTypes_eq]
        at hthenTypes helseTypes
      obtain ⟨rfl, hsame, hconcrete, rfl⟩ := htypes
      exact .conditional hconditionTypes hthenTypes helseTypes hsame hconcrete
  | .array helements hsame => .array helements.eachHasType hsame
  | .apply harguments hcallee htypes => by
      have hcalleeTypes := hcallee.hasTypes
      rw [harguments.sameScopes.globalTypes_eq,
        harguments.sameScopes.localTypes_eq] at hcalleeTypes
      obtain ⟨parameters, results, index, substitution, rfl, hsame, hbound, rfl⟩ :=
        Rule.application_sound htypes
      exact .apply hcalleeTypes harguments.eachHasType hsame hbound
  | .function htypes hbody hresults => by
      have hexecutes := hbody.executesAll (by simp [enter])
      rw [globalTypes_enter, localTypes_enter] at hexecutes
      exact .function htypes hexecutes hresults

theorem Expr.ChecksEach.eachHasType {line : Nat} {table after : SymbolTable}
    {expressions new : List Expr} {types : List Ty} :
    Expr.ChecksEach line table expressions new types after →
      EachHasType table.globalTypes table.localTypes expressions types
  | .nil _ _ => .nil
  | .cons hfirst hhole hothers => by
      have hothersTypes := hothers.eachHasType
      rw [hfirst.sameScopes.globalTypes_eq,
        hfirst.sameScopes.localTypes_eq] at hothersTypes
      exact .cons hfirst.hasTypes hhole hothersTypes

theorem Expr.ChecksResults.gives {line : Nat} {table after : SymbolTable}
    {expressions new : List Expr} {types : List Ty} :
    Expr.ChecksResults line table expressions new types after →
      Gives table.globalTypes table.localTypes expressions types
  | .nil _ _ => .nil
  | .cons hfirst hhole hothers => by
      have hothersGive := hothers.gives
      rw [hfirst.sameScopes.globalTypes_eq,
        hfirst.sameScopes.localTypes_eq] at hothersGive
      exact .cons hfirst.hasTypes hhole hothersGive

theorem Statement.Checks.executes {inFunction : Bool} {table after : SymbolTable}
    {statement new : Statement} {types? : Option (List Ty)} :
    Statement.Checks inFunction table statement new types? after →
      table.frames ≠ [] →
      Executes table.globalTypes table.localTypes statement types? after.localTypes
  | .recursive _ hrefers _ hassigned hvalue, hframes => by
      have htyped := hvalue.hasTypes
      have hassigns := hassigned.assigns hframes
      rw [hassigned.sameOutside.globalTypes_eq hframes,
        ← hvalue.sameScopes.localTypes_eq] at htyped
      rw [← hvalue.sameScopes.localTypes_eq] at hassigns
      exact .recursive hrefers hassigns htyped
  | .assign _ hplain hvalue hassigned, hframes => by
      have hassigns := hassigned.assigns (hvalue.sameScopes.frames_eq ▸ hframes)
      rw [hvalue.sameScopes.globalTypes_eq,
        hvalue.sameScopes.localTypes_eq] at hassigns
      exact .assign hplain hvalue.hasTypes hassigns
  | .result hexpressions, _ => by
      have hscopes := (Expr.relates_checkResults _ _).of_yields hexpressions.yields
      rw [hscopes.localTypes_eq]
      exact .result hexpressions.gives

theorem Statement.ChecksAll.executesAll {inFunction : Bool}
    {table after : SymbolTable} {statements new : List Statement}
    {candidates : List (List Ty)} :
    Statement.ChecksAll inFunction table statements new candidates after →
      table.frames ≠ [] →
      ExecutesAll table.globalTypes table.localTypes statements candidates
        after.localTypes
  | .nil _ _, _ => .nil
  | .cons hfirst hothers, hframes => by
      have houtside := (Statement.relates_check _ _).of_yields hfirst.yields
      have hothersExecute := hothers.executesAll (houtside.frames_ne_nil hframes)
      rw [houtside.globalTypes_eq hframes] at hothersExecute
      exact .cons (hfirst.executes hframes) hothersExecute

end

theorem Expr.hasTypes_of_check (expression : Expr) {line : Nat} {bound : Bool}
    {table after : SymbolTable} {new : Expr} {types : List Ty}
    (h : (expression.check line bound).Yields table (new, types) after) :
    HasTypes table.globalTypes table.localTypes expression types :=
  (expression.checks_of_yields h).hasTypes

end ExprLang
