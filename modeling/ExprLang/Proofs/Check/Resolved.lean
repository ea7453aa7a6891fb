import ExprLang.Analysis
import ExprLang.Proofs.Check.Derivation
import ExprLang.Proofs.Check.HoleFree
import ExprLang.Proofs.Tree.RoundTrip

/-!
# No hole survives a check

The type fields of a checked tree are all filled, and with types that have no holes.
The one exception is the callee of an application: a reference to a built-in
function keeps the holes of its signature.
-/

namespace ExprLang

open Checker

/-! ## Resolved trees -/

def Ty.Known (type? : Option Ty) : Prop :=
  ∃ type, type? = some type ∧ type.hasHole = false

def Variable.Resolved (target : Variable) : Prop := Ty.Known target.type?

def Expr.IsBuiltin (expression : Expr) : Prop :=
  ∃ name signature, expression = .reference ⟨name, some signature.toTy⟩ ∧
    Builtin.signature? name = some signature

mutual

def Expr.Resolved : Expr → Prop
  | .int _ | .float _ | .string _ | .bool _ => True
  | .reference target => target.Resolved
  | .function arguments returns _ body signature? =>
      (∀ argument ∈ arguments, argument.Resolved) ∧ Ty.anyHasHole returns = false ∧
        Statement.AllResolved body ∧
        Ty.Known (signature?.map Signature.toTy)
  | .apply callee arguments returns =>
      (callee.Resolved ∨ callee.IsBuiltin) ∧ Expr.AllResolved arguments ∧
        Ty.anyHasHole returns = false
  | .conditional condition thenBranch elseBranch returns =>
      condition.Resolved ∧ thenBranch.Resolved ∧ elseBranch.Resolved ∧
        Ty.anyHasHole returns = false
  | .operator _ operandType? left right =>
      left.Resolved ∧ right.Resolved ∧ Ty.Known operandType?
  | .array elementType? elements =>
      Expr.AllResolved elements ∧ Ty.Known elementType?

def Expr.AllResolved : List Expr → Prop
  | [] => True
  | expression :: expressions => expression.Resolved ∧ Expr.AllResolved expressions

def Statement.Resolved : Statement → Prop
  | .assign targets value _ =>
      (∀ target ∈ targets, target.Resolved) ∧ value.Resolved
  | .result expressions _ => Expr.AllResolved expressions

def Statement.AllResolved : List Statement → Prop
  | [] => True
  | statement :: statements => statement.Resolved ∧ Statement.AllResolved statements

end

def Program.Resolved (program : Program) : Prop :=
  Statement.AllResolved program.statements

/-! ## Tables after a check -/

section

variable {line : Nat} {bound inFunction : Bool} {table after : SymbolTable}

theorem Expr.Checks.holeFree {expression new : Expr} {types : List Ty}
    (h : Expr.Checks line bound table expression new types after)
    (hconcrete : expression.Concrete) (htable : table.HoleFree) :
    after.HoleFree := by
  have hyields := h.yields
  rw [← expression.checker_traced line bound] at hyields
  exact (Expr.keeps_traced line bound hconcrete).of_yields htable hyields

theorem Expr.ChecksEach.holeFree {expressions new : List Expr} {types : List Ty}
    (h : Expr.ChecksEach line table expressions new types after)
    (hconcrete : Expr.AllConcrete expressions) (htable : table.HoleFree) :
    after.HoleFree := by
  have hyields := h.yields
  rw [← Expr.checker_tracedArguments line expressions] at hyields
  exact (Expr.keeps_tracedArguments line hconcrete).of_yields htable hyields

theorem Statement.Checks.holeFree {statement new : Statement}
    {types? : Option (List Ty)}
    (h : Statement.Checks inFunction table statement new types? after)
    (hconcrete : statement.Concrete) (htable : table.HoleFree) :
    after.HoleFree := by
  have hyields := h.yields
  rw [← statement.checker_traced inFunction] at hyields
  exact (Statement.keeps_traced inFunction hconcrete).of_yields htable hyields

private theorem Checker.Assigned.holeFree {name : String} {type : Ty}
    (h : Assigned table name type after) (htype : type.hasHole = false)
    (htable : table.HoleFree) :
    after.HoleFree := by
  cases h with
  | new hnew => exact htable.define name htype
  | again hlocal hsame => exact htable

theorem Checker.AssignedAll.holeFree {targets : List Variable} {types : List Ty}
    (h : AssignedAll table targets types after) (htable : table.HoleFree) :
    after.HoleFree := by
  induction h with
  | nil table => exact htable
  | cons hdeclared hhole hassigned hothers ih =>
      exact ih (hassigned.holeFree hhole htable)

theorem Checker.AssignedAll.anyHasHole {targets : List Variable} {types : List Ty}
    (h : AssignedAll table targets types after) : Ty.anyHasHole types = false := by
  induction h with
  | nil table => rfl
  | cons hdeclared hhole hassigned hothers ih => simp [Ty.anyHasHole, hhole, ih]

theorem Checker.AssignedAll.resolved {targets : List Variable} {types : List Ty}
    (h : AssignedAll table targets types after) :
    ∀ target ∈ typed targets types, target.Resolved := by
  induction h with
  | nil table => simp [typed]
  | @cons _ _ _ target targets type types hdeclared hhole hassigned hothers ih =>
      intro other hother
      simp only [typed, List.zipWith_cons_cons, List.mem_cons] at hother
      rcases hother with rfl | hother
      · exact ⟨type, rfl, hhole⟩
      · exact ih other hother

end

/-! ## Checked trees -/

/-- A checked expression is resolved, or a built-in function whose type may have
holes. -/
def Expr.Settled (expression : Expr) (types : List Ty) : Prop :=
  expression.Resolved ∨
    ∃ name signature, expression = .reference ⟨name, some signature.toTy⟩ ∧
      types = [signature.toTy] ∧ Builtin.signature? name = some signature

theorem Expr.Settled.callee {expression : Expr} {types : List Ty}
    (h : expression.Settled types) :
    expression.Resolved ∨ expression.IsBuiltin := by
  rcases h with hresolved | ⟨name, signature, hexpression, -, hsignature⟩
  · exact .inl hresolved
  · exact .inr ⟨name, signature, hexpression, hsignature⟩

theorem Expr.Settled.resolved {expression : Expr} {types : List Ty}
    (h : expression.Settled types) (htypes : Ty.anyHasHole types = false) :
    expression.Resolved := by
  rcases h with hresolved | ⟨name, signature, rfl, rfl, -⟩
  · exact hresolved
  · exact ⟨signature.toTy, rfl, by simpa [Ty.anyHasHole] using htypes⟩

theorem Expr.settled_reference {table : SymbolTable} (h : table.HoleFree)
    {name : String} {type : Ty} (htype : table.typeOf? name = some type) :
    (Expr.reference ⟨name, some type⟩).Settled [type] := by
  unfold SymbolTable.typeOf? at htype
  cases hresolve : table.resolve? name with
  | some found =>
      obtain ⟨symbol, level⟩ := found
      simp only [hresolve, Option.map_some, Option.some_or,
        Option.some.injEq] at htype
      exact .inl ⟨type, rfl, htype ▸ h.resolve? hresolve⟩
  | none =>
      simp only [hresolve, Option.map_none, Option.none_or] at htype
      obtain ⟨signature, hsignature, rfl⟩ := Option.map_eq_some_iff.1 htype
      exact .inr ⟨name, signature, rfl, rfl, hsignature⟩

theorem Variable.resolved_of_declared {arguments : List Variable} {types : List Ty}
    (harguments : ∀ argument ∈ arguments, argument.Concrete)
    (h : arguments.map Variable.type? = types.map some) :
    ∀ argument ∈ arguments, argument.Resolved := by
  intro argument hargument
  have hmember : argument.type? ∈ types.map some :=
    h ▸ List.mem_map_of_mem hargument
  obtain ⟨type, -, htype⟩ := List.mem_map.1 hmember
  exact ⟨type, htype.symm, harguments argument hargument type htype.symm⟩

theorem Ty.anyHasHole_of_results {returnsOmitted : Bool}
    {candidates : List (List Ty)} {results returns : List Ty}
    (h : if returnsOmitted then candidates = [results] else results = returns)
    (hcandidates : ∀ types ∈ candidates, Ty.anyHasHole types = false)
    (hreturns : Ty.anyHasHole returns = false) :
    Ty.anyHasHole results = false := by
  cases returnsOmitted with
  | true =>
      obtain rfl : candidates = [results] := by simpa using h
      exact hcandidates results List.mem_cons_self
  | false =>
      obtain rfl : results = returns := by simpa using h
      exact hreturns

mutual

theorem Expr.Checks.settled {line : Nat} {bound : Bool} {table after : SymbolTable}
    {expression new : Expr} {types : List Ty} :
    Expr.Checks line bound table expression new types after → expression.Concrete →
      table.HoleFree → new.Settled types
  | .int _ _ _ _, _, _ | .float _ _ _ _, _, _ | .string _ _ _ _, _, _
  | .bool _ _ _ _, _, _ =>
      .inl trivial
  | .reference _ _ htype, _, htable => Expr.settled_reference htable htype
  | .operator hleft hright hoperand, hconcrete, htable => by
      have hleftSettled := hleft.settled hconcrete.1 htable
      have hrightSettled :=
        hright.settled hconcrete.2 (hleft.holeFree hconcrete.1 htable)
      obtain ⟨base, -, rfl, rfl, rfl⟩ := Rule.operand_eq_ok_iff.1 hoperand
      exact .inl ⟨hleftSettled.resolved rfl, hrightSettled.resolved rfl,
          .primitive base, rfl, rfl⟩
  | .conditional hcondition hthen helse htypes, hconcrete, htable => by
      have hfirst := hcondition.holeFree hconcrete.1 htable
      have hsecond := hthen.holeFree hconcrete.2.1 hfirst
      have hconditionSettled := hcondition.settled hconcrete.1 htable
      have hthenSettled := hthen.settled hconcrete.2.1 hfirst
      have helseSettled := helse.settled hconcrete.2.2 hsecond
      obtain ⟨rfl, hsame, hhole, rfl⟩ := htypes
      have helseHole := Ty.anyHasHole_eq_of_sameAll hsame hhole
      exact .inl ⟨hconditionSettled.resolved rfl, hthenSettled.resolved hhole,
          helseSettled.resolved helseHole, hhole⟩
  | .array helements _, hconcrete, htable => by
      obtain ⟨hresolved, hhole⟩ := helements.resolved hconcrete htable
      rw [Ty.anyHasHole, Bool.or_eq_false_iff] at hhole
      exact .inl ⟨hresolved, _, rfl, hhole.1⟩
  | .apply harguments hcallee htypes, hconcrete, htable => by
      obtain ⟨hresolved, hhole⟩ := harguments.resolved hconcrete.2 htable
      have hmiddle := harguments.holeFree hconcrete.2 htable
      exact .inl ⟨(hcallee.settled hconcrete.1 hmiddle).callee, hresolved,
        Rule.anyHasHole_of_application htypes hhole⟩
  | .function htypes hbody hresults, hconcrete, htable => by
      have hhole := Ty.anyHasHole_of_declared hconcrete.1 htypes
      obtain ⟨hresolved, hcandidates⟩ :=
        hbody.resolved hconcrete.2.2 (htable.enter (Ty.hasHole_of_mem_zip _ hhole))
      have hreturns := Ty.anyHasHole_of_results hresults hcandidates hconcrete.2.1
      refine .inl ⟨Variable.resolved_of_declared hconcrete.1 htypes, hreturns,
          hresolved, _, rfl, ?_⟩
      simp [Signature.toTy, Ty.hasHole, hhole, hreturns]

theorem Expr.ChecksEach.resolved {line : Nat} {table after : SymbolTable}
    {expressions new : List Expr} {types : List Ty} :
    Expr.ChecksEach line table expressions new types after →
      Expr.AllConcrete expressions →
      table.HoleFree → Expr.AllResolved new ∧ Ty.anyHasHole types = false
  | .nil _ _, _, _ => ⟨trivial, rfl⟩
  | .cons hfirst hhole hothers, hconcrete, htable => by
      have hsettled := hfirst.settled hconcrete.1 htable
      obtain ⟨hresolved, htypes⟩ :=
        hothers.resolved hconcrete.2 (hfirst.holeFree hconcrete.1 htable)
      exact ⟨⟨hsettled.resolved (by simp [Ty.anyHasHole, hhole]), hresolved⟩,
        by simp [Ty.anyHasHole, hhole, htypes]⟩

theorem Expr.ChecksResults.resolved {line : Nat} {table after : SymbolTable}
    {expressions new : List Expr} {types : List Ty} :
    Expr.ChecksResults line table expressions new types after →
      Expr.AllConcrete expressions →
      table.HoleFree → Expr.AllResolved new ∧ Ty.anyHasHole types = false
  | .nil _ _, _, _ => ⟨trivial, rfl⟩
  | .cons hfirst hhole hothers, hconcrete, htable => by
      have hsettled := hfirst.settled hconcrete.1 htable
      obtain ⟨hresolved, htypes⟩ :=
        hothers.resolved hconcrete.2 (hfirst.holeFree hconcrete.1 htable)
      refine ⟨⟨hsettled.resolved hhole, hresolved⟩, ?_⟩
      rw [Ty.anyHasHole_iff_mem] at hhole htypes ⊢
      exact List.forall_mem_append.2 ⟨hhole, htypes⟩

theorem Statement.Checks.resolved {inFunction : Bool} {table after : SymbolTable}
    {statement new : Statement} {types? : Option (List Ty)} :
    Statement.Checks inFunction table statement new types? after →
      statement.Concrete → table.HoleFree →
      new.Resolved ∧ ∀ types ∈ types?, Ty.anyHasHole types = false
  | .recursive _ _ _ hassigned hvalue, hconcrete, htable => by
      have hsettled := hvalue.settled hconcrete.2 (hassigned.holeFree htable)
      exact ⟨⟨hassigned.resolved, hsettled.resolved hassigned.anyHasHole⟩, by simp⟩
  | .assign _ _ hvalue hassigned, hconcrete, htable => by
      have hsettled := hvalue.settled hconcrete.2 htable
      exact ⟨⟨hassigned.resolved, hsettled.resolved hassigned.anyHasHole⟩, by simp⟩
  | .result hexpressions, hconcrete, htable => by
      obtain ⟨hresolved, hhole⟩ := hexpressions.resolved hconcrete htable
      exact ⟨hresolved, by simpa using hhole⟩

theorem Statement.ChecksAll.resolved {inFunction : Bool} {table after : SymbolTable}
    {statements new : List Statement} {candidates : List (List Ty)} :
    Statement.ChecksAll inFunction table statements new candidates after →
      Statement.AllConcrete statements → table.HoleFree →
      Statement.AllResolved new ∧ ∀ types ∈ candidates, Ty.anyHasHole types = false
  | .nil _ _, _, _ => ⟨trivial, by simp⟩
  | .cons hfirst hothers, hconcrete, htable => by
      obtain ⟨hstatement, htypes⟩ := hfirst.resolved hconcrete.1 htable
      obtain ⟨hresolved, hcandidates⟩ :=
        hothers.resolved hconcrete.2 (hfirst.holeFree hconcrete.1 htable)
      refine ⟨⟨hstatement, hresolved⟩, List.forall_mem_append.2 ⟨?_, hcandidates⟩⟩
      exact fun types hmember => htypes types (Option.mem_toList.1 hmember)

end

private theorem Statement.allResolved_of_checkAll (statements : List Statement)
    (hconcrete : Statement.AllConcrete statements) {inFunction : Bool}
    {table after : SymbolTable} {new : List Statement} {candidates : List (List Ty)}
    (htable : table.HoleFree)
    (h : (Statement.checkAll inFunction statements).Yields table
      (new, candidates) after) :
    Statement.AllResolved new ∧ ∀ types ∈ candidates, Ty.anyHasHole types = false :=
  (Statement.checksAll_of_yields statements h).resolved hconcrete htable

/-! ## Analyses -/

namespace Analysis

theorem ofString_eq_ok_iff {text : String} {analysis : Analysis} :
    Analysis.ofString text = .ok analysis ↔
      ∃ program, Program.ofString text = .ok program ∧
        program.check.Yields .empty analysis.program analysis.table := by
  unfold Analysis.ofString
  constructor
  · intro h
    split at h
    · cases h
    · rename_i program hprogram
      refine ⟨program, hprogram, ?_⟩
      split at h
      · cases h
      · rename_i new table hcheck
        cases h
        exact hcheck
  · rintro ⟨program, hprogram, hcheck⟩
    rw [Checker.Yields, Checker.runOn] at hcheck
    simp only [hprogram, hcheck]

/-- No hole survives an analysis: the typed program is resolved, and every table
that the check of the parsed program passes through, one operation after the other
up to the table of the analysis, has no hole. -/
theorem holeFree_of_ofString (text : String) (analysis : Analysis)
    (h : Analysis.ofString text = .ok analysis) :
    analysis.program.Resolved ∧
      ∃ program, Program.ofString text = .ok program ∧
        SymbolTable.Path .empty (program.traced.later .empty) analysis.table ∧
        ∀ table ∈ SymbolTable.empty :: program.traced.later .empty,
          table.HoleFree := by
  obtain ⟨program, hprogram, hcheck⟩ := ofString_eq_ok_iff.1 h
  have hconcrete := Program.concrete_of_ofString hprogram
  obtain ⟨candidates, hstatements⟩ := Program.check_iff.1 hcheck
  refine ⟨?_, program, hprogram, ?_, ?_⟩
  · exact (Statement.allResolved_of_checkAll program.statements hconcrete
      SymbolTable.holeFree_empty hstatements).1
  · have hpath := program.traced.path .empty
    rwa [program.checker_traced, hcheck] at hpath
  · intro table htable
    rcases List.mem_cons.1 htable with rfl | hlater
    · exact SymbolTable.holeFree_empty
    · exact Program.keeps_traced hconcrete .empty SymbolTable.holeFree_empty table
        hlater

end Analysis

/-- The program of the text

    xs = [1, 2]
    f = (ys []int) -> { return (!length ys) }
    n = (!get xs (!f xs))
-/
def Program.measured : Program := ⟨[
  .assign [⟨"xs", none⟩] (.array none [.int 1, .int 2]) 1,
  .assign [⟨"f", none⟩]
    (.function [⟨"ys", some (.array .int)⟩] [] true
      [.result [.apply (.named "length") [.named "ys"] []] 2] none) 2,
  .assign [⟨"n", none⟩]
    (.apply (.named "get")
      [.named "xs", .apply (.named "f") [.named "xs"] []] []) 3]⟩

theorem Analysis.measured_holeFree :
    ∃ analysis, Analysis.ofString Program.measured.print = .ok analysis ∧
      analysis.program.Resolved ∧
      ∃ program, Program.ofString Program.measured.print = .ok program ∧
        SymbolTable.Path .empty (program.traced.later .empty) analysis.table ∧
        ∀ table ∈ SymbolTable.empty :: program.traced.later .empty,
          table.HoleFree := by
  have hparse :=
    Program.ofString_print (show Program.measured.Printable by decide +kernel)
  have hanalysis : ∃ analysis,
      Analysis.ofString Program.measured.print = .ok analysis :=
    ⟨⟨_, _⟩, Analysis.ofString_eq_ok_iff.2 ⟨_, hparse, rfl⟩⟩
  obtain ⟨analysis, h⟩ := hanalysis
  exact ⟨analysis, h,
    Analysis.holeFree_of_ofString Program.measured.print analysis h⟩

end ExprLang
