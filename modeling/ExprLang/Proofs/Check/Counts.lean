import ExprLang.Proofs.Check.Literals
import ExprLang.Proofs.Check.Resolved

/-!
# Counts of slots

An accepted program takes a slot for each variable that it assigns at top level, and
one more for each function literal that is not all that one name is assigned.
-/

namespace ExprLang

open Checker SymbolTable

/-! ## Bindings -/

private theorem Scope.find?_of_mem {scope : Scope}
    (hnames : (scope.map Symbol.name).Nodup) {symbol : Symbol}
    (hsymbol : symbol ∈ scope) :
    scope.find? symbol.name = some symbol := by
  induction scope with
  | nil => cases hsymbol
  | cons other scope ih =>
      obtain ⟨hother, hnames⟩ := List.nodup_cons.1 hnames
      unfold find?
      rcases List.mem_cons.1 hsymbol with rfl | hsymbol
      · simp
      · have hne : other.name ≠ symbol.name :=
          fun heq => hother (heq ▸ List.mem_map_of_mem hsymbol)
        rw [List.find?_cons_of_neg (by simpa using hne)]
        exact ih hnames hsymbol

namespace Analysis

def targets (analysis : Analysis) : List Variable :=
  analysis.program.statements.flatMap assigned

private theorem foldl_addBinding (scope : List Symbol)
    (bindings : List (String × Ty))
    (hnames : (bindings.map Prod.fst ++ scope.map Symbol.name).Nodup) :
    (scope.map Symbol.variable).foldl addBinding bindings =
      bindings ++ scope.map fun symbol => (symbol.name, symbol.type) := by
  induction scope generalizing bindings with
  | nil => simp
  | cons symbol scope ih =>
      have hnew : symbol.name ∉ bindings.map Prod.fst := by
        intro hmem
        exact (List.nodup_append.1 hnames).2.2 _ hmem _ (by simp) rfl
      have hadd : addBinding bindings symbol.variable =
          bindings ++ [(symbol.name, symbol.type)] := by
        have hany : ¬ bindings.any (·.1 = symbol.variable.name) = true := by
          intro hany
          obtain ⟨binding, hbinding, hname⟩ := List.any_eq_true.1 hany
          have hname : binding.1 = symbol.name := of_decide_eq_true hname
          exact hnew (hname ▸ List.mem_map_of_mem hbinding)
        exact if_neg hany
      rw [List.map_cons, List.foldl_cons, hadd, ih]
      · simp
      · simpa using hnames

section

variable {analysis : Analysis} {text : String} (h : ofString text = .ok analysis)
include h

theorem names_of_ofString : (analysis.table.globals.map Symbol.name).Nodup := by
  obtain ⟨program, -, hcheck⟩ := ofString_eq_ok_iff.1 h
  exact (Program.extends_of_check hcheck).names .nil

theorem targets_of_ofString :
    analysis.targets = analysis.table.globals.map Symbol.variable := by
  obtain ⟨program, -, hcheck⟩ := ofString_eq_ok_iff.1 h
  exact (Program.variables_of_check hcheck rfl).symm

private theorem countP_targets (holds : Ty → Bool) :
    analysis.targets.countP (·.type?.any holds) =
      (analysis.table.globals.filter (holds ·.type)).length := by
  rw [targets_of_ofString h, List.countP_map, List.countP_eq_length_filter]
  rfl

private theorem takes_of_ofString :
    Takes (Node.unnamedIn analysis.program.preorder) .empty analysis.table := by
  obtain ⟨program, -, hcheck⟩ := ofString_eq_ok_iff.1 h
  obtain ⟨taken, -, htakes, hok⟩ := program.taking_check .empty
  rw [hcheck] at htakes hok
  rwa [Program.unnamedIn_of_check hcheck, ← hok _ rfl]

private theorem bindings_of_ofString :
    analysis.bindings =
      analysis.table.globals.map fun symbol => (symbol.name, symbol.type) := by
  change analysis.targets.foldl addBinding [] = _
  rw [targets_of_ofString h, foldl_addBinding _ [] (names_of_ofString h),
    List.nil_append]

end

/-- Slots of an accepted program.  There is a value slot for each top-level variable
that is no function, and a function slot for each other one and for each function
literal without a name, as long as their numbers fit into 32 bits.  The bindings are
the top-level variables in order, each once and with the type of its global
symbol. -/
theorem slots_of_ofString (text : String) (analysis : Analysis)
    (h : ofString text = .ok analysis) :
    analysis.table.values =
        .ofNat (analysis.targets.countP (·.type?.any (!·.isFunction))) ∧
      (analysis.targets.countP (·.type?.any (!·.isFunction)) < UInt32.size →
        analysis.table.values.toNat =
          analysis.targets.countP (·.type?.any (!·.isFunction))) ∧
      analysis.table.functions =
        .ofNat (analysis.targets.countP (·.type?.any Ty.isFunction) +
          Node.unnamedIn analysis.program.preorder) ∧
      (analysis.targets.countP (·.type?.any Ty.isFunction) +
            Node.unnamedIn analysis.program.preorder < UInt32.size →
        analysis.table.functions.toNat =
          analysis.targets.countP (·.type?.any Ty.isFunction) +
            Node.unnamedIn analysis.program.preorder) ∧
      analysis.bindings.map (fun binding => ⟨binding.1, some binding.2⟩) =
        analysis.targets ∧
      (analysis.bindings.map Prod.fst).Nodup ∧
      ∀ binding ∈ analysis.bindings,
        (analysis.table.globals.find? binding.1).map Symbol.type =
          some binding.2 := by
  have hnames := names_of_ofString h
  have hvalues := (takes_of_ofString h).numbers_values
  obtain ⟨given, -, hgiven, hlength⟩ := (takes_of_ofString h).numbers_functions
  have hvalueCount : analysis.table.valueIndices.length =
      analysis.targets.countP (·.type?.any (!·.isFunction)) := by
    rw [countP_targets h, valueIndices, List.length_map]
  have hfunctionCount : analysis.table.functionIndices.length =
      analysis.targets.countP (·.type?.any Ty.isFunction) := by
    rw [countP_targets h, functionIndices, List.length_map]
  rw [hfunctionCount] at hlength
  refine ⟨?_, ?_, ?_, ?_, ?_, ?_, ?_⟩
  · rw [← hvalueCount]
    exact hvalues.counter_eq
  · rw [← hvalueCount]
    exact hvalues.toNat_counter
  · rw [← hlength]
    exact hgiven.counter_eq
  · rw [← hlength]
    exact hgiven.toNat_counter
  · rw [targets_of_ofString h, bindings_of_ofString h, List.map_map]
    rfl
  · rw [bindings_of_ofString h, List.map_map]
    exact hnames
  · intro binding hbinding
    rw [bindings_of_ofString h] at hbinding
    obtain ⟨symbol, hsymbol, rfl⟩ := List.mem_map.1 hbinding
    rw [Scope.find?_of_mem hnames hsymbol]
    rfl

end Analysis

def Program.callback : Program := ⟨[
  .assign [⟨"f", none⟩]
    (.function [⟨"g", some (.function [.int] [.int] none)⟩] [] true
      [.result [.apply (.named "g") [.int 1] []] 1] none) 1,
  .assign [⟨"n", none⟩]
    (.apply (.named "f")
      [.function [⟨"x", some .int⟩] [] true
        [.result [.operator .add none (.named "x") (.int 1)] 2] none] []) 2]⟩

theorem Analysis.callback_slots :
    ∃ analysis, Analysis.ofString Program.callback.print = .ok analysis ∧
      analysis.table.values = 1 ∧ analysis.table.functions = 2 ∧
      analysis.targets.countP (·.type?.any (!·.isFunction)) = 1 ∧
      analysis.targets.countP (·.type?.any Ty.isFunction) +
          Node.unnamedIn analysis.program.preorder = 2 ∧
      analysis.bindings.map (fun binding => ⟨binding.1, some binding.2⟩) =
        analysis.targets ∧
      (analysis.bindings.map Prod.fst).Nodup ∧
      ∀ binding ∈ analysis.bindings,
        (analysis.table.globals.find? binding.1).map Symbol.type =
          some binding.2 := by
  have hparse :=
    Program.ofString_print (show Program.callback.Printable by decide +kernel)
  have hanalysis : ∃ analysis,
      Analysis.ofString Program.callback.print = .ok analysis ∧
      analysis.targets.countP (·.type?.any (!·.isFunction)) = 1 ∧
      analysis.targets.countP (·.type?.any Ty.isFunction) +
          Node.unnamedIn analysis.program.preorder = 2 :=
    ⟨⟨_, _⟩, Analysis.ofString_eq_ok_iff.2 ⟨_, hparse, rfl⟩, rfl, rfl⟩
  obtain ⟨analysis, h, hvalues, hfunctions⟩ := hanalysis
  obtain ⟨hvalueCount, -, hfunctionCount, -, hbindings⟩ :=
    Analysis.slots_of_ofString Program.callback.print analysis h
  rw [hvalues] at hvalueCount
  rw [hfunctions] at hfunctionCount
  exact ⟨analysis, h, hvalueCount, hfunctionCount, hvalues, hfunctions, hbindings⟩

end ExprLang
