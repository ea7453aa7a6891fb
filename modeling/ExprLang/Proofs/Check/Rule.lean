import ExprLang.Check.Rule
import ExprLang.Proofs.Bindings.Matching

/-!
# When typing rules apply

Each rule succeeds exactly under a condition on the types of the parts.  An
application yields what one substitution makes of the declared return types,
provided that it makes the arguments of the parameters.
-/

namespace ExprLang

open Ty Outcome

def Operator.Accepts (op : Operator) (base : Primitive) : Prop :=
  match op with
  | .or | .and => base = .bool
  | .eq | .notEq => base ≠ .string
  | .add | .sub | .mul | .div | .greater | .greaterEq | .less | .lessEq =>
      base = .int ∨ base = .float

namespace Rule

private theorem allows_iff_accepts {op : Operator} {base : Primitive} :
    allows op base = true ↔ op.Accepts base := by
  cases op <;> cases base <;>
    simp [allows, Operator.isLogical, Operator.isEquality, Primitive.isNumeric,
      Operator.Accepts]

@[simp] theorem concrete_eq_ok_iff {types : List Ty} {result : Unit} :
    concrete types = .ok result ↔ anyHasHole types = false := by
  rw [← firstHoleIn?_eq_none_iff, concrete]
  cases firstHoleIn? types <;> simp

theorem operand_eq_ok_iff {op : Operator} {left right : List Ty} {type : Ty} :
    operand op left right = .ok type ↔
      ∃ base,
        op.Accepts base ∧ left = [.primitive base] ∧ right = [.primitive base] ∧
        type = .primitive base := by
  constructor
  · intro h
    unfold operand at h
    split at h
    · rename_i left right
      split at h
      · rename_i leftBase rightBase hleft hright
        split at h
        · rename_i hbases
          cases left <;> simp [primitive?] at hleft
          cases right <;> simp [primitive?] at hright
          obtain ⟨rfl, hallows⟩ := hbases
          subst hleft hright
          simp only [Except.ok.injEq] at h
          exact ⟨_, allows_iff_accepts.1 hallows, rfl, rfl, h.symm⟩
        · cases h
      · cases h
    · cases h
  · rintro ⟨base, haccepts, rfl, rfl, rfl⟩
    simp [operand, primitive?, allows_iff_accepts.2 haccepts]

def Branches (condition thenTypes elseTypes types : List Ty) : Prop :=
  condition = [.bool] ∧ sameAll thenTypes elseTypes = true ∧
    anyHasHole thenTypes = false ∧ types = thenTypes

theorem element_eq_ok_iff {index : Nat} {expected? : Option Ty} {found type : Ty} :
    element index expected? found = .ok type ↔
      (expected? = none ∧ type = found) ∨
        (expected? = some type ∧ type.same found = true) := by
  cases expected? with
  | none =>
      simp [element]
      exact eq_comm
  | some expected =>
      simp only [element]
      split
      · rename_i hsame
        simp only [Except.ok.injEq, reduceCtorEq, false_and, Option.some.injEq,
          false_or]
        constructor
        · rintro rfl
          exact ⟨rfl, hsame⟩
        · exact And.left
      · rename_i hsame
        simp only [reduceCtorEq, false_and, Option.some.injEq, false_or, false_iff]
        rintro ⟨rfl, hfound⟩
        exact hsame hfound

/-! ## Applications -/

private theorem bindParameters_eq_ok_iff {position : Nat} {before after : Bindings}
    {parameters actuals : List Ty} :
    bindParameters position before parameters actuals = .ok after ↔
      before.matchAll parameters actuals = (true, after) := by
  induction parameters generalizing position before actuals with
  | nil => simp [bindParameters, Bindings.matchAll]
  | cons expected parameters ih =>
      cases actuals with
      | nil => simp [bindParameters, Bindings.matchAll]
      | cons found actuals =>
          cases hmatch : before.matchOne expected found with
          | mk matched middle =>
              cases matched with
              | true => simpa [bindParameters, Bindings.matchAll, hmatch] using ih
              | false => simp [bindParameters, Bindings.matchAll, hmatch]

theorem application_eq_ok_iff {callee actuals types : List Ty} :
    application callee actuals = .ok types ↔
      ∃ parameters returns index bindings,
        callee = [.function parameters returns index] ∧
        parameters.length = actuals.length ∧
        Bindings.matchAll [] parameters actuals = (true, bindings) ∧
        bindings.substituteAll returns = .ok types := by
  constructor
  · intro h
    unfold application at h
    split at h
    · rename_i parameters returns index
      split at h
      · cases h
      · rename_i hlength
        obtain ⟨bindings, hbindings, h⟩ := bind_eq_ok_iff.1 h
        refine ⟨parameters, returns, index, bindings, rfl, by simpa using hlength,
          bindParameters_eq_ok_iff.1 hbindings, ?_⟩
        split at h
        · rename_i found hfound
          simpa [hfound] using h
        · cases h
    · cases h
  · rintro ⟨parameters, returns, index, bindings, rfl, hlength, hmatch, hreturns⟩
    simp [application, hlength, bindParameters_eq_ok_iff.2 hmatch, hreturns, bind,
      Except.bind]

theorem application_sound {callee actuals types : List Ty}
    (h : application callee actuals = .ok types) :
    ∃ parameters returns index substitution,
      callee = [.function parameters returns index] ∧
      sameAll (instantiateAll substitution parameters) actuals = true ∧
      (∀ name ∈ holesAll returns, name ∈ holesAll parameters) ∧
      types = instantiateAll substitution returns := by
  obtain ⟨parameters, returns, index, bindings, rfl, hlength, hmatch, hreturns⟩ :=
    application_eq_ok_iff.1 h
  obtain ⟨gains, hsame⟩ := Bindings.matchAll_sound parameters actuals hlength hmatch
  obtain ⟨hbinds, rfl⟩ :=
    (Bindings.substituteAll_eq_ok_iff bindings returns).1 hreturns
  refine ⟨parameters, returns, index, bindings.substitution, rfl, hsame, ?_, rfl⟩
  intro name hname
  exact ((gains.binds_iff name).1 (hbinds name hname)).resolve_left
    (Bindings.not_binds_nil name)

theorem application_complete {parameters returns actuals : List Ty}
    (index : Option UInt32) {substitution : String → Ty}
    (hsame : sameAll (instantiateAll substitution parameters) actuals = true)
    (hholes : ∀ name ∈ holesAll returns, name ∈ holesAll parameters) :
    ∃ types, application [.function parameters returns index] actuals = .ok types ∧
      sameAll types (instantiateAll substitution returns) = true := by
  have hlength : parameters.length = actuals.length := by
    simpa using length_eq_of_sameAll hsame
  obtain ⟨bindings, hmatch, hagrees⟩ :=
    Bindings.matchAll_complete parameters actuals
      (Bindings.agrees_nil substitution) hsame
  have gains := (Bindings.matchAll_sound parameters actuals hlength hmatch).1
  refine ⟨instantiateAll bindings.substitution returns, application_eq_ok_iff.2
    ⟨parameters, returns, index, bindings, rfl, hlength, hmatch, ?_⟩, ?_⟩
  · rw [Bindings.substituteAll_eq_ok_iff]
    exact ⟨fun name hname => gains.binds (hholes name hname), rfl⟩
  · apply instantiateAll_same
    intro name hname
    obtain ⟨type, htype⟩ :=
      Option.isSome_iff_exists.1 (gains.binds (hholes name hname))
    simpa [Bindings.substitution, htype] using hagrees name type htype

theorem anyHasHole_of_application {callee actuals types : List Ty}
    (h : application callee actuals = .ok types)
    (hactuals : anyHasHole actuals = false) :
    anyHasHole types = false := by
  obtain ⟨parameters, returns, index, substitution, -, hsame, hholes, rfl⟩ :=
    application_sound h
  have hparameters := anyHasHole_eq_of_sameAll (sameAll_symm hsame) hactuals
  rw [anyHasHole_eq_false_iff, holesAll_instantiateAll,
    List.flatMap_eq_nil_iff] at hparameters ⊢
  exact fun name hname => hparameters name (hholes name hname)

/-! ## Functions -/

private theorem mapM_type?_eq_some_iff {arguments : List Variable}
    {types : List Ty} :
    arguments.mapM Variable.type? = some types ↔
      arguments.map Variable.type? = types.map some := by
  induction arguments generalizing types with
  | nil => cases types <;> simp
  | cons argument arguments ih =>
      simp only [List.mapM_cons, Option.bind_eq_bind, Option.bind_eq_some_iff,
        Option.pure_def, Option.some.injEq, List.map_cons]
      constructor
      · rintro ⟨type, htype, others, hothers, rfl⟩
        simp [htype, ih.1 hothers]
      · intro h
        cases types with
        | nil => simp at h
        | cons type types =>
            simp only [List.map_cons, List.cons.injEq] at h
            exact ⟨type, h.1, types, ih.2 h.2, rfl⟩

theorem declared_eq_ok_iff {arguments : List Variable} {returns : List Ty}
    {signature : Signature} :
    declared arguments returns = .ok signature ↔
      ∃ types, arguments.map Variable.type? = types.map some ∧
        signature = ⟨types, returns, none⟩ := by
  simp only [← mapM_type?_eq_some_iff, declared, declaredSignature?]
  cases arguments.mapM Variable.type? <;> simp [eq_comm]

theorem returns_eq_ok_iff {returnsOmitted : Bool} {declared types : List Ty}
    {candidates : List (List Ty)} :
    Rule.returns returnsOmitted declared candidates = .ok types ↔
      if returnsOmitted then candidates = [types] else types = declared := by
  cases returnsOmitted with
  | false => simp [Rule.returns, eq_comm]
  | true =>
      simp only [Rule.returns, if_true]
      split <;> simp_all

end Rule

end ExprLang
