import ExprLang.Check.Basic
import ExprLang.Proofs.Check.Rule

/-!
# Successful checks

A checker yields a value on a symbol table and leaves another table.  For every form
of expression and statement it is said once what its parts yield when the whole
does.
-/

namespace ExprLang

namespace Checker

variable {α β : Type}

/-! ## The operations of the walk

A checker takes the line from the walk, so nothing is to be done to keep it. -/

abbrev require (line : Nat) (outcome : Except TypeFault α) : Checker α :=
  Walker.require line outcome

abbrev agree (line : Nat) (target : Variable) (type : Ty) : Checker Unit :=
  Walker.agree line target type

abbrev bind (line : Nat) (target : Variable) (type : Ty) : Checker Variable :=
  Walker.bind line target type

abbrev bindEach (line : Nat) (targets : List Variable) (types : List Ty) :
    Checker (List Variable) :=
  Walker.bindEach line targets types

abbrev bindAll (line : Nat) (targets : List Variable) (types : List Ty) :
    Checker (List Variable) :=
  Walker.bindAll line targets types

abbrev bindRecursive (line : Nat) (targets : List Variable) (value : Expr) :
    Checker (Option (List Variable)) :=
  Walker.bindRecursive line targets value

@[simp] theorem walker_fail (line : Nat) (fault : TypeFault) :
    (Walker.fail line fault : Checker α) = fail line fault := rfl

@[simp] theorem walker_typeOf (line : Nat) (name : String) :
    (Walker.typeOf line name : Checker Ty) = typeOf line name :=
  rfl

@[simp] theorem walker_place (line : Nat) (name : String) (type : Ty) :
    (Walker.place line name type : Checker Unit) = place line name type := rfl

@[simp] theorem walker_reserve : (Walker.reserve : Checker Unit) = reserve := rfl

@[simp] theorem walker_inFrame (arguments : List (String × Ty))
    (checker : Checker α) :
    Walker.inFrame arguments checker = inFrame arguments checker :=
  rfl

@[simp] theorem walker_onLine (line : Nat) (checker : Checker α) :
    Walker.onLine line checker = checker :=
  rfl

@[simp] theorem walker_block (checker : Checker α) :
    Walker.block checker = checker :=
  rfl

@[simp] theorem now_bind (line : Nat) (next : Nat → Checker β) :
    (Walker.now line >>= next) = next line :=
  rfl

/-! ## Runs -/

def runOn (checker : Checker α) (table : SymbolTable) :
    Except TypeError α × SymbolTable :=
  checker table

@[simp] theorem runOn_pure (value : α) (table : SymbolTable) :
    (pure value : Checker α).runOn table = (.ok value, table) := rfl

theorem runOn_bind (checker : Checker α) (next : α → Checker β)
    (table : SymbolTable) :
    (checker >>= next).runOn table =
      match checker.runOn table with
      | (.ok value, middle) => (next value).runOn middle
      | (.error error, middle) => (.error error, middle) := by
  simp only [runOn, Bind.bind, ExceptT.bind, ExceptT.mk, StateT.bind]
  cases checker table with
  | mk outcome middle => cases outcome <;> rfl

@[simp] theorem runOn_fail (line : Nat) (fault : TypeFault) (table : SymbolTable) :
    (fail line fault : Checker α).runOn table = (.error ⟨line, fault⟩, table) := rfl

@[simp] theorem runOn_get (table : SymbolTable) :
    (get : Checker SymbolTable).runOn table = (.ok table, table) := rfl

@[simp] theorem runOn_modify (change : SymbolTable → SymbolTable)
    (table : SymbolTable) :
    (modify change : Checker Unit).runOn table = (.ok (), change table) :=
  rfl

theorem runOn_inFrame (arguments : List (String × Ty)) (checker : Checker α)
    (table : SymbolTable) :
    (inFrame arguments checker).runOn table =
      ((checker.runOn (table.enter arguments)).1,
        (checker.runOn (table.enter arguments)).2.leave) :=
  rfl

/-! ## Yielding -/

def Yields (checker : Checker α) (table : SymbolTable) (value : α)
    (after : SymbolTable) : Prop :=
  checker.runOn table = (.ok value, after)

@[simp] theorem yields_pure_iff {table after : SymbolTable} {value result : α} :
    (pure value : Checker α).Yields table result after ↔
      result = value ∧ after = table := by
  simp [Yields, eq_comm]

@[simp] theorem yields_bind_iff {checker : Checker α} {next : α → Checker β}
    {table after : SymbolTable} {result : β} :
    (checker >>= next).Yields table result after ↔
      ∃ value middle, checker.Yields table value middle ∧
        (next value).Yields middle result after := by
  unfold Yields
  rw [runOn_bind]
  cases checker.runOn table with
  | mk outcome middle =>
      cases outcome with
      | error error => simp
      | ok value =>
          simp only [Prod.mk.injEq, Except.ok.injEq]
          constructor
          · intro h
            exact ⟨value, middle, ⟨rfl, rfl⟩, h⟩
          · rintro ⟨_, _, ⟨rfl, rfl⟩, h⟩
            exact h

@[simp] theorem yields_map_iff {checker : Checker α} {change : α → β}
    {table after : SymbolTable} {result : β} :
    (change <$> checker).Yields table result after ↔
      ∃ value, checker.Yields table value after ∧ result = change value := by
  rw [map_eq_pure_bind, yields_bind_iff]
  constructor
  · rintro ⟨value, middle, hvalue, hresult⟩
    obtain ⟨rfl, rfl⟩ := yields_pure_iff.1 hresult
    exact ⟨value, hvalue, rfl⟩
  · rintro ⟨value, hvalue, rfl⟩
    exact ⟨value, after, hvalue, yields_pure_iff.2 ⟨rfl, rfl⟩⟩

@[simp] theorem not_yields_fail {line : Nat} {fault : TypeFault}
    {table after : SymbolTable} {result : α} :
    ¬ (fail line fault : Checker α).Yields table result after := by
  simp [Yields]

@[simp] theorem yields_require_iff {line : Nat} {outcome : Except TypeFault α}
    {table after : SymbolTable} {result : α} :
    (require line outcome).Yields table result after ↔
      outcome = .ok result ∧ after = table := by
  cases outcome <;> simp [Walker.require, eq_comm]

@[simp] theorem yields_get_iff {table after found : SymbolTable} :
    (get : Checker SymbolTable).Yields table found after ↔
      found = table ∧ after = table := by
  simp [Yields, eq_comm]

@[simp] theorem yields_modify_iff {table after : SymbolTable}
    {change : SymbolTable → SymbolTable} {result : Unit} :
    (modify change : Checker Unit).Yields table result after ↔
      after = change table := by
  simp [Yields, eq_comm]

@[simp] theorem yields_reserve_iff {table after : SymbolTable} {result : Unit} :
    reserve.Yields table result after ↔ after = table.reserve.2 :=
  yields_modify_iff

theorem yields_single_iff {line : Nat} {place : SinglePlace} {types : List Ty}
    {table after : SymbolTable} {type : Ty} :
    (Walker.single line place types : Checker Ty).Yields table type after ↔
      (types = [type] ∧ type.hasHole = false) ∧ after = table := by
  unfold Walker.single
  split
  · rename_i found
    simp only [now_bind, yields_bind_iff, yields_require_iff,
      Rule.concrete_eq_ok_iff, yields_pure_iff, Ty.anyHasHole, Bool.or_false,
      List.cons.injEq, and_true]
    constructor
    · rintro ⟨_, _, ⟨hhole, rfl⟩, rfl, rfl⟩
      exact ⟨⟨rfl, hhole⟩, rfl⟩
    · rintro ⟨⟨rfl, hhole⟩, rfl⟩
      exact ⟨(), _, ⟨hhole, rfl⟩, rfl, rfl⟩
  · rename_i hnot
    constructor
    · intro h
      simp at h
    · rintro ⟨⟨rfl, -⟩, -⟩
      exact absurd rfl (hnot type)

theorem yields_branches_iff {line : Nat}
    {condition thenTypes elseTypes types : List Ty} {table after : SymbolTable} :
    (Walker.branches line condition thenTypes elseTypes : Checker (List Ty)).Yields
        table types after ↔
      Rule.Branches condition thenTypes elseTypes types ∧ after = table := by
  have hcondition : Ty.sameAll condition [.bool] = true ↔ condition = [.bool] :=
    Ty.sameAll_primitive_iff
  rw [Walker.branches, Rule.Branches, ← hcondition]
  cases Ty.sameAll condition [.bool] with
  | false => simp
  | true =>
      cases Ty.sameAll thenTypes elseTypes with
      | false => simp
      | true =>
          simp only [Bool.not_true, Bool.false_eq_true, if_false, now_bind,
            yields_bind_iff, yields_require_iff, Rule.concrete_eq_ok_iff,
            yields_pure_iff, true_and]
          constructor
          · rintro ⟨_, _, ⟨hhole, rfl⟩, rfl, rfl⟩
            exact ⟨⟨hhole, rfl⟩, rfl⟩
          · rintro ⟨⟨hhole, rfl⟩, rfl⟩
            exact ⟨(), _, ⟨hhole, rfl⟩, rfl, rfl⟩

theorem yields_inFrame_iff {arguments : List (String × Ty)} {checker : Checker α}
    {table after : SymbolTable} {result : α} :
    (inFrame arguments checker).Yields table result after ↔
      ∃ inner, checker.Yields (table.enter arguments) result inner ∧
        after = inner.leave := by
  unfold Yields
  rw [runOn_inFrame]
  cases checker.runOn (table.enter arguments) with
  | mk outcome inner =>
      simp only [Prod.mk.injEq]
      constructor
      · rintro ⟨rfl, rfl⟩
        exact ⟨inner, ⟨rfl, rfl⟩, rfl⟩
      · rintro ⟨_, ⟨rfl, rfl⟩, rfl⟩
        exact ⟨rfl, rfl⟩

/-! ## Names -/

end Checker

def SymbolTable.typeOf? (table : SymbolTable) (name : String) : Option Ty :=
  ((table.resolve? name).map (·.1.type)).or
    ((Builtin.signature? name).map Signature.toTy)

namespace Checker

@[simp] theorem yields_typeOf_iff {line : Nat} {name : String}
    {table after : SymbolTable} {type : Ty} :
    (typeOf line name).Yields table type after ↔
      table.typeOf? name = some type ∧ after = table := by
  simp only [typeOf, yields_bind_iff, yields_get_iff, SymbolTable.typeOf?]
  constructor
  · rintro ⟨_, _, ⟨rfl, rfl⟩, h⟩
    split at h
    · rename_i hresolve
      simp_all
    · rename_i hresolve
      split at h <;> simp_all
  · rintro ⟨h, rfl⟩
    refine ⟨_, _, ⟨rfl, rfl⟩, ?_⟩
    split
    · simp_all
    · split <;> simp_all

/-! ## Assignments -/

/-- When a variable of a name may be assigned a value of a type, and the table after
that. -/
inductive Assigned (table : SymbolTable) (name : String) (type : Ty) :
    SymbolTable → Prop
  | new (hnew : table.resolve? name = none) :
      Assigned table name type (table.define name type).2
  | again {symbol : Symbol} (hlocal : table.resolve? name = some (symbol, .frame))
      (hsame : symbol.type.same type = true) : Assigned table name type table

theorem yields_agree_iff {line : Nat} {target : Variable} {type : Ty}
    {table after : SymbolTable} {result : Unit} :
    (agree line target type).Yields table result after ↔
      (∀ declared, target.type? = some declared → declared.same type = true) ∧
        after = table := by
  unfold agree Walker.agree
  cases target.type? with
  | none => simp
  | some declared => cases h : declared.same type <;> simp [h]

theorem yields_place_iff {line : Nat} {name : String} {type : Ty}
    {table after : SymbolTable} {result : Unit} :
    (place line name type).Yields table result after ↔
      Assigned table name type after := by
  simp only [place, yields_bind_iff, yields_get_iff]
  constructor
  · rintro ⟨_, _, ⟨rfl, rfl⟩, h⟩
    split at h
    · simp at h
    · rename_i symbol hsymbol
      split at h
      · rename_i hsame
        simp only [yields_pure_iff, true_and] at h
        subst h
        exact .again hsymbol hsame
      · simp at h
    · rename_i hnew
      rw [yields_modify_iff] at h
      subst h
      exact .new hnew
  · intro h
    refine ⟨table, table, ⟨rfl, rfl⟩, ?_⟩
    cases h with
    | new hnew => simp [hnew]
    | again hlocal hsame => simp [hlocal, hsame]

theorem yields_assign_iff {line : Nat} {target result : Variable} {type : Ty}
    {table after : SymbolTable} :
    (Checker.bind line target type).Yields table result after ↔
      (∀ declared, target.type? = some declared → declared.same type = true) ∧
        type.hasHole = false ∧ Assigned table target.name type after ∧
        result = ⟨target.name, some type⟩ := by
  simp only [Checker.bind, Walker.bind, now_bind, walker_place, yields_bind_iff,
    yields_agree_iff, yields_require_iff, Rule.concrete_eq_ok_iff, yields_place_iff,
    yields_pure_iff, Ty.anyHasHole, Bool.or_false]
  constructor
  · rintro ⟨_, _, ⟨hdeclared, rfl⟩, _, _, ⟨hhole, rfl⟩, _, _, hassigned, rfl, rfl⟩
    exact ⟨hdeclared, hhole, hassigned, rfl⟩
  · rintro ⟨hdeclared, hhole, hassigned, rfl⟩
    exact ⟨(), _, ⟨hdeclared, rfl⟩, (), _, ⟨hhole, rfl⟩, (), _, hassigned, rfl, rfl⟩

inductive AssignedAll : SymbolTable → List Variable → List Ty → SymbolTable → Prop
  | nil (table : SymbolTable) : AssignedAll table [] [] table
  | cons {table middle after : SymbolTable} {target : Variable}
      {targets : List Variable} {type : Ty} {types : List Ty}
      (hdeclared : ∀ declared,
        target.type? = some declared → declared.same type = true)
      (hhole : type.hasHole = false)
      (hassigned : Assigned table target.name type middle)
      (hothers : AssignedAll middle targets types after) :
      AssignedAll table (target :: targets) (type :: types) after

theorem AssignedAll.length_eq {table after : SymbolTable} {targets : List Variable}
    {types : List Ty} (h : AssignedAll table targets types after) :
    targets.length = types.length := by
  induction h with
  | nil => rfl
  | cons _ _ _ _ ih => simp [ih]

def typed (targets : List Variable) (types : List Ty) : List Variable :=
  targets.zipWith (fun target type => ⟨target.name, some type⟩) types

theorem AssignedAll.length_typed {table after : SymbolTable}
    {targets : List Variable} {types : List Ty}
    (h : AssignedAll table targets types after) :
    (typed targets types).length = targets.length := by
  simp [typed, h.length_eq]

theorem yields_bindAll_iff {line : Nat} {targets results : List Variable}
    {types : List Ty} {table after : SymbolTable} :
    (bindAll line targets types).Yields table results after ↔
      AssignedAll table targets types after ∧ results = typed targets types := by
  have each {targets results : List Variable} {types : List Ty}
      {table after : SymbolTable} (hlength : targets.length = types.length) :
      (bindEach line targets types).Yields table results after ↔
        AssignedAll table targets types after ∧ results = typed targets types := by
    induction targets generalizing types results table after with
    | nil =>
        cases types with
        | cons => simp at hlength
        | nil =>
            simp only [bindEach, Walker.bindEach, yields_pure_iff, typed,
              List.zipWith_nil_left]
            constructor
            · rintro ⟨rfl, rfl⟩
              exact ⟨.nil _, rfl⟩
            · rintro ⟨hall, rfl⟩
              cases hall
              exact ⟨rfl, rfl⟩
    | cons target targets ih =>
        cases types with
        | nil => simp at hlength
        | cons type types =>
            have hlength : targets.length = types.length := by simpa using hlength
            simp only [bindEach, Walker.bindEach, yields_bind_iff,
              yields_assign_iff, ih hlength, yields_pure_iff]
            constructor
            · rintro ⟨_, _, ⟨hdeclared, hhole, hassigned, rfl⟩, _, _,
                ⟨hothers, rfl⟩, rfl, rfl⟩
              exact ⟨.cons hdeclared hhole hassigned hothers, rfl⟩
            · rintro ⟨hall, rfl⟩
              cases hall with
              | cons hdeclared hhole hassigned hothers =>
                  exact ⟨_, _, ⟨hdeclared, hhole, hassigned, rfl⟩, _, _,
                    ⟨hothers, rfl⟩, rfl, rfl⟩
  unfold bindAll Walker.bindAll
  by_cases hlength : targets.length = types.length
  · simpa [hlength] using each hlength
  · have hnot : ¬ AssignedAll table targets types after := by
      intro hall
      apply hlength
      clear hlength each
      induction hall with
      | nil => rfl
      | cons _ _ _ _ ih => simp [ih]
    simp [hlength, hnot]

/-- A single name that is assigned a function literal whose body refers to the
name. -/
def SelfReferring : List Variable → Expr → Prop
  | [target], .function _ _ _ body _ =>
      Statement.anyRefersTo target.name body = true
  | _, _ => False

theorem yields_bindRecursive_none_iff {line : Nat} {targets : List Variable}
    {value : Expr} {table after : SymbolTable} :
    (bindRecursive line targets value).Yields table none after ↔
      ¬ SelfReferring targets value ∧ after = table := by
  unfold bindRecursive Walker.bindRecursive SelfReferring
  split
  · split
    · rename_i hrefers
      split <;> simp [hrefers]
    · rename_i hrefers
      simp [hrefers]
  · simp

theorem yields_bindRecursive_some_iff {line : Nat} {targets results : List Variable}
    {value : Expr} {table after : SymbolTable} :
    (bindRecursive line targets value).Yields table (some results) after ↔
      ∃ target arguments types returns body signature?, targets = [target] ∧
        value = .function arguments returns false body signature? ∧
        Statement.anyRefersTo target.name body = true ∧
        arguments.map Variable.type? = types.map some ∧
        AssignedAll table targets [.function types returns none] after ∧
        results = typed targets [.function types returns none] := by
  constructor
  · intro h
    unfold bindRecursive Walker.bindRecursive at h
    split at h
    · rename_i target arguments returns returnsOmitted body signature?
      split at h
      · rename_i hrefers
        split at h
        · simp at h
        · rename_i homitted
          simp only [now_bind, yields_bind_iff, yields_require_iff,
            Rule.declared_eq_ok_iff, yields_assign_iff, yields_pure_iff,
            Option.some.injEq] at h
          obtain ⟨_, _, ⟨⟨types, htypes, rfl⟩, rfl⟩, _, _,
              ⟨hdeclared, hhole, hassigned, rfl⟩, rfl, rfl⟩ := h
          simp only [Bool.not_eq_true] at homitted
          subst homitted
          exact ⟨target, arguments, types, returns, body, signature?, rfl, rfl,
            hrefers, htypes, .cons hdeclared hhole hassigned (.nil _), rfl⟩
      · simp at h
    · simp at h
  · rintro ⟨target, arguments, types, returns, body, signature?, rfl, rfl, hrefers,
      htypes, hall, rfl⟩
    cases hall with
    | cons hdeclared hhole hassigned hothers =>
        cases hothers
        simp only [bindRecursive, Walker.bindRecursive, now_bind, hrefers, if_true,
          Bool.false_eq_true, if_false, yields_bind_iff, yields_require_iff,
          Rule.declared_eq_ok_iff, yields_assign_iff, yields_pure_iff]
        exact ⟨_, _, ⟨⟨types, htypes, rfl⟩, rfl⟩, _, _,
          ⟨hdeclared, hhole, hassigned, rfl⟩, rfl, rfl⟩

end Checker

end ExprLang
