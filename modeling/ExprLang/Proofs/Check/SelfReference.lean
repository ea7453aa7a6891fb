import ExprLang.Proofs.Check.Visited

/-!
# Functions that refer to themselves

The name of a function that refers to itself is bound before its body is checked, in
the scope of the assignment.  Inside the body only the innermost frame and the
globals are visible.  So the name resolves to the declared signature when it is a
global, and does not resolve at all when it is a local of an enclosing function.
-/

namespace ExprLang

open Checker SymbolTable

/-! ## References -/

private theorem SymbolTable.typeOf?_of_localTypes_eq_none {table : SymbolTable}
    {name : String} (h : table.localTypes name = none) :
    table.typeOf? name = (table.globalTypes name).or
        ((Builtin.signature? name).map Signature.toTy) := by
  rw [typeOf?, map_resolve?, h, Option.none_or]

private theorem SymbolTable.globalTypes_define {table : SymbolTable}
    (hframes : table.frames = []) (name : String) (type : Ty) :
    (table.define name type).2.globalTypes =
      table.globalTypes.extend name type := by
  simp only [define, hframes, defineGlobal]
  split
  · exact Scope.types_insert _ _
  · split <;> exact Scope.types_insert _ _

def Expr.Resolves (table : SymbolTable) (name : String) (type : Ty) : Prop :=
  ∀ line bound, ((Expr.named name).check line bound).Yields table
    (.reference ⟨name, some type⟩, [type]) table

def Expr.Undefined (table : SymbolTable) (name : String) : Prop :=
  ∀ line bound, ((Expr.named name).check line bound).Fails table
    ⟨line, .undefinedIdentifier name⟩ table

private theorem Expr.resolves_of_typeOf? {table : SymbolTable} {name : String}
    {type : Ty} (h : table.typeOf? name = some type) :
    Expr.Resolves table name type := by
  intro line bound
  simp [Expr.named, Expr.walk, h]

private theorem Expr.undefined_of_typeOf? {table : SymbolTable} {name : String}
    (h : table.typeOf? name = none) :
    Expr.Undefined table name := by
  intro line bound
  rw [Expr.named, Expr.check, Expr.walk, now_bind]
  exact fails_bind_iff.2 (.inl (fails_typeOf_iff.2 ⟨h, rfl, rfl⟩))

/-! ## The name of a function -/

namespace Traced

variable {α : Type}

@[simp] theorem later_pure (value : α) (table : SymbolTable) :
    (pure value : Traced α).later table = [] :=
  rfl

@[simp] theorem later_require (line : Nat) (outcome : Except TypeFault α)
    (table : SymbolTable) :
    (Walker.require line outcome : Traced α).later table = [] := by
  cases outcome <;> rfl

@[simp] theorem checker_require (line : Nat) (outcome : Except TypeFault α) :
    (Walker.require line outcome : Traced α).checker =
      Checker.require line outcome := by
  cases outcome <;> rfl

@[simp] theorem later_agree (line : Nat) (target : Variable) (type : Ty)
    (table : SymbolTable) :
    (Walker.agree line target type : Traced Unit).later table = [] := by
  unfold Walker.agree
  split
  · split <;> rfl
  · rfl

@[simp] theorem checker_agree (line : Nat) (target : Variable) (type : Ty) :
    (Walker.agree line target type : Traced Unit).checker =
      Checker.agree line target type :=
  (sequential_forgets fun _ => True).agree trivial target type

theorem checker_bindRecursive (line : Nat) (targets : List Variable)
    (value : Expr) :
    (Walker.bindRecursive line targets value : Traced _).checker =
      Walker.bindRecursive line targets value :=
  (sequential_forgets fun _ => True).bindRecursive trivial value fun _ _ _ _ _ _ =>
    rfl

theorem later_place (line : Nat) (name : String) (type : Ty) (table : SymbolTable) :
    (Walker.place line name type : Traced Unit).later table =
      (place line name type).later table :=
  rfl

private theorem now_bind (line : Nat) (next : Nat → Traced α) :
    (Walker.now line >>= next) = next line :=
  rfl

private theorem mem_later_assign (line : Nat) {target : Variable} {type : Ty}
    {table state : SymbolTable} (hnew : table.resolve? target.name = none) :
    state ∈ (Walker.bind line target type : Traced Variable).later table ↔
      AssignedAll table [target] [type] state := by
  simp only [Walker.bind, Traced.now_bind, mem_later_bind, later_place,
    mem_later_place, later_agree, checker_agree, yields_agree_iff, later_require,
    checker_require, yields_require_iff, Rule.concrete_eq_ok_iff, later_pure,
    List.not_mem_nil, and_false, exists_false, or_false, false_or, Ty.anyHasHole,
    Bool.or_false]
  constructor
  · rintro ⟨_, _, ⟨hdeclared, rfl⟩, _, _, ⟨hhole, rfl⟩, -, rfl⟩
    exact .cons hdeclared hhole (.new hnew) (.nil _)
  · intro h
    cases h with
    | cons hdeclared hhole hassigned hothers =>
        cases hothers
        cases hassigned with
        | new => exact ⟨(), _, ⟨hdeclared, rfl⟩, (), _, ⟨hhole, rfl⟩, hnew, rfl⟩
        | again hlocal => simp [hnew] at hlocal

end Traced

namespace Statement

open Traced

section Recursive

variable {inFunction : Bool} {table bound state : SymbolTable} {target : Variable}
    {arguments : List Variable} {types returns : List Ty} {body : List Statement}
    {signature? : Option Signature} {line : Nat}

theorem globalTypes_of_assigned (hnew : table.resolve? target.name = none)
    (hbound : AssignedAll table [target] [.function types returns none] bound)
    (hstate : state ∈ bound :: ((Expr.function arguments returns false body
          signature?).traced line true).later bound) :
    (table.frames = [] →
        state.globalTypes target.name = some (.function types returns none)) ∧
      (table.frames ≠ [] → state.globalTypes target.name = none) := by
  have hvisited : visiting KeepsGlobals _
      ((Expr.function arguments returns false body signature?).traced line true) :=
    Expr.inner_traced closed_visiting trivial true _ fun _ _ => trivial
  have hglobals : state.globalTypes = bound.globalTypes := by
    rcases List.mem_cons.1 hstate with rfl | hstate
    · rfl
    · rw [globalTypes, (hvisited bound state hstate).globals_eq, globalTypes]
  rw [hglobals]
  constructor
  · intro hframes
    cases hbound with
    | cons _ _ hassigned hothers =>
        cases hothers
        obtain ⟨-, rfl⟩ := hassigned.eq_define hframes
        rw [globalTypes_define hframes]
        exact if_pos rfl
  · intro hframes
    rw [hbound.sameOutside.globalTypes_eq hframes]
    exact (resolve?_eq_none_iff.1 hnew).2

variable (hrefers : Statement.anyRefersTo target.name body = true)
  (htypes : arguments.map Variable.type? = types.map some)

include hrefers htypes

theorem yields_bindRecursive_iff {results? : Option (List Variable)} :
    (Checker.bindRecursive line [target]
        (.function arguments returns false body signature?)).Yields table results?
        bound ↔
      AssignedAll table [target] [.function types returns none] bound ∧
        results? = some (typed [target] [.function types returns none]) := by
  cases results? with
  | none => simp [yields_bindRecursive_none_iff, SelfReferring, hrefers]
  | some results =>
      rw [yields_bindRecursive_some_iff, Option.some.injEq]
      constructor
      · rintro ⟨_, _, found, _, _, _, htargets, hvalue, -, hfound, hassigned,
          hresults⟩
        cases htargets
        cases hvalue
        obtain rfl : types = found :=
          (List.map_inj_right fun _ _ => Option.some.inj).1
            (htypes.symm.trans hfound)
        exact ⟨hassigned, hresults⟩
      · rintro ⟨hassigned, hresults⟩
        exact ⟨target, arguments, types, returns, body, signature?, rfl, rfl,
          hrefers, htypes, hassigned, hresults⟩

private theorem undefined?_ne_of_fails (hnew : table.resolve? target.name = none)
    (hframes : table.frames = []) {error : TypeError} {after : SymbolTable}
    (h : ((Statement.assign [target]
      (.function arguments returns false body signature?) line).check
      inFunction).Fails table error after) :
    error.fault.undefined? ≠ some target.name := by
  intro hname
  rw [Statement.check, Statement.walk, Walker.assignment, fails_bind_iff] at h
  rcases h with hfails | ⟨_, bound, hresults, hfails⟩
  · -- Binding the name looks nothing up.
    have hnameless : nameless _ (Walker.bindRecursive line [target]
        (.function arguments returns false body signature?)) :=
      sequential_nameless.related.bindRecursive trivial _
        fun other _ type _ line _ =>
        nameless_place line other.name type
    rw [← checker_bindRecursive] at hfails
    rw [hnameless _ _ _ hfails] at hname
    cases hname
  · obtain ⟨hbound, rfl⟩ := (yields_bindRecursive_iff hrefers htypes).1 hresults
    simp only [fails_bind_iff, not_fails_pure, and_false, exists_false,
      or_false] at hfails
    change
      ((Expr.function arguments returns false body signature?).check line
        true).Fails bound error after at hfails
    rw [← Expr.checker_traced] at hfails
    have hlacking : lacking _ ((Expr.function arguments returns false body
          signature?).traced line true) :=
      Expr.inner_traced closed_lacking trivial true _ fun _ _ => trivial
    obtain ⟨state, hstate, hlacks⟩ := hlacking _ _ _ _ hfails hname
    rw [typeOf?, map_resolve?,
      (globalTypes_of_assigned hnew hbound hstate).1 hframes] at hlacks
    simp at hlacks

private theorem mem_later_bindRecursive (hnew : table.resolve? target.name = none) :
    state ∈
        (Walker.bindRecursive line [target]
          (.function arguments returns false body signature?) : Traced _).later
            table ↔
      AssignedAll table [target] [.function types returns none] state := by
  have hdeclared : Rule.declared arguments returns = .ok ⟨types, returns, none⟩ :=
    Rule.declared_eq_ok_iff.2 ⟨types, htypes, rfl⟩
  rw [← mem_later_assign line hnew]
  simp [Walker.bindRecursive, Traced.now_bind, hrefers, mem_later_bind, hdeclared,
    Signature.toTy]

private theorem mem_later_recursive (hnew : table.resolve? target.name = none) :
    state ∈ ((Statement.assign [target]
          (.function arguments returns false body signature?) line).traced
          inFunction).later table ↔
      ∃ bound, AssignedAll table [target] [.function types returns none] bound ∧
        state ∈ bound :: ((Expr.function arguments returns false body
              signature?).traced line true).later bound := by
  rw [Statement.traced, Statement.walk, Walker.assignment, mem_later_bind,
    mem_later_bindRecursive hrefers htypes hnew, checker_bindRecursive]
  simp only [yields_bindRecursive_iff hrefers htypes]
  constructor
  · rintro (hbound | ⟨_, bound, ⟨hbound, rfl⟩, hstate⟩)
    · exact ⟨state, hbound, List.mem_cons_self⟩
    · rcases mem_later_bind.1 hstate with hstate | ⟨_, _, _, hstate⟩
      · exact ⟨bound, hbound, List.mem_cons_of_mem _ hstate⟩
      · cases hstate
  · rintro ⟨bound, hbound, hstate⟩
    rcases List.mem_cons.1 hstate with rfl | hstate
    · exact .inl hbound
    · exact .inr ⟨_, bound, ⟨hbound, rfl⟩, mem_later_bind.2 (.inl hstate)⟩

end Recursive

/-- A function with declared types is assigned to a new name that its body refers
to.  As soon as the name is bound the body is checked, in a new frame.  From then
on, wherever no local of the innermost frame hides the name, a reference to it
depends on where the assignment stands.  Outside all functions it has the declared
signature, and the name is never reported as undefined.  Inside a function it is
refused, or taken for the built-in function of that name. -/
theorem own_name_resolves_as_global {inFunction : Bool} {table : SymbolTable}
    {statement : Statement} {target : Variable} {arguments : List Variable}
    {types returns : List Ty} {body : List Statement}
    {signature? : Option Signature} {line : Nat}
    (hstatement : statement =
      .assign [target] (.function arguments returns false body signature?) line)
    (hrefers : Statement.anyRefersTo target.name body = true)
    (htypes : arguments.map Variable.type? = types.map some)
    (hnew : table.resolve? target.name = none) :
    (∀ bound, AssignedAll table [target] [.function types returns none] bound →
        bound.enter ((arguments.map Variable.name).zip types) ∈
          (statement.traced inFunction).later table) ∧
      (table.frames = [] →
        (∀ state ∈ (statement.traced inFunction).later table,
            state.localTypes target.name = none →
            Expr.Resolves state target.name (.function types returns none)) ∧
          ∀ error after, (statement.check inFunction).Fails table error after →
            error.fault ≠ .undefinedIdentifier target.name) ∧
      (table.frames ≠ [] →
        ∀ state ∈ (statement.traced inFunction).later table,
          state.localTypes target.name = none →
          (∀ signature, Builtin.signature? target.name = some signature →
              Expr.Resolves state target.name signature.toTy) ∧
            (Builtin.signature? target.name = none →
              Expr.Undefined state target.name)) := by
  subst hstatement
  refine ⟨?_, fun hframes => ⟨?_, ?_⟩, fun hframes => ?_⟩
  · intro bound hbound
    refine (mem_later_recursive hrefers htypes hnew).2
      ⟨bound, hbound, List.mem_cons_of_mem _ ?_⟩
    have hdeclared : Rule.declared arguments returns = .ok ⟨types, returns, none⟩ :=
      Rule.declared_eq_ok_iff.2 ⟨types, htypes, rfl⟩
    rw [Expr.traced, Expr.walk, Walker.function, Traced.now_bind]
    refine mem_later_bind.2 (.inr ⟨⟨types, returns, none⟩, bound, ?_,
        mem_later_bind.2 (.inl List.mem_cons_self)⟩)
    rw [checker_require]
    exact yields_require_iff.2 ⟨hdeclared, rfl⟩
  · intro state hstate hlocal
    obtain ⟨bound, hbound, hstate⟩ :=
      (mem_later_recursive hrefers htypes hnew).1 hstate
    apply Expr.resolves_of_typeOf?
    rw [typeOf?_of_localTypes_eq_none hlocal,
      (globalTypes_of_assigned hnew hbound hstate).1 hframes, Option.some_or]
  · intro error after hfails hfault
    apply undefined?_ne_of_fails hrefers htypes hnew hframes hfails
    rw [hfault]
    rfl
  · intro state hstate hlocal
    obtain ⟨bound, hbound, hstate⟩ :=
      (mem_later_recursive hrefers htypes hnew).1 hstate
    have htype := typeOf?_of_localTypes_eq_none hlocal
    rw [(globalTypes_of_assigned hnew hbound hstate).2 hframes,
      Option.none_or] at htype
    constructor
    · intro signature hsignature
      rw [hsignature] at htype
      exact Expr.resolves_of_typeOf? htype
    · intro hsignature
      rw [hsignature] at htype
      exact Expr.undefined_of_typeOf? htype

def calling (name argument : String) (line : Nat) : Statement :=
  .assign [⟨name, none⟩]
    (.function [⟨argument, some .int⟩] [.int] false
      [.result [.apply (.named name) [.named argument] []] line] none) line

theorem calling_resolves_as_global :
    Expr.Resolves
        ((SymbolTable.empty.define "f" (.function [.int] [.int] none)).2.enter
          [("n", .int)]) "f" (.function [.int] [.int] none) ∧
      ∀ error after, ((calling "f" "n" 1).check false).Fails .empty error after →
        error.fault ≠ .undefinedIdentifier "f" := by
  have hresolves := @own_name_resolves_as_global false .empty (calling "f" "n" 1)
    ⟨"f", none⟩ [⟨"n", some .int⟩] [.int] [.int]
    [.result [.apply (.named "f") [.named "n"] []] 1] none 1 rfl (by decide) rfl rfl
  obtain ⟨hentered, hglobal, -⟩ := hresolves
  have hassigned : AssignedAll .empty [⟨"f", none⟩] [.function [.int] [.int] none]
      (SymbolTable.empty.define "f" (.function [.int] [.int] none)).2 :=
    .cons (by simp) rfl (.new rfl) (.nil _)
  exact ⟨(hglobal rfl).1 _ (hentered _ hassigned) rfl, (hglobal rfl).2⟩

end Statement

def Program.nested : Program := ⟨[
  .assign [⟨"f", none⟩]
    (.function [⟨"n", some .int⟩] [.int] false
      [.calling "g" "m" 2,
        .result [.apply (.named "g") [.named "n"] []] 3] none) 1]⟩

/-- The local function does not find its name in its body: the name is new and no
local hides it there, yet the reference is refused, and with it the program. -/
theorem Program.local_own_name_undefined :
    (SymbolTable.empty.enter [("n", .int)]).resolve? "g" = none ∧
      (∃ state ∈ ((Statement.calling "g" "m" 2).traced true).later
          (SymbolTable.empty.enter [("n", .int)]),
        state.localTypes "g" = none ∧ Expr.Undefined state "g") ∧
      ∃ after,
        Program.nested.check.Fails .empty ⟨2, .undefinedIdentifier "g"⟩ after :=
  ⟨rfl, ⟨_, List.mem_cons_of_mem _ List.mem_cons_self, rfl, fun _ _ => rfl⟩, _, rfl⟩

end ExprLang
