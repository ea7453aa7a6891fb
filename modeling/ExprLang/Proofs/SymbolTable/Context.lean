import ExprLang.Proofs.Ty.Same
import ExprLang.SymbolTable

/-!
# Contexts

The types that the names of a scope have, without the order and the indices of its
symbols.
-/

namespace ExprLang

abbrev Context := String → Option Ty

namespace Context

def empty : Context := fun _ => none

def extend (context : Context) (name : String) (type : Ty) : Context :=
  fun other => if other = name then some type else context other

/-- Of two arguments of one name the later one counts. -/
def ofArguments (arguments : List (String × Ty)) : Context :=
  arguments.foldl (fun context argument =>
    context.extend argument.1 argument.2) empty

def Same (left right : Context) : Prop :=
  ∀ name, (left name).map Ty.plain = (right name).map Ty.plain

theorem Same.refl (context : Context) : context.Same context := fun _ => rfl

theorem Same.eq_none_iff {left right : Context} (h : left.Same right)
    (name : String) :
    left name = none ↔ right name = none := by
  rw [← Option.map_eq_none_iff (f := Ty.plain), h name, Option.map_eq_none_iff]

theorem Same.exists_of_eq_some {left right : Context} (h : left.Same right)
    {name : String} {type : Ty} (hname : left name = some type) :
    ∃ found, right name = some found ∧ found.same type = true := by
  have hplain := h name
  rw [hname, Option.map_some, eq_comm, Option.map_eq_some_iff] at hplain
  obtain ⟨found, hfound, heq⟩ := hplain
  exact ⟨found, hfound, (Ty.same_iff_plain found type).2 heq⟩

theorem Same.extend {left right : Context} (h : left.Same right) (name : String)
    {type found : Ty} (hsame : found.same type = true) :
    (left.extend name type).Same (right.extend name found) := by
  intro other
  by_cases hother : other = name
  · simp [Context.extend, hother, (Ty.same_iff_plain found type).1 hsame]
  · simp [Context.extend, hother, h other]

end Context

/-! ## Scopes -/

namespace Scope

def types (scope : Scope) : Context :=
  fun name => (scope.find? name).map Symbol.type

theorem find?_insert (symbol : Symbol) (scope : Scope) (name : String) :
    (scope.insert symbol).find? name =
      if symbol.name = name then some symbol else scope.find? name := by
  induction scope with
  | nil =>
      simp only [insert, find?, List.find?_cons, List.find?_nil]
      by_cases hname : symbol.name = name <;> simp [hname]
  | cons other scope ih =>
      unfold insert
      split
      · rename_i hother
        by_cases hname : symbol.name = name <;> simp [find?, hother, hname]
      · rename_i hother
        simp only [find?, List.find?_cons] at ih ⊢
        by_cases hname : other.name = name
        · have hsymbol : ¬ symbol.name = name := by
            rintro rfl
            exact hother hname
          simp [hname, hsymbol]
        · simpa [hname] using ih

theorem types_insert (symbol : Symbol) (scope : Scope) :
    (scope.insert symbol).types = scope.types.extend symbol.name symbol.type := by
  funext name
  unfold types Context.extend
  rw [find?_insert]
  by_cases hname : symbol.name = name
  · simp [hname]
  · simp [hname, Ne.symm hname]

end Scope

namespace Frame

theorem types_define (frame : Frame) (name : String) (type : Ty) :
    (frame.define name type).2.symbols.types =
      frame.symbols.types.extend name type := by
  unfold define
  split <;> exact Scope.types_insert _ _

theorem types_ofArguments (arguments : List (String × Ty)) :
    (ofArguments arguments).symbols.types = Context.ofArguments arguments := by
  suffices h : ∀ (frame : Frame) (context : Context),
      frame.symbols.types = context →
      (arguments.foldl (fun frame argument =>
          (frame.define argument.1 argument.2).2) frame).symbols.types =
        arguments.foldl
          (fun context argument => context.extend argument.1 argument.2) context
          from h empty .empty rfl
  induction arguments with
  | nil =>
      intro frame context h
      exact h
  | cons argument arguments ih =>
      intro frame context h
      apply ih
      rw [types_define, h]

end Frame

/-! ## Tables -/

namespace SymbolTable

def globalTypes (table : SymbolTable) : Context := table.globals.types

def localTypes (table : SymbolTable) : Context :=
  table.frames.head?.elim .empty (·.symbols.types)

theorem localTypes_enter (table : SymbolTable) (arguments : List (String × Ty)) :
    (table.enter arguments).localTypes = Context.ofArguments arguments :=
  Frame.types_ofArguments arguments

@[simp] theorem globalTypes_enter (table : SymbolTable)
    (arguments : List (String × Ty)) :
    (table.enter arguments).globalTypes = table.globalTypes :=
  rfl

theorem localTypes_define {table : SymbolTable} (hframes : table.frames ≠ [])
    (name : String) (type : Ty) :
    (table.define name type).2.localTypes = table.localTypes.extend name type := by
  unfold define
  cases hframe : table.frames with
  | nil => exact absurd hframe hframes
  | cons frame frames =>
      simpa [localTypes, hframe] using frame.types_define name type

theorem map_resolve? (table : SymbolTable) (name : String) :
    (table.resolve? name).map (·.1.type) =
      (table.localTypes name).or (table.globalTypes name) := by
  unfold resolve? localTypes globalTypes Scope.types
  cases table.frames with
  | nil => cases table.globals.find? name <;> rfl
  | cons frame frames =>
      cases hfind : frame.symbols.find? name with
      | none => cases table.globals.find? name <;> simp [hfind]
      | some symbol => simp [hfind]

theorem resolve?_eq_none_iff {table : SymbolTable} {name : String} :
    table.resolve? name = none ↔
      table.localTypes name = none ∧ table.globalTypes name = none := by
  rw [← Option.map_eq_none_iff (f := (·.1.type)), map_resolve?,
    Option.or_eq_none_iff]

theorem localTypes_eq_some_iff {table : SymbolTable} {name : String} {type : Ty} :
    table.localTypes name = some type ↔
      ∃ symbol,
        table.resolve? name = some (symbol, .frame) ∧ symbol.type = type := by
  unfold resolve? localTypes Scope.types
  cases table.frames with
  | nil => cases table.globals.find? name <;> simp [Context.empty]
  | cons frame frames =>
      cases hfind : frame.symbols.find? name with
      | none => cases table.globals.find? name <;> simp [hfind]
      | some symbol => simp [hfind]

end SymbolTable

end ExprLang
