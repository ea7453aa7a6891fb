import ExprLang.Proofs.Check.Effect
import ExprLang.Proofs.SymbolTable.Context

/-!
# What a check leaves of a symbol table

Whether it succeeds or fails, the check of an expression changes nothing of the
table but the counter of functions, and the check of a statement of a function body
changes nothing else outside the innermost frame.
-/

namespace ExprLang

namespace SymbolTable

/-- Nothing but the counter of functions may differ. -/
structure SameScopes (before after : SymbolTable) : Prop where
  globals_eq : after.globals = before.globals
  values_eq : after.values = before.values
  frames_eq : after.frames = before.frames

/-- Inside a function nothing but the innermost frame and the counter of functions
may differ. -/
def SameOutside (before after : SymbolTable) : Prop :=
  ∀ frame frames, before.frames = frame :: frames →
    after.globals = before.globals ∧ after.values = before.values ∧
      ∃ newFrame, after.frames = newFrame :: frames

instance : Std.Refl SameScopes := ⟨fun _ => ⟨rfl, rfl, rfl⟩⟩

instance : Trans SameScopes SameScopes SameScopes where
  trans h₁ h₂ := ⟨h₂.globals_eq.trans h₁.globals_eq,
      h₂.values_eq.trans h₁.values_eq, h₂.frames_eq.trans h₁.frames_eq⟩

instance : Std.Refl SameOutside :=
  ⟨fun _ frame _ hframes => ⟨rfl, rfl, frame, hframes⟩⟩

instance : Trans SameOutside SameOutside SameOutside where
  trans h₁ h₂ := by
    intro frame frames hframes
    obtain ⟨hglobals, hvalues, newFrame, hnew⟩ := h₁ frame frames hframes
    obtain ⟨hglobals', hvalues', hnew'⟩ := h₂ newFrame frames hnew
    exact ⟨hglobals'.trans hglobals, hvalues'.trans hvalues, hnew'⟩

theorem SameScopes.sameOutside {before after : SymbolTable}
    (h : before.SameScopes after) :
    before.SameOutside after :=
  fun frame _ hframes =>
    ⟨h.globals_eq, h.values_eq, frame, h.frames_eq.trans hframes⟩

theorem sameOutside_define (table : SymbolTable) (name : String) (type : Ty) :
    table.SameOutside (table.define name type).2 := by
  intro frame frames hframes
  simp [define, hframes]

theorem SameOutside.leave {table after : SymbolTable}
    {arguments : List (String × Ty)}
    (h : (table.enter arguments).SameOutside after) :
    table.SameScopes after.leave := by
  obtain ⟨hglobals, hvalues, _, hframes⟩ := h _ _ rfl
  exact ⟨hglobals, hvalues, by simp [SymbolTable.leave, hframes]⟩

section Contexts

variable {before after : SymbolTable}

theorem SameScopes.globalTypes_eq (h : before.SameScopes after) :
    after.globalTypes = before.globalTypes := by
  rw [globalTypes, h.globals_eq, globalTypes]

theorem SameScopes.localTypes_eq (h : before.SameScopes after) :
    after.localTypes = before.localTypes := by
  rw [localTypes, h.frames_eq, localTypes]

theorem SameOutside.globalTypes_eq (h : before.SameOutside after)
    (hframes : before.frames ≠ []) :
    after.globalTypes = before.globalTypes := by
  obtain ⟨frame, frames, hcons⟩ := List.exists_cons_of_ne_nil hframes
  rw [globalTypes, (h frame frames hcons).1, globalTypes]

theorem SameOutside.frames_ne_nil (h : before.SameOutside after)
    (hframes : before.frames ≠ []) :
    after.frames ≠ [] := by
  obtain ⟨frame, frames, hcons⟩ := List.exists_cons_of_ne_nil hframes
  obtain ⟨-, -, newFrame, hnew⟩ := h frame frames hcons
  simp [hnew]

end Contexts

theorem closed_sameScopes :
    Effect.Closed (fun _ => True) (.ofRelation SameScopes)
      (.ofRelation SameOutside) where
  inside := Effect.sequential_ofRelation SameScopes
  outside := Effect.sequential_ofRelation SameOutside
  widen := SameScopes.sameOutside
  define type _ := sameOutside_define _ _ type
  reserve _ := ⟨rfl, rfl, rfl⟩
  leave := SameOutside.leave

end SymbolTable

open Checker SymbolTable

def Checker.Relates {α : Type} (relation : SymbolTable → SymbolTable → Prop)
    (checker : Checker α) : Prop :=
  checker.Has (.ofRelation relation)

theorem Checker.Relates.of_yields {α : Type}
    {relation : SymbolTable → SymbolTable → Prop} {checker : Checker α}
    (h : checker.Relates relation) {table after : SymbolTable} {value : α}
    (hyields : checker.Yields table value after) :
    relation table after :=
  Has.of_yields h hyields

private theorem Checker.relates_bindAll (line : Nat) (targets : List Variable)
    (types : List Ty) :
    (bindAll line targets types).Relates SameOutside :=
  has_bindAll closed_sameScopes trivial targets types

theorem Checker.AssignedAll.sameOutside {table after : SymbolTable}
    {targets : List Variable} {types : List Ty}
    (h : AssignedAll table targets types after) :
    table.SameOutside after :=
  (relates_bindAll 0 targets types).of_yields (yields_bindAll_iff.2 ⟨h, rfl⟩)

theorem Expr.relates_check (line : Nat) (bound : Bool) (expression : Expr) :
    (expression.check line bound).Relates SameScopes :=
  expression.has_check closed_sameScopes trivial bound fun _ _ => trivial

theorem Expr.relates_checkArguments (line : Nat) (arguments : List Expr) :
    (Expr.checkArguments line arguments).Relates SameScopes :=
  Expr.has_checkArguments closed_sameScopes trivial arguments fun _ _ => trivial

theorem Expr.relates_checkResults (line : Nat) (expressions : List Expr) :
    (Expr.checkResults line expressions).Relates SameScopes :=
  Expr.has_checkResults closed_sameScopes trivial expressions fun _ _ => trivial

theorem Statement.relates_check (inFunction : Bool) (statement : Statement) :
    (statement.check inFunction).Relates SameOutside :=
  statement.has_check closed_sameScopes inFunction fun _ _ => trivial

end ExprLang
