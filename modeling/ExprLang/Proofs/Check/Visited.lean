import ExprLang.Proofs.Check.Failures

/-!
# Tables on the way

What holds of every table that a check passes through.  Checks of expressions keep
the globals on the whole way, and so do all checks inside a function.  A name is
reported as undefined only if one of the tables lacks it.
-/

namespace ExprLang

open Checker SymbolTable

/-! ## Globals -/

namespace SymbolTable

/-- The globals stay, and so does the number of open frames at least. -/
structure KeepsGlobals (before state : SymbolTable) : Prop where
  globals_eq : state.globals = before.globals
  depth_le : before.depth ≤ state.depth

def KeepsGlobalsInside (before state : SymbolTable) : Prop :=
  0 < before.depth → before.KeepsGlobals state

instance : Std.Refl KeepsGlobals := ⟨fun _ => ⟨rfl, Nat.le_refl _⟩⟩

instance : Trans KeepsGlobals KeepsGlobals KeepsGlobals where
  trans h₁ h₂ :=
    ⟨h₂.globals_eq.trans h₁.globals_eq, Nat.le_trans h₁.depth_le h₂.depth_le⟩

instance : Std.Refl KeepsGlobalsInside := ⟨fun table _ => Std.Refl.refl table⟩

instance : Trans KeepsGlobalsInside KeepsGlobalsInside KeepsGlobalsInside where
  trans h₁ h₂ hdepth := Trans.trans (h₁ hdepth)
    (h₂ (Nat.lt_of_lt_of_le hdepth (h₁ hdepth).depth_le))

private theorem keepsGlobalsInside_define (table : SymbolTable) (name : String)
    (type : Ty) :
    table.KeepsGlobalsInside (table.define name type).2 := by
  intro hdepth
  obtain ⟨frame, frames, hframes⟩ := List.exists_cons_of_length_pos hdepth
  constructor
  · simp [define, hframes]
  · simp [define, depth, hframes]

private theorem KeepsGlobalsInside.of_enter {table state : SymbolTable}
    {arguments : List (String × Ty)}
    (h : (table.enter arguments).KeepsGlobalsInside state) :
    table.KeepsGlobals state.leave ∧ table.KeepsGlobals state := by
  obtain ⟨hglobals, hdepth⟩ := h (Nat.succ_pos _)
  have hdepth : table.depth + 1 ≤ state.depth := hdepth
  have hleave : state.leave.depth = state.depth - 1 := List.length_tail
  exact ⟨⟨hglobals, hleave ▸ Nat.le_sub_of_add_le hdepth⟩, hglobals,
    Nat.le_of_succ_le hdepth⟩

end SymbolTable

namespace Traced

variable {α β : Type}

theorem mem_of_yields {traced : Traced α} {table middle : SymbolTable} {value : α}
    (h : traced.checker.Yields table value middle) :
    middle ∈ table :: traced.later table := by
  have hmember := (traced.path table).mem
  rwa [show traced.checker.runOn table = (.ok value, middle) from h] at hmember

theorem mem_later_bind {traced : Traced α} {next : α → Traced β}
    {table state : SymbolTable} :
    state ∈ (traced >>= next).later table ↔
      state ∈ traced.later table ∨
        ∃ value middle, traced.checker.Yields table value middle ∧
          state ∈ (next value).later middle := by
  rw [later_bind, List.mem_append]
  unfold Yields
  cases traced.checker.runOn table with
  | mk outcome middle => cases outcome <;> simp [laterOf]

theorem later_subset_bind (traced : Traced α) (next : α → Traced β)
    (table : SymbolTable) :
    table :: traced.later table ⊆ table :: (traced >>= next).later table := by
  rw [later_bind, ← List.cons_append]
  exact List.subset_append_left _ _

theorem later_subset_bind_of_yields {traced : Traced α} (next : α → Traced β)
    {table middle : SymbolTable} {value : α}
    (h : traced.checker.Yields table value middle) :
    middle :: (next value).later middle ⊆
      table :: (traced >>= next).later table := by
  refine List.cons_subset.2
    ⟨later_subset_bind traced next table (mem_of_yields h), fun state hstate => ?_⟩
  exact List.mem_cons_of_mem _ (mem_later_bind.2 (.inr ⟨value, middle, h, hstate⟩))

theorem mem_later_place {line : Nat} {name : String} {type : Ty}
    {table state : SymbolTable} :
    state ∈ (place line name type).later table ↔
      table.resolve? name = none ∧ state = (table.define name type).2 := by
  unfold place
  dsimp only
  split
  · rename_i hresolve
    simp [hresolve]
  · rename_i hresolve
    simp [hresolve]

/-- Every table on the way is related to the first one. -/
def visiting (relation : SymbolTable → SymbolTable → Prop) : Property :=
  fun _ traced => ∀ table, ∀ state ∈ traced.later table, relation table state

private theorem sequential_visiting
    (relation : SymbolTable → SymbolTable → Prop) [Std.Refl relation]
    [Trans relation relation relation] :
    Sequential (fun _ => True) (visiting relation) where
  done _ _ _ hstate := by cases hstate
  failed _ _ _ _ hstate := by cases hstate
  next := by
    intro α β traced next hfirst hnext table state hstate
    rcases mem_later_bind.1 hstate with hstate | ⟨value, middle, hyields, hstate⟩
    · exact hfirst table state hstate
    · have hlast := hnext value middle state hstate
      rcases List.mem_cons.1 (mem_of_yields hyields) with rfl | hmiddle
      · exact hlast
      · exact Trans.trans (r := relation) (s := relation)
          (hfirst table middle hmiddle) hlast

theorem closed_visiting :
    Traced.Closed (fun _ => True) (visiting KeepsGlobals)
      (visiting KeepsGlobalsInside) where
  inside := sequential_visiting KeepsGlobals
  outside := sequential_visiting KeepsGlobalsInside
  widen h table state hstate _ := h table state hstate
  typeOf _ _ _ _ hstate := by cases hstate
  place name type _ table state hstate := by
    obtain ⟨-, rfl⟩ := mem_later_place.1 hstate
    exact keepsGlobalsInside_define table name type
  reserve table state hstate := by
    obtain rfl := List.mem_singleton.1 hstate
    exact ⟨rfl, Nat.le_refl _⟩
  inFrame := by
    intro α traced arguments h table state hstate
    -- All tables of the body, and so the last one too, are related to the table
    -- with the new frame.
    have hbody :
        ∀ state ∈ table.enter arguments :: traced.later (table.enter arguments),
          (table.enter arguments).KeepsGlobalsInside state :=
      List.forall_mem_cons.2 ⟨Std.Refl.refl _, h _⟩
    rcases List.mem_cons.1 hstate with rfl | hstate
    · exact (hbody _ List.mem_cons_self).of_enter.2
    · rcases List.mem_append.1 hstate with hstate | hstate
      · exact (hbody _ (List.mem_cons_of_mem _ hstate)).of_enter.2
      · obtain rfl := List.mem_singleton.1 hstate
        exact (hbody _ (traced.path _).mem).of_enter.1

end Traced

/-! ## Undefined names -/

namespace Checker

theorem fails_inFrame_iff {α : Type} {arguments : List (String × Ty)}
    {checker : Checker α} {table after : SymbolTable} {error : TypeError} :
    (inFrame arguments checker).Fails table error after ↔
      ∃ last,
        checker.Fails (table.enter arguments) error last ∧ after = last.leave := by
  unfold Fails
  rw [runOn_inFrame]
  cases checker.runOn (table.enter arguments) with
  | mk outcome last => simp [eq_comm]

theorem fails_typeOf_iff {line : Nat} {name : String} {table after : SymbolTable}
    {error : TypeError} :
    (typeOf line name).Fails table error after ↔
      table.typeOf? name = none ∧ error = ⟨line, .undefinedIdentifier name⟩ ∧
        after = table := by
  unfold Fails SymbolTable.typeOf?
  rw [typeOf, runOn_bind, runOn_get]
  dsimp only
  split
  · rename_i hresolve
    simp [hresolve]
  · rename_i hresolve
    split
    · rename_i hsignature
      simp [hresolve, hsignature]
    · rename_i hsignature
      simp [hresolve, hsignature, eq_comm]

end Checker

namespace Traced

variable {α β : Type}

def nameless : Property := fun _ traced =>
  ∀ table error after,
    traced.checker.Fails table error after → error.fault.undefined? = none

/-- A name is reported as undefined only if a table on the way lacks it. -/
def lacking : Property := fun _ traced =>
  ∀ table error after name,
    traced.checker.Fails table error after → error.fault.undefined? = some name →
    ∃ state ∈ table :: traced.later table, state.typeOf? name = none

theorem lacking_of_nameless {traced : Traced α} (h : nameless α traced) :
    lacking α traced := by
  intro table error after name hfails hname
  rw [h table error after hfails] at hname
  cases hname

theorem sequential_nameless : Sequential (fun _ => True) nameless where
  done _ _ _ _ hfails := (not_fails_pure hfails).elim
  failed _ hfault _ _ _ hfails := by
    obtain ⟨rfl, -⟩ := fails_fail_iff.1 hfails
    exact hfault
  next hfirst hnext table error after hfails := by
    rcases fails_bind_iff.1 hfails with hfails | ⟨value, middle, -, hfails⟩
    · exact hfirst table error after hfails
    · exact hnext value middle error after hfails

theorem nameless_place (line : Nat) (name : String) (type : Ty) :
    nameless Unit (place line name type) := by
  intro table error after hfails
  obtain ⟨-, rfl | ⟨_, rfl⟩⟩ := of_place_fails hfails
  · rfl
  · rfl

private theorem sequential_lacking : Sequential (fun _ => True) lacking where
  done value := lacking_of_nameless (sequential_nameless.done value)
  failed hline hfault := lacking_of_nameless
    (sequential_nameless.failed hline hfault)
  next := by
    intro α β traced next hfirst hnext table error after name hfails hname
    rcases fails_bind_iff.1 hfails with hfails | ⟨value, middle, hyields, hfails⟩
    · obtain ⟨state, hstate, hlacks⟩ := hfirst table error after name hfails hname
      exact ⟨state, later_subset_bind traced next table hstate, hlacks⟩
    · obtain ⟨state, hstate, hlacks⟩ :=
        hnext value middle error after name hfails hname
      exact ⟨state, later_subset_bind_of_yields next hyields hstate, hlacks⟩

theorem closed_lacking : Traced.Closed (fun _ => True) lacking lacking where
  inside := sequential_lacking
  outside := sequential_lacking
  widen h := h
  typeOf := by
    intro line name _ table error after other hfails hother
    obtain ⟨hlacks, rfl, -⟩ := fails_typeOf_iff.1 hfails
    obtain rfl : name = other := by simpa [TypeFault.undefined?] using hother
    exact ⟨table, List.mem_cons_self, hlacks⟩
  place name type _ := lacking_of_nameless (nameless_place _ name type)
  reserve := by
    intro table error after name hfails
    cases hfails
  inFrame := by
    intro α traced arguments h table error after name hfails hname
    obtain ⟨last, hbody, -⟩ := fails_inFrame_iff.1 hfails
    obtain ⟨state, hstate, hlacks⟩ := h _ _ _ name hbody hname
    refine ⟨state, ?_, hlacks⟩
    exact List.mem_cons_of_mem _ (List.mem_append_left [_] hstate)

end Traced

end ExprLang
