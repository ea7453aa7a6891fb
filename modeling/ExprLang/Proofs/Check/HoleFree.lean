import ExprLang.Proofs.Check.Traced
import ExprLang.Proofs.Ty.Hole
import ExprLang.Proofs.Tree.Concrete

/-!
# Tables without holes

Checking a tree whose declared types have no holes passes only through tables whose
symbols have none.
-/

namespace ExprLang

/-! ## Tables -/

def Scope.HoleFree (scope : Scope) : Prop :=
  ∀ symbol ∈ scope, symbol.type.hasHole = false

theorem Scope.HoleFree.insert {scope : Scope} (h : scope.HoleFree) {symbol : Symbol}
    (hsymbol : symbol.type.hasHole = false) : (scope.insert symbol).HoleFree := by
  induction scope with
  | nil =>
      intro other hother
      obtain rfl := List.mem_singleton.1 hother
      exact hsymbol
  | cons first scope ih =>
      have hscope : Scope.HoleFree scope :=
        fun other hother => h other (List.mem_cons_of_mem _ hother)
      rw [Scope.insert]
      split
      · intro other hother
        rcases List.mem_cons.1 hother with rfl | hother
        · exact hsymbol
        · exact hscope other hother
      · intro other hother
        rcases List.mem_cons.1 hother with rfl | hother
        · exact h other List.mem_cons_self
        · exact ih hscope other hother

theorem Frame.holeFree_define {frame : Frame} (h : frame.symbols.HoleFree)
    (name : String) {type : Ty} (htype : type.hasHole = false) :
    (frame.define name type).2.symbols.HoleFree := by
  unfold Frame.define
  split <;> exact h.insert htype

private theorem Frame.holeFree_ofArguments {arguments : List (String × Ty)}
    (h : ∀ argument ∈ arguments, argument.2.hasHole = false) :
    (Frame.ofArguments arguments).symbols.HoleFree := by
  have hfold : ∀ (others : List (String × Ty)) (frame : Frame),
      (∀ argument ∈ others, argument.2.hasHole = false) →
      frame.symbols.HoleFree →
      (others.foldl (fun frame argument =>
        (frame.define argument.1 argument.2).2) frame).symbols.HoleFree := by
    intro others
    induction others with
    | nil => exact fun _ _ hframe => hframe
    | cons argument others ih =>
        intro frame hothers hframe
        exact ih _
          (fun other hother => hothers other (List.mem_cons_of_mem _ hother))
          (Frame.holeFree_define hframe argument.1
            (hothers argument List.mem_cons_self))
  exact hfold arguments Frame.empty h (by simp [Scope.HoleFree, Frame.empty])

namespace SymbolTable

/-- No symbol of the global scope or of a frame has a hole in its type. -/
structure HoleFree (table : SymbolTable) : Prop where
  globals : table.globals.HoleFree
  frames : ∀ frame ∈ table.frames, frame.symbols.HoleFree

theorem holeFree_empty : SymbolTable.empty.HoleFree :=
  ⟨by simp [Scope.HoleFree, empty], by simp [empty]⟩

variable {table : SymbolTable}

private theorem HoleFree.defineGlobal (h : table.HoleFree) (name : String)
    {type : Ty} (htype : type.hasHole = false) :
    (table.defineGlobal name type).2.HoleFree := by
  unfold SymbolTable.defineGlobal
  split
  · exact ⟨h.globals.insert htype, h.frames⟩
  · split <;> exact ⟨h.globals.insert htype, h.frames⟩

theorem HoleFree.define (h : table.HoleFree) (name : String) {type : Ty}
    (htype : type.hasHole = false) :
    (table.define name type).2.HoleFree := by
  unfold SymbolTable.define
  split
  · exact h.defineGlobal name htype
  · rename_i frame frames hframes
    have hall := h.frames
    rw [hframes] at hall
    refine ⟨h.globals, ?_⟩
    intro other hother
    rcases List.mem_cons.1 hother with rfl | hother
    · exact Frame.holeFree_define (hall frame List.mem_cons_self) name htype
    · exact hall other (List.mem_cons_of_mem _ hother)

private theorem HoleFree.reserve (h : table.HoleFree) : table.reserve.2.HoleFree :=
  ⟨h.globals, h.frames⟩

theorem HoleFree.enter (h : table.HoleFree) {arguments : List (String × Ty)}
    (harguments : ∀ argument ∈ arguments, argument.2.hasHole = false) :
    (table.enter arguments).HoleFree := by
  refine ⟨h.globals, ?_⟩
  intro frame hframe
  rcases List.mem_cons.1 hframe with rfl | hframe
  · exact Frame.holeFree_ofArguments harguments
  · exact h.frames frame hframe

private theorem HoleFree.leave (h : table.HoleFree) : table.leave.HoleFree :=
  ⟨h.globals, fun frame hframe => h.frames frame (List.mem_of_mem_tail hframe)⟩

theorem HoleFree.resolve? (h : table.HoleFree) {name : String} {symbol : Symbol}
    {level : Level} (hresolve : table.resolve? name = some (symbol, level)) :
    symbol.type.hasHole = false := by
  unfold SymbolTable.resolve? at hresolve
  split at hresolve
  · rename_i found hfound
    cases hresolve
    obtain ⟨frame, hframe, hsymbol⟩ := Option.bind_eq_some_iff.1 hfound
    exact h.frames frame (List.mem_of_mem_head? hframe) symbol
      (List.mem_of_find?_eq_some hsymbol)
  · obtain ⟨found, hfound, heq⟩ := Option.map_eq_some_iff.1 hresolve
    cases heq
    exact h.globals symbol (List.mem_of_find?_eq_some hfound)

end SymbolTable

open SymbolTable

/-! ## Declared arguments -/

theorem Ty.anyHasHole_of_declared {arguments : List Variable} {types : List Ty}
    (harguments : ∀ argument ∈ arguments, argument.Concrete)
    (h : arguments.map Variable.type? = types.map some) :
    Ty.anyHasHole types = false := by
  rw [Ty.anyHasHole_iff_mem]
  intro type htype
  have hmember : some type ∈ arguments.map Variable.type? :=
    h ▸ List.mem_map_of_mem htype
  obtain ⟨argument, hargument, heq⟩ := List.mem_map.1 hmember
  exact harguments argument hargument type heq

theorem Ty.hasHole_of_mem_zip (names : List String) {types : List Ty}
    (h : Ty.anyHasHole types = false) :
    ∀ argument ∈ names.zip types, argument.2.hasHole = false := by
  intro argument hargument
  exact Ty.anyHasHole_iff_mem.1 h argument.2 (List.of_mem_zip hargument).2

/-! ## Checkers -/

namespace Traced

variable {α β : Type}

def Keeps (traced : Traced α) : Prop :=
  ∀ table, table.HoleFree → ∀ state ∈ traced.later table, state.HoleFree

theorem Keeps.after {traced : Traced α} (h : traced.Keeps) {table : SymbolTable}
    (htable : table.HoleFree) :
    (traced.checker.runOn table).2.HoleFree := by
  rcases List.mem_cons.1 (traced.path table).mem with hfirst | hlater
  · rw [hfirst]
    exact htable
  · exact h table htable _ hlater

theorem Keeps.of_yields {traced : Traced α} (h : traced.Keeps)
    {table after : SymbolTable} {value : α} (htable : table.HoleFree)
    (hyields : traced.checker.Yields table value after) :
    after.HoleFree := by
  have hafter := h.after htable
  rwa [hyields] at hafter

theorem keeps_reading (checker : Checker α)
    (h : ∀ table, (checker.runOn table).2 = table) :
    (reading checker h).Keeps := by
  intro table _ state hstate
  cases hstate

theorem Keeps.bind {traced : Traced α} {next : α → Traced β} (h : traced.Keeps)
    (hnext : ∀ value, (next value).Keeps) : (traced >>= next).Keeps := by
  intro table htable state hstate
  rw [later_bind, List.mem_append] at hstate
  rcases hstate with hstate | hstate
  · exact h table htable state hstate
  · cases hrun : traced.checker.runOn table with
    | mk outcome middle =>
        rw [hrun] at hstate
        cases outcome with
        | error error => cases hstate
        | ok value =>
            exact hnext value middle (h.of_yields htable hrun) state hstate

private theorem keeps_place (line : Nat) (name : String) {type : Ty}
    (htype : type.hasHole = false) :
    (place line name type).Keeps := by
  intro table htable state hstate
  simp only [place] at hstate
  split at hstate
  · cases hstate
  · obtain rfl := List.mem_singleton.1 hstate
    exact htable.define name htype

private theorem keeps_reserve : reserve.Keeps := by
  intro table htable state hstate
  obtain rfl := List.mem_singleton.1 hstate
  exact htable.reserve

private theorem keeps_inFrame {arguments : List (String × Ty)}
    (harguments : ∀ argument ∈ arguments, argument.2.hasHole = false)
    {traced : Traced α} (h : traced.Keeps) :
    (inFrame arguments traced).Keeps := by
  intro table htable state hstate
  have henter := htable.enter harguments
  simp only [inFrame, List.mem_cons, List.mem_append, List.not_mem_nil,
    or_false] at hstate
  rcases hstate with rfl | hstate | rfl
  · exact henter
  · exact h _ henter state hstate
  · exact (h.after henter).leave

def keeping : Property := fun _ traced => traced.Keeps

private theorem sequential_keeping (lines : Nat → Prop) :
    Sequential lines keeping where
  done _ := keeps_reading _ _
  failed _ _ := keeps_reading _ _
  next := Keeps.bind

theorem closedOn_keeping :
    ClosedOn Node.Concrete (fun _ => keeping) (fun _ => keeping) keeping where
  inside _ := sequential_keeping _
  around _ := sequential_keeping _
  widen h := h
  typeOf _ _ _ := keeps_reading _ _
  place _ _ htype := keeps_place _ _ htype
  reserve _ := keeps_reserve
  inFrame _ hconcrete hdeclared h := by
    obtain ⟨types, htypes, rfl⟩ := Rule.declared_eq_ok_iff.1 hdeclared
    exact keeps_inFrame
      (Ty.hasHole_of_mem_zip _ (Ty.anyHasHole_of_declared hconcrete.1 htypes)) h
  statement _ _ h := h
  done _ := keeps_reading _ _
  next := Keeps.bind

end Traced

theorem Expr.keeps_traced (line : Nat) (bound : Bool) {expression : Expr}
    (h : expression.Concrete) :
    (expression.traced line bound).Keeps :=
  expression.related Traced.closedOn_keeping.related line bound
    (Node.Concrete.all h)

theorem Expr.keeps_tracedArguments (line : Nat) {arguments : List Expr}
    (h : Expr.AllConcrete arguments) :
    (Expr.tracedArguments line arguments).Keeps :=
  Expr.relatedArguments Traced.closedOn_keeping.related line arguments
    fun argument hargument =>
    Node.Concrete.all (Expr.allConcrete_iff.1 h argument hargument)

theorem Statement.keeps_traced (inFunction : Bool) {statement : Statement}
    (h : statement.Concrete) :
    (statement.traced inFunction).Keeps :=
  statement.part_traced Traced.closedOn_keeping inFunction (Node.Concrete.all h)

theorem Program.keeps_traced {program : Program} (h : program.Concrete) :
    program.traced.Keeps :=
  program.outer_tracedOn Traced.closedOn_keeping (Node.Concrete.all h)

end ExprLang
