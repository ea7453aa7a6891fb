import ExprLang.Proofs.Check.Derivation
import ExprLang.Proofs.SymbolTable.Calls

/-!
# Arguments of functions

The frame in which the body of a function is checked holds its arguments.  Arguments
of different names have their positions as indices, and the next new name comes
after them.  A name that occurs again among the arguments takes no index of its own:
it keeps the one it has, with the type of its last occurrence, and all later indices
are smaller than the positions.
-/

namespace ExprLang

open Checker SymbolTable

/-! ## Frames -/

private theorem eraseDups_of_nodup {names : List String} (h : names.Nodup) :
    names.eraseDups = names := by
  induction names with
  | nil => rfl
  | cons name names ih =>
      obtain ⟨hname, hnames⟩ := List.nodup_cons.1 h
      have hfilter : names.filter (fun other => !other == name) = names :=
        List.filter_eq_self.2 fun other hother => by
          have hne : other ≠ name := fun heq => hname (heq ▸ hother)
          simpa using hne
      rw [List.eraseDups_cons, hfilter, ih hnames]

theorem Scope.name_eq_of_find? {scope : Scope} {name : String} {symbol : Symbol}
    (h : scope.find? name = some symbol) : symbol.name = name := by
  simpa using List.find?_some h

namespace Frame

def names (frame : Frame) : List String := frame.symbols.map Symbol.name

theorem find?_eq_none_iff {frame : Frame} {name : String} :
    frame.symbols.find? name = none ↔ name ∉ frame.names := by
  simp [Scope.find?, names]

private theorem names_define (frame : Frame) (name : String) (type : Ty) :
    (frame.define name type).2.names =
      if name ∈ frame.names then frame.names else frame.names ++ [name] := by
  cases hname : frame.symbols.find? name with
  | none =>
      rw [if_neg (find?_eq_none_iff.1 hname), define_of_find?_eq_none hname]
      simp [names]
  | some existing =>
      have hexisting := Scope.name_eq_of_find? hname
      have hmem : name ∈ frame.names :=
        List.mem_map.2 ⟨existing, List.mem_of_find?_eq_some hname, hexisting⟩
      obtain ⟨before, after, hsymbols, hinsert⟩ :=
        Scope.exists_of_find?_eq_some hname type existing.index
      rw [if_pos hmem]
      simp only [define, hname, hinsert, names]
      simp [hsymbols, hexisting]

private theorem names_foldl_define (frame : Frame)
    (arguments : List (String × Ty)) :
    (arguments.foldl (fun frame argument =>
        (frame.define argument.1 argument.2).2) frame).names =
      frame.names ++
        ((arguments.map Prod.fst).removeAll frame.names).eraseDups := by
  induction arguments generalizing frame with
  | nil => simp [List.removeAll]
  | cons argument arguments ih =>
      rw [List.foldl_cons, ih, names_define]
      split
      · rename_i hmem
        simp [List.removeAll, hmem]
      · rename_i hnew
        have hothers (other : String) :
            (!decide (other = argument.1)) = !other == argument.1 := by
          rw [beq_eq_decide]
        simp [List.removeAll, hnew, List.eraseDups_cons, List.filter_filter,
          Bool.and_comm, hothers]

theorem names_ofArguments (arguments : List (String × Ty)) :
    (ofArguments arguments).names = (arguments.map Prod.fst).eraseDups := by
  rw [ofArguments, names_foldl_define]
  simp [names, empty, List.removeAll]

private theorem Numbered.nextIndex_eq {frame : Frame} (h : frame.Numbered) :
    frame.nextIndex = .ofNat frame.names.length := by
  simpa [names] using h.counter_eq

private theorem Numbered.index_eq {frame : Frame} (h : frame.Numbered)
    {name : String} {symbol : Symbol}
    (hsymbol : frame.symbols.find? name = some symbol) :
    symbol.index = .ofNat (frame.names.idxOf name) := by
  obtain ⟨hname, position, hposition, hget, hbefore⟩ :=
    List.find?_eq_some_iff_getElem.1 hsymbol
  have hindex : symbol.index = .ofNat position := by
    have hslots := congrArg (·[position]?) h.indices_eq
    simpa [slotsFrom, hposition, hget] using hslots
  have hfirst : frame.names.idxOf name = position := by
    rw [names, List.idxOf, List.findIdx_map, List.findIdx_eq hposition]
    refine ⟨by simpa [hget] using hname, fun earlier hearlier => ?_⟩
    simpa using hbefore earlier hearlier
  rw [hindex, hfirst]

private theorem Numbered.index_define {frame : Frame} (h : frame.Numbered)
    {name : String} (hnew : name ∉ frame.names) (type : Ty) :
    (frame.define name type).1.index = .ofNat frame.names.length := by
  rw [define_of_find?_eq_none (find?_eq_none_iff.2 hnew), ← h.nextIndex_eq]

end Frame

/-! ## Types of arguments -/

namespace Context

private theorem foldl_extend_of_notMem (context : Context)
    {arguments : List (String × Ty)} {name : String}
    (h : name ∉ arguments.map Prod.fst) :
    arguments.foldl (fun context argument => context.extend argument.1 argument.2)
        context name = context name := by
  induction arguments generalizing context with
  | nil => rfl
  | cons argument arguments ih =>
      obtain ⟨hne, hothers⟩ := not_or.1 (mt List.mem_cons.2 h)
      rw [List.foldl_cons, ih _ hothers]
      exact if_neg hne

private theorem foldl_extend_of_nodup (context : Context)
    {arguments : List (String × Ty)} (h : (arguments.map Prod.fst).Nodup)
    {argument : String × Ty} (hmem : argument ∈ arguments) :
    arguments.foldl (fun context argument => context.extend argument.1 argument.2)
        context argument.1 = some argument.2 := by
  induction arguments generalizing context with
  | nil => cases hmem
  | cons first arguments ih =>
      obtain ⟨hfirst, hothers⟩ := List.nodup_cons.1 h
      rw [List.foldl_cons]
      rcases List.mem_cons.1 hmem with rfl | hmem
      · rw [foldl_extend_of_notMem _ hfirst]
        exact if_pos rfl
      · exact ih _ hothers hmem

end Context

/-! ## The frame of a function -/

namespace SymbolTable

variable (table : SymbolTable) {arguments : List (String × Ty)} {name : String}

theorem resolve?_enter (h : name ∈ arguments.map Prod.fst) :
    ∃ type, Context.ofArguments arguments name = some type ∧
      (table.enter arguments).resolve? name =
        some (⟨name, type, .ofNat ((arguments.map Prod.fst).eraseDups.idxOf name)⟩,
          .frame) := by
  cases hfind : (Frame.ofArguments arguments).symbols.find? name with
  | none =>
      rw [Frame.find?_eq_none_iff, Frame.names_ofArguments,
        List.mem_eraseDups] at hfind
      exact absurd h hfind
  | some symbol =>
      have hname := Scope.name_eq_of_find? hfind
      have hindex := (Frame.numbered_ofArguments arguments).index_eq hfind
      rw [Frame.names_ofArguments] at hindex
      refine ⟨symbol.type, ?_, ?_⟩
      · rw [← Frame.types_ofArguments, Scope.types, hfind]
        rfl
      · rw [← hindex, resolve?]
        simp only [enter, List.head?_cons, Option.bind_some, hfind]
        rw [← hname]

theorem index_define_of_enter {state : SymbolTable}
    (hframes : state.frames = (table.enter arguments).frames)
    (hnew : name ∉ arguments.map Prod.fst) (type : Ty) :
    (state.define name type).1.index =
      .ofNat (arguments.map Prod.fst).eraseDups.length := by
  have hnew : name ∉ (Frame.ofArguments arguments).names := by
    rwa [Frame.names_ofArguments, List.mem_eraseDups]
  have hframe : state.frames = Frame.ofArguments arguments :: table.frames :=
    hframes
  have hindex := (Frame.numbered_ofArguments arguments).index_define hnew type
  rw [Frame.names_ofArguments] at hindex
  rw [define, hframe]
  exact hindex

/-- The table right after a function was entered numbers the arguments by their
positions, and the first new name of the frame comes next. -/
structure NumbersArguments (opened : SymbolTable)
    (arguments : List (String × Ty)) : Prop where
  resolves : ∀ position (h : position < arguments.length),
    opened.resolve? arguments[position].1 =
      some (⟨arguments[position].1, arguments[position].2, .ofNat position⟩, .frame)
  next : ∀ state : SymbolTable, state.frames = opened.frames →
    ∀ name type, name ∉ arguments.map Prod.fst →
      (state.define name type).1.index = .ofNat arguments.length

private theorem numbersArguments_of_nodup (h : (arguments.map Prod.fst).Nodup) :
    (table.enter arguments).NumbersArguments arguments := by
  have hnames := eraseDups_of_nodup h
  constructor
  · intro position hposition
    have hmem := List.getElem_mem hposition
    obtain ⟨type, htype, hresolve⟩ :=
      table.resolve?_enter (List.mem_map_of_mem hmem)
    have hown : type = arguments[position].2 := by
      rw [Context.ofArguments, Context.foldl_extend_of_nodup .empty h hmem] at htype
      exact (Option.some.inj htype).symm
    have hindex : (arguments.map Prod.fst).eraseDups.idxOf arguments[position].1 =
        position := by
      have hidx := h.idxOf_getElem position (by simpa using hposition)
      rw [hnames]
      rwa [List.getElem_map] at hidx
    rw [hresolve, hown, hindex]
  · intro state hframes name type hnew
    rw [table.index_define_of_enter hframes hnew, hnames, List.length_map]

private theorem NumbersArguments.nodup {opened : SymbolTable}
    (h : opened.NumbersArguments arguments)
    (hlength : arguments.length ≤ UInt32.size) :
    (arguments.map Prod.fst).Nodup := by
  refine List.pairwise_iff_getElem.2 fun first second hfirst hsecond hlt hsame => ?_
  rw [List.length_map] at hfirst hsecond
  rw [List.getElem_map, List.getElem_map] at hsame
  have hresolve := h.resolves first hfirst
  rw [hsame, h.resolves second hsecond] at hresolve
  simp only [Option.some.injEq, Prod.mk.injEq, Symbol.mk.injEq, true_and,
    and_true] at hresolve
  have hnumbers := congrArg UInt32.toNat hresolve.2
  rw [UInt32.toNat_ofNat_of_lt' (by omega),
    UInt32.toNat_ofNat_of_lt' (by omega)] at hnumbers
  omega

end SymbolTable

/-! ## Accepted functions -/

/-- The body of an accepted function is checked in a new frame with the arguments
and their declared types.  There an argument resolves to a local symbol, with the
position of its name among the different names as index and the type of the last
argument of its name, and the first new name has the number of the different names
as index.  So each argument has its position as index and its own type, and new
names come after all of them, if the names are distinct, and only then unless there
are more arguments than numbers of 32 bits. -/
theorem Expr.distinct_arguments_come_first {line : Nat} {bound : Bool}
    {table after : SymbolTable} {arguments : List Variable} {returns : List Ty}
    {returnsOmitted : Bool} {body : List Statement} {signature? : Option Signature}
    {result : Expr × List Ty}
    (h : ((Expr.function arguments returns returnsOmitted body signature?).check
      line bound).Yields table result after) :
    ∃ types passed, arguments.map Variable.type? = types.map some ∧
      passed = (arguments.map Variable.name).zip types ∧
      (∃ checked inner,
        (Statement.checkAll true body).Yields (table.enter passed) checked inner) ∧
      (∀ name ∈ arguments.map Variable.name,
        ∃ type, Context.ofArguments passed name = some type ∧
          (table.enter passed).resolve? name =
            some (⟨name, type,
              .ofNat ((arguments.map Variable.name).eraseDups.idxOf name)⟩,
              .frame)) ∧
      (∀ state : SymbolTable, state.frames = (table.enter passed).frames →
        ∀ name type, name ∉ arguments.map Variable.name →
          (state.define name type).1.index =
            .ofNat (arguments.map Variable.name).eraseDups.length) ∧
      ((arguments.map Variable.name).Nodup →
        (table.enter passed).NumbersArguments passed) ∧
      (arguments.length ≤ UInt32.size →
        (table.enter passed).NumbersArguments passed →
        (arguments.map Variable.name).Nodup) := by
  obtain ⟨new, results⟩ := result
  cases Expr.checks_of_yields _ h with
  | @function _ _ _ inner _ types _ _ _ _ _ _ _ htypes hbody _ =>
      have hlength : arguments.length = types.length := by
        simpa using congrArg List.length htypes
      have hnames : ((arguments.map Variable.name).zip types).map Prod.fst =
          arguments.map Variable.name :=
        List.map_fst_zip (by simp [hlength])
      refine ⟨types, _, htypes, rfl, ⟨_, inner, hbody.yields⟩, ?_, ?_, ?_, ?_⟩
      · intro name hname
        have hresolve := table.resolve?_enter (hnames ▸ hname)
        rwa [hnames] at hresolve
      · intro state hframes name type hnew
        have hindex := table.index_define_of_enter hframes (hnames ▸ hnew) type
        rwa [hnames] at hindex
      · intro hnodup
        refine table.numbersArguments_of_nodup ?_
        rwa [hnames]
      · intro hbound hnumbers
        rw [← hnames]
        exact hnumbers.nodup (by simpa [← hlength] using hbound)

def Expr.copying (first second third : String) : Expr :=
  .function [⟨first, some .int⟩, ⟨second, some .bool⟩, ⟨third, some .int⟩] [.int]
    false [.assign [⟨"z", none⟩] (.named third) 2, .result [.named first] 3] none

theorem Expr.copying_arguments_come_first :
    (∃ result,
        ((Expr.copying "a" "b" "c").check 1 true).Yields .empty result .empty) ∧
      (SymbolTable.empty.enter
          [("a", .int), ("b", .bool), ("c", .int)]).NumbersArguments
            [("a", .int), ("b", .bool), ("c", .int)] := by
  have haccepted : ∃ result,
      ((Expr.copying "a" "b" "c").check 1 true).Yields .empty result .empty :=
    ⟨_, rfl⟩
  refine ⟨haccepted, ?_⟩
  obtain ⟨result, hresult⟩ := haccepted
  obtain ⟨types, passed, htypes, rfl, -, -, -, hdistinct, -⟩ :=
    Expr.distinct_arguments_come_first hresult
  obtain rfl : types = [.int, .bool, .int] :=
    (List.map_inj_right fun _ _ => Option.some.inj).1 htypes.symm
  exact hdistinct (by decide)

/-- An accepted function with two arguments of one name.  They share an index, so
the third argument has the index of the second position, and the local that is new
has that of the third. -/
theorem Expr.repeated_argument_shifts_indices :
    (∃ result,
        ((Expr.copying "a" "a" "c").check 1 true).Yields .empty result .empty) ∧
      (SymbolTable.empty.enter
          [("a", .int), ("a", .bool), ("c", .int)]).resolve? "a" =
        some (⟨"a", .bool, 0⟩, .frame) ∧
      (SymbolTable.empty.enter
          [("a", .int), ("a", .bool), ("c", .int)]).resolve? "c" =
        some (⟨"c", .int, 1⟩, .frame) ∧
      ((SymbolTable.empty.enter
          [("a", .int), ("a", .bool), ("c", .int)]).define "z" .int).1.index = 2 ∧
      ¬ (SymbolTable.empty.enter
          [("a", .int), ("a", .bool), ("c", .int)]).NumbersArguments
            [("a", .int), ("a", .bool), ("c", .int)] := by
  refine ⟨⟨_, rfl⟩, rfl, rfl, rfl, fun h => ?_⟩
  have hnext := h.next _ rfl "z" .int (by decide)
  revert hnext
  decide

end ExprLang
