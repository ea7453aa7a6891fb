import ExprLang.Proofs.Check.Scopes
import ExprLang.Proofs.SymbolTable.Context

/-!
# Slots

The indices of global symbols.  A name that is not visible gets the next index of
its kind, so indices of one kind do not collide unless there are more of them than
fit into 32 bits.  A table extends another one when all that was defined is still
there, unchanged.  Checks define only names that are not visible, and so extend the
table, even when they fail.
-/

namespace ExprLang

/-! ## Scopes -/

namespace Scope

theorem insert_of_find?_eq_none {symbol : Symbol} {scope : Scope}
    (h : scope.find? symbol.name = none) :
    scope.insert symbol = scope ++ [symbol] := by
  induction scope with
  | nil => rfl
  | cons other scope ih =>
      have hnames : ¬ other.name = symbol.name ∧
          find? symbol.name scope = none := by
        simpa [find?] using h
      rw [insert, if_neg hnames.1, ih hnames.2]
      rfl

theorem find?_of_isPrefix {before after : Scope} (h : before <+: after)
    {name : String} {symbol : Symbol} (hsymbol : before.find? name = some symbol) :
    after.find? name = some symbol := by
  obtain ⟨added, rfl⟩ := h
  unfold find? at hsymbol ⊢
  rw [List.find?_append, hsymbol, Option.some_or]

end Scope

theorem Frame.define_of_find?_eq_none {frame : Frame} {name : String}
    (h : frame.symbols.find? name = none) (type : Ty) :
    frame.define name type = (⟨name, type, frame.nextIndex⟩,
        ⟨frame.symbols ++ [⟨name, type, frame.nextIndex⟩],
          frame.nextIndex + 1⟩) := by
  have hinsert : frame.symbols.insert ⟨name, type, frame.nextIndex⟩ =
      frame.symbols ++ [⟨name, type, frame.nextIndex⟩] :=
    Scope.insert_of_find?_eq_none h
  simp only [define, h, hinsert]

namespace SymbolTable

/-! ## Numbers of 32 bits -/

/-- So many indices from one on; zero follows the last number of 32 bits. -/
def slotsFrom (start : UInt32) (count : Nat) : List UInt32 :=
  (List.range count).map fun offset => start + .ofNat offset

@[simp] theorem length_slotsFrom (start : UInt32) (count : Nat) :
    (slotsFrom start count).length = count := by
  simp [slotsFrom]

theorem slotsFrom_one (start : UInt32) : slotsFrom start 1 = [start] := by
  simp [slotsFrom]

theorem slotsFrom_add (start : UInt32) (count others : Nat) :
    slotsFrom start (count + others) =
      slotsFrom start count ++ slotsFrom (start + .ofNat count) others := by
  simp [slotsFrom, List.range_add, UInt32.ofNat_add, UInt32.add_assoc,
    Function.comp_def]

/-- The indices are given one after the other from zero on, and the counter has the
next one. -/
structure Numbers (indices : List UInt32) (counter : UInt32) : Prop where
  indices_eq : indices = slotsFrom 0 indices.length
  counter_eq : counter = .ofNat indices.length

namespace Numbers

variable {indices : List UInt32} {counter : UInt32}

theorem nil : Numbers [] 0 := ⟨rfl, rfl⟩

theorem append (h : Numbers indices counter) :
    Numbers (indices ++ [counter]) (counter + 1) := by
  constructor
  · rw [List.length_append, List.length_singleton, slotsFrom_add, slotsFrom_one,
      ← h.indices_eq, UInt32.zero_add, ← h.counter_eq]
  · rw [List.length_append, List.length_singleton, UInt32.ofNat_add, ← h.counter_eq]
    rfl

variable (h : Numbers indices counter) (hlength : indices.length < UInt32.size)

include h hlength

theorem toNat_counter : counter.toNat = indices.length := by
  rw [h.counter_eq, UInt32.toNat_ofNat_of_lt' hlength]

theorem map_toNat : indices.map UInt32.toNat = List.range counter.toNat := by
  rw [h.toNat_counter hlength]
  conv => lhs; rw [h.indices_eq, slotsFrom, List.map_map]
  conv => rhs; rw [← List.map_id (List.range indices.length)]
  refine List.map_congr_left fun offset hoffset => ?_
  have hsmall := Nat.lt_trans (List.mem_range.1 hoffset) hlength
  change (0 + UInt32.ofNat offset).toNat = offset
  rw [UInt32.zero_add, UInt32.toNat_ofNat_of_lt' hsmall]

private theorem nodup : indices.Nodup := by
  have hrange : (indices.map UInt32.toNat).Nodup :=
    h.map_toNat hlength ▸ List.nodup_range
  exact List.Pairwise.of_map UInt32.toNat
    (fun _ _ hne heq => hne (congrArg UInt32.toNat heq)) hrange

private theorem lt_counter {index : UInt32} (hindex : index ∈ indices) :
    index < counter := by
  have hmem : index.toNat ∈ List.range counter.toNat :=
    h.map_toNat hlength ▸ List.mem_map_of_mem hindex
  exact UInt32.lt_iff_toNat_lt.2 (List.mem_range.1 hmem)

end Numbers

/-! ## New names -/

variable {table before after : SymbolTable} {name : String}

theorem find?_of_resolve?_eq_none (h : table.resolve? name = none) :
    table.globals.find? name = none ∧
      ∀ frame frames, table.frames = frame :: frames →
        frame.symbols.find? name = none := by
  unfold resolve? at h
  split at h
  · cases h
  · rename_i hlocal
    refine ⟨Option.map_eq_none_iff.1 h, ?_⟩
    intro frame frames hframes
    simpa [hframes] using hlocal

theorem define_global (hframes : table.frames = [])
    (hnew : table.resolve? name = none) (type : Ty) :
    (table.define name type).2 =
      if type.isFunction then
        { table with
          globals := table.globals ++ [⟨name, type, table.functions⟩],
          functions := table.functions + 1 }
      else
        { table with
          globals := table.globals ++ [⟨name, type, table.values⟩],
          values := table.values + 1 } := by
  have hglobal := (find?_of_resolve?_eq_none hnew).1
  have hinsert (index : UInt32) : table.globals.insert ⟨name, type, index⟩ =
      table.globals ++ [⟨name, type, index⟩] :=
    Scope.insert_of_find?_eq_none hglobal
  simp only [define, hframes, defineGlobal, hglobal, hinsert]
  split <;> rfl

theorem define_local {frame : Frame} {frames : List Frame}
    (hframes : table.frames = frame :: frames) (hnew : table.resolve? name = none)
    (type : Ty) :
    (table.define name type).2 =
      { table with
        frames :=
          ⟨frame.symbols ++ [⟨name, type, frame.nextIndex⟩], frame.nextIndex + 1⟩ ::
            frames } := by
  have hlocal := (find?_of_resolve?_eq_none hnew).2 frame frames hframes
  simp only [define, hframes, Frame.define_of_find?_eq_none hlocal]

/-! ## Slots of global symbols -/

def valueIndices (table : SymbolTable) : List UInt32 :=
  (table.globals.filter (!·.type.isFunction)).map Symbol.index

def functionIndices (table : SymbolTable) : List UInt32 :=
  (table.globals.filter (·.type.isFunction)).map Symbol.index

/-- Between two tables new values took the next indices of their kind, and new
functions some of theirs, in order.  So many more indices of functions were taken
for functions without names. -/
structure Takes (taken : Nat) (before after : SymbolTable) : Prop where
  values : ∃ count,
    after.valueIndices = before.valueIndices ++ slotsFrom before.values count ∧
    after.values = before.values + .ofNat count
  functions : ∃ named : List UInt32,
    after.functionIndices = before.functionIndices ++ named ∧
    named.Sublist (slotsFrom before.functions (named.length + taken)) ∧
    after.functions = before.functions + .ofNat (named.length + taken)

section Takes

variable {middle : SymbolTable} {taken other : Nat}

theorem takes_of_globals_eq (hglobals : after.globals = before.globals)
    (hvalues : after.values = before.values)
    (hfunctions : after.functions = before.functions + .ofNat taken) :
    Takes taken before after := by
  refine ⟨⟨0, ?_, ?_⟩, [], ?_, List.nil_sublist _, ?_⟩
  · rw [valueIndices, hglobals]
    exact (List.append_nil _).symm
  · rw [hvalues]
    exact (UInt32.add_zero _).symm
  · rw [functionIndices, hglobals]
    exact (List.append_nil _).symm
  · rw [hfunctions, List.length_nil, Nat.zero_add]

theorem Takes.refl (table : SymbolTable) : Takes 0 table table :=
  takes_of_globals_eq rfl rfl (UInt32.add_zero _).symm

theorem Takes.trans (h : Takes taken before middle)
    (hother : Takes other middle after) :
    Takes (taken + other) before after := by
  obtain ⟨⟨count, hindices, hvalues⟩, named, hnamed, hsublist, hfunctions⟩ := h
  obtain ⟨⟨newCount, hnewIndices, hnewValues⟩, new, hnew, hnewSublist,
      hnewFunctions⟩ := hother
  rw [hvalues] at hnewIndices hnewValues
  rw [hfunctions] at hnewSublist hnewFunctions
  have hlength : (named ++ new).length + (taken + other) =
      named.length + taken + (new.length + other) := by
    rw [List.length_append]
    omega
  refine ⟨⟨count + newCount, ?_, ?_⟩, named ++ new, ?_, ?_, ?_⟩
  · rw [hnewIndices, hindices, List.append_assoc, ← slotsFrom_add]
  · rw [hnewValues, UInt32.ofNat_add, UInt32.add_assoc]
  · rw [hnew, hnamed, List.append_assoc]
  · rw [hlength, slotsFrom_add]
    exact hsublist.append hnewSublist
  · rw [hnewFunctions, hlength, UInt32.ofNat_add (named.length + taken),
      UInt32.add_assoc]

theorem takes_define (hnew : table.resolve? name = none) (type : Ty) :
    Takes 0 table (table.define name type).2 := by
  cases hframes : table.frames with
  | cons frame frames =>
      rw [define_local hframes hnew]
      exact takes_of_globals_eq rfl rfl (UInt32.add_zero _).symm
  | nil =>
      rw [define_global hframes hnew]
      split
      · rename_i hfunction
        refine ⟨⟨0, ?_, (UInt32.add_zero _).symm⟩, [table.functions], ?_, ?_, rfl⟩
        · simp [valueIndices, hfunction, slotsFrom]
        · simp [functionIndices, hfunction]
        · exact slotsFrom_one table.functions ▸ List.Sublist.refl _
      · rename_i hvalue
        refine ⟨⟨1, ?_, rfl⟩, [], ?_, List.nil_sublist _, (UInt32.add_zero _).symm⟩
        · simp [valueIndices, hvalue, slotsFrom_one]
        · simp [functionIndices, hvalue]

theorem Takes.numbers_values (h : Takes taken empty table) :
    Numbers table.valueIndices table.values := by
  obtain ⟨count, hindices, hvalues⟩ := h.values
  have hindices : table.valueIndices = slotsFrom 0 count := hindices
  exact ⟨by rw [hindices, length_slotsFrom],
    by rw [hvalues, hindices, length_slotsFrom]; exact UInt32.zero_add _⟩

theorem Takes.numbers_functions (h : Takes taken empty table) :
    ∃ given : List UInt32,
      table.functionIndices.Sublist given ∧ Numbers given table.functions ∧
      given.length = table.functionIndices.length + taken := by
  obtain ⟨named, hnamed, hsublist, hfunctions⟩ := h.functions
  have hnamed : table.functionIndices = named := hnamed
  refine ⟨slotsFrom 0 (named.length + taken), hnamed ▸ hsublist,
    ⟨by rw [length_slotsFrom], ?_⟩, ?_⟩
  · rw [hfunctions, length_slotsFrom]
    exact UInt32.zero_add _
  · rw [length_slotsFrom, hnamed]

private theorem length_indices (table : SymbolTable) :
    table.valueIndices.length + table.functionIndices.length =
      table.globals.length := by
  rw [valueIndices, functionIndices, List.length_map, List.length_map, Nat.add_comm]
  exact (List.length_eq_length_filter_add fun symbol : Symbol =>
    symbol.type.isFunction).symm

theorem Takes.exact_of_lt (h : Takes taken empty before)
    (hother : Takes other before after)
    (hbound : after.globals.length + (taken + other) < UInt32.size) :
    before.valueIndices.map UInt32.toNat = List.range before.values.toNat ∧
      before.functionIndices.Nodup ∧
      (∀ index ∈ before.functionIndices, index < before.functions) ∧
      before.values ≤ after.values ∧ before.functions ≤ after.functions := by
  have hboth := h.trans hother
  obtain ⟨given, hsublist, hgiven, hlength⟩ := h.numbers_functions
  obtain ⟨allGiven, -, hallGiven, hallLength⟩ := hboth.numbers_functions
  obtain ⟨count, hvalues, -⟩ := hother.values
  obtain ⟨named, hnamed, -, -⟩ := hother.functions
  have hvalueLength : before.valueIndices.length ≤ after.valueIndices.length := by
    simp [hvalues]
  have hfunctionLength :
      before.functionIndices.length ≤ after.functionIndices.length := by
    simp [hnamed]
  have htotal := length_indices after
  refine ⟨h.numbers_values.map_toNat (by omega),
    hsublist.nodup (hgiven.nodup (by omega)), ?_, ?_, ?_⟩
  · exact fun index hindex => hgiven.lt_counter (by omega) (hsublist.subset hindex)
  · rw [UInt32.le_iff_toNat_le, h.numbers_values.toNat_counter (by omega),
      hboth.numbers_values.toNat_counter (by omega)]
    exact hvalueLength
  · rw [UInt32.le_iff_toNat_le, hgiven.toNat_counter (by omega),
      hallGiven.toNat_counter (by omega)]
    omega

end Takes

/-! ## Extension -/

/-- What is defined stays defined as it is, and new symbols come after the old ones,
with new names and the next indices. -/
structure Extends (before after : SymbolTable) : Prop where
  outside : before.SameOutside after
  globals : before.globals <+: after.globals
  frames_nil : before.frames = [] → after.frames = []
  locals : ∀ frame frames, before.frames = frame :: frames →
    ∃ newFrame,
      after.frames = newFrame :: frames ∧ frame.symbols <+: newFrame.symbols
  names : (before.globals.map Symbol.name).Nodup →
    (after.globals.map Symbol.name).Nodup
  slots : ∃ taken, Takes taken before after

theorem SameScopes.extends (h : before.SameScopes after) :
    before.Extends after where
  outside := h.sameOutside
  globals := h.globals_eq ▸ List.prefix_rfl
  frames_nil hframes := h.frames_eq.trans hframes
  locals frame _ hframes := ⟨frame, h.frames_eq.trans hframes, List.prefix_rfl⟩
  names hnames := h.globals_eq ▸ hnames
  slots := by
    refine ⟨(after.functions - before.functions).toNat,
      takes_of_globals_eq h.globals_eq h.values_eq ?_⟩
    rw [UInt32.ofNat_toNat, UInt32.add_comm, UInt32.sub_add_cancel]

instance : Std.Refl Extends :=
  ⟨fun table => (Std.Refl.refl table : table.SameScopes table).extends⟩

instance : Trans Extends Extends Extends where
  trans h₁ h₂ := by
    constructor
    · exact Trans.trans h₁.outside h₂.outside
    · exact h₁.globals.trans h₂.globals
    · exact fun hframes => h₂.frames_nil (h₁.frames_nil hframes)
    · intro frame frames hframes
      obtain ⟨middle, hmiddle, hfirst⟩ := h₁.locals frame frames hframes
      obtain ⟨newFrame, hnew, hsecond⟩ := h₂.locals middle frames hmiddle
      exact ⟨newFrame, hnew, hfirst.trans hsecond⟩
    · exact fun hnames => h₂.names (h₁.names hnames)
    · obtain ⟨taken, htaken⟩ := h₁.slots
      obtain ⟨other, hother⟩ := h₂.slots
      exact ⟨taken + other, htaken.trans hother⟩

private theorem names_define (hframes : table.frames = [])
    (hnew : table.resolve? name = none) (type : Ty) :
    (table.define name type).2.globals.map Symbol.name =
      table.globals.map Symbol.name ++ [name] := by
  rw [define_global hframes hnew]
  split <;> simp

private theorem nodup_names_define (hframes : table.frames = [])
    (hnew : table.resolve? name = none) (type : Ty)
    (hnames : (table.globals.map Symbol.name).Nodup) :
    ((table.define name type).2.globals.map Symbol.name).Nodup := by
  have hother : ∀ symbol ∈ table.globals, symbol.name ≠ name := by
    simpa [Scope.find?] using (find?_of_resolve?_eq_none hnew).1
  rw [names_define hframes hnew, List.nodup_append]
  exact ⟨hnames, by simp, by simpa using hother⟩

theorem extends_define (hnew : table.resolve? name = none) (type : Ty) :
    table.Extends (table.define name type).2 := by
  have houtside := table.sameOutside_define name type
  have hslots := takes_define hnew type
  cases hframes : table.frames with
  | nil =>
      have hnames := nodup_names_define hframes hnew type
      rw [define_global hframes hnew] at houtside hslots hnames ⊢
      constructor
      · exact houtside
      · split <;> exact List.prefix_append _ _
      · intro _
        split <;> exact hframes
      · intro frame frames hcons
        rw [hframes] at hcons
        cases hcons
      · exact hnames
      · exact ⟨0, hslots⟩
  | cons frame frames =>
      rw [define_local hframes hnew] at houtside hslots ⊢
      constructor
      · exact houtside
      · exact List.prefix_rfl
      · intro hnil
        rw [hframes] at hnil
        cases hnil
      · intro other others hcons
        rw [hframes] at hcons
        cases hcons
        exact ⟨_, rfl, List.prefix_append _ _⟩
      · exact id
      · exact ⟨0, hslots⟩

theorem closed_extends :
    Effect.Closed (fun _ => True) (.ofRelation SameScopes)
      (.ofRelation Extends) where
  inside := Effect.sequential_ofRelation SameScopes
  outside := Effect.sequential_ofRelation Extends
  widen := SameScopes.extends
  define type hnew := extends_define hnew type
  reserve _ := ⟨rfl, rfl, rfl⟩
  leave h := h.outside.leave

end SymbolTable

end ExprLang
