import ExprLang.Proofs.SymbolTable.Slots

/-!
# Sequences of calls

What holds of a symbol table after any sequence of definitions, reservations,
entries and exits, in any order and with any names and types.  The indices of a
frame are given one after the other, a function that is entered and left again
leaves nothing behind but reserved indices, and as long as a global name stays a
function or stays a value, the indices of both kinds are given without gap.  No
index is given twice before all numbers of 32 bits have been used.
-/

namespace ExprLang

/-! ## Symbols in place -/

theorem Scope.exists_of_find?_eq_some {scope : Scope} {name : String}
    {existing : Symbol} (h : scope.find? name = some existing) (type : Ty)
    (index : UInt32) :
    ∃ before after, scope = before ++ existing :: after ∧
      scope.insert ⟨name, type, index⟩ =
        before ++ ⟨name, type, index⟩ :: after := by
  induction scope with
  | nil => cases h
  | cons other scope ih =>
      unfold find? at h
      rw [List.find?_cons] at h
      split at h
      · rename_i hname
        cases h
        exact ⟨[], scope, rfl, if_pos (of_decide_eq_true hname)⟩
      · rename_i hname
        obtain ⟨before, after, rfl, hinsert⟩ := ih h
        refine ⟨other :: before, after, rfl, ?_⟩
        rw [insert, if_neg (of_decide_eq_false hname), hinsert]
        rfl

/-- The names of a frame have the indices up to its counter, in the order in which
they came. -/
def Frame.Numbered (frame : Frame) : Prop :=
  SymbolTable.Numbers (frame.symbols.map Symbol.index) frame.nextIndex

namespace Frame

theorem Numbered.define {frame : Frame} (h : frame.Numbered) (name : String)
    (type : Ty) :
    (frame.define name type).2.Numbered := by
  unfold Numbered at h ⊢
  cases hname : frame.symbols.find? name with
  | none =>
      rw [define_of_find?_eq_none hname, List.map_append]
      exact h.append
  | some existing =>
      obtain ⟨before, after, hsymbols, hinsert⟩ :=
        Scope.exists_of_find?_eq_some hname type existing.index
      have hindices :
          (before ++ ⟨name, type, existing.index⟩ :: after).map Symbol.index =
            frame.symbols.map Symbol.index := by
        simp [hsymbols]
      simp only [Frame.define, hname, hinsert, hindices]
      exact h

theorem numbered_ofArguments (arguments : List (String × Ty)) :
    (ofArguments arguments).Numbered := by
  suffices h : ∀ frame : Frame, frame.Numbered →
      (arguments.foldl (fun frame argument =>
        (frame.define argument.1 argument.2).2) frame).Numbered from h empty .nil
  induction arguments with
  | nil => exact fun _ h => h
  | cons argument arguments ih =>
      exact fun frame h => ih _ (h.define argument.1 argument.2)

end Frame

namespace SymbolTable

inductive Call where
  | define (name : String) (type : Ty)
  | reserve
  | enter (arguments : List (String × Ty))
  | leave

def call (table : SymbolTable) : Call → SymbolTable
  | .define name type => (table.define name type).2
  | .reserve => table.reserve.2
  | .enter arguments => table.enter arguments
  | .leave => table.leave

def callAll (table : SymbolTable) (calls : List Call) : SymbolTable :=
  calls.foldl call table

def reservation? (table : SymbolTable) : Call → Option UInt32
  | .reserve => some table.reserve.1
  | .define .. | .enter _ | .leave => none

def reservations (table : SymbolTable) : List Call → List UInt32
  | [] => []
  | call :: calls =>
      (table.reservation? call).toList ++ reservations (table.call call) calls

/-! ## Frames -/

variable {table base : SymbolTable}

private theorem frames_defineGlobal (table : SymbolTable) (name : String)
    (type : Ty) :
    (table.defineGlobal name type).2.frames = table.frames := by
  unfold defineGlobal
  split
  · rfl
  · split <;> rfl

theorem define_of_frames {frame : Frame} {frames : List Frame}
    (h : table.frames = frame :: frames) (name : String) (type : Ty) :
    (table.define name type).2 =
      { table with frames := (frame.define name type).2 :: frames } := by
  rw [define, h]

private theorem numbered_call (h : ∀ frame ∈ table.frames, frame.Numbered)
    (call : Call) :
    ∀ frame ∈ (table.call call).frames, frame.Numbered := by
  cases call with
  | reserve => exact h
  | leave => exact fun frame hframe => h frame (List.mem_of_mem_tail hframe)
  | enter arguments =>
      exact List.forall_mem_cons.2 ⟨Frame.numbered_ofArguments arguments, h⟩
  | define name type =>
      show ∀ frame ∈ (table.define name type).2.frames, frame.Numbered
      cases hframes : table.frames with
      | nil =>
          rw [SymbolTable.define, hframes]
          exact (table.frames_defineGlobal name type).symm ▸ h
      | cons innermost frames =>
          rw [hframes] at h
          obtain ⟨hinnermost, hothers⟩ := List.forall_mem_cons.1 h
          rw [define_of_frames hframes]
          exact List.forall_mem_cons.2 ⟨hinnermost.define name type, hothers⟩

private theorem numbered_callAll (h : ∀ frame ∈ table.frames, frame.Numbered)
    (calls : List Call) :
    ∀ frame ∈ (table.callAll calls).frames, frame.Numbered := by
  induction calls generalizing table with
  | nil => exact h
  | cons call calls ih => exact ih (numbered_call h call)

/-! ## Functions that are entered and left -/

/-- The functions that are open after the calls, given how many were open before;
there is no answer if a call leaves more functions than were open. -/
def Call.openAfter? : Nat → List Call → Option Nat
  | opened, [] => some opened
  | opened, .define .. :: calls => openAfter? opened calls
  | opened, .reserve :: calls => openAfter? opened calls
  | opened, .enter _ :: calls => openAfter? (opened + 1) calls
  | 0, .leave :: _ => none
  | opened + 1, .leave :: calls => openAfter? opened calls

def Call.Balanced (calls : List Call) : Prop := openAfter? 0 calls = some 0

instance (calls : List Call) : Decidable (Call.Balanced calls) :=
  inferInstanceAs (Decidable (Call.openAfter? 0 calls = some 0))

/-- A table that has a frame of its own, and `opened` frames inside it, above the
frames of `base`. -/
structure Above (base : SymbolTable) (opened : Nat) (table : SymbolTable) :
    Prop where
  globals_eq : table.globals = base.globals
  values_eq : table.values = base.values
  frames : ∃ inner : List Frame,
    inner.length = opened + 1 ∧ table.frames = inner ++ base.frames

private theorem above_enter (base : SymbolTable) (arguments : List (String × Ty)) :
    base.Above 0 (base.enter arguments) :=
  ⟨rfl, rfl, [Frame.ofArguments arguments], rfl, rfl⟩

private theorem Above.leave (h : base.Above 0 table) :
    base.SameScopes table.leave := by
  obtain ⟨inner, hinner, hframes⟩ := h.frames
  obtain ⟨frame, rfl⟩ := List.length_eq_one_iff.1 hinner
  exact ⟨h.globals_eq, h.values_eq, congrArg List.tail hframes⟩

private theorem Above.define {opened : Nat} (h : base.Above opened table)
    (name : String) (type : Ty) :
    base.Above opened (table.define name type).2 := by
  obtain ⟨inner, hinner, hframes⟩ := h.frames
  cases inner with
  | nil => cases hinner
  | cons frame inner =>
      rw [define_of_frames hframes]
      exact ⟨h.globals_eq, h.values_eq, (frame.define name type).2 :: inner, hinner,
        rfl⟩

private theorem Above.pop {opened : Nat} (h : base.Above (opened + 1) table) :
    base.Above opened table.leave := by
  obtain ⟨inner, hinner, hframes⟩ := h.frames
  cases inner with
  | nil => cases hinner
  | cons frame inner =>
      exact ⟨h.globals_eq, h.values_eq, inner, Nat.succ.inj hinner,
        congrArg List.tail hframes⟩

private theorem Above.push {opened : Nat} (h : base.Above opened table)
    (arguments : List (String × Ty)) :
    base.Above (opened + 1) (table.enter arguments) := by
  obtain ⟨inner, hinner, hframes⟩ := h.frames
  refine ⟨h.globals_eq, h.values_eq, Frame.ofArguments arguments :: inner,
    congrArg Nat.succ hinner, ?_⟩
  exact congrArg (Frame.ofArguments arguments :: ·) hframes

private theorem Above.callAll {opened final : Nat} {calls : List Call}
    (h : base.Above opened table)
    (hcalls : Call.openAfter? opened calls = some final) :
    base.Above final (table.callAll calls) := by
  induction calls generalizing table opened with
  | nil => exact Option.some.inj hcalls ▸ h
  | cons call calls ih =>
      cases call with
      | define name type => exact ih (h.define name type) hcalls
      | reserve => exact ih ⟨h.globals_eq, h.values_eq, h.frames⟩ hcalls
      | enter arguments => exact ih (h.push arguments) hcalls
      | leave =>
          cases opened with
          | zero => cases hcalls
          | succ opened => exact ih h.pop hcalls

private theorem sameScopes_of_balanced (table : SymbolTable)
    (arguments : List (String × Ty)) {body : List Call} (h : Call.Balanced body) :
    table.SameScopes (table.callAll (.enter arguments :: body ++ [.leave])) := by
  have hbody : table.Above 0 ((table.enter arguments).callAll body) :=
    (table.above_enter arguments).callAll h
  rw [callAll, List.foldl_append]
  exact hbody.leave

/-! ## Global indices -/

/-- A call does not turn a global function into a value or a global value into a
function. -/
def keepsKind (table : SymbolTable) : Call → Bool
  | .define name type =>
      !table.frames.isEmpty ||
        (table.globals.find? name).all (·.type.isFunction = type.isFunction)
  | .reserve | .enter _ | .leave => true

def keepsKinds (table : SymbolTable) : List Call → Bool
  | [] => true
  | call :: calls => table.keepsKind call && (table.call call).keepsKinds calls

/-- Values have the indices up to their counter in order; named functions and the
reservations that were made have those up to the counter of functions. -/
structure Counted (table : SymbolTable) (reserved : List UInt32) : Prop where
  values : Numbers table.valueIndices table.values
  functions : ∃ given : List UInt32,
    (table.functionIndices ++ reserved).Perm given ∧ Numbers given table.functions

private theorem counted_empty : empty.Counted [] := ⟨.nil, [], .refl _, .nil⟩

variable {reserved : List UInt32}

theorem Counted.of_globals_eq {after : SymbolTable} (h : table.Counted reserved)
    (hglobals : after.globals = table.globals)
    (hvalues : after.values = table.values)
    (hfunctions : after.functions = table.functions) :
    after.Counted reserved := by
  obtain ⟨hvalueIndices, hfunctionIndices⟩ := h
  constructor
  · rwa [valueIndices, hglobals, hvalues]
  · rwa [functionIndices, hglobals, hfunctions]

private theorem Counted.reserve (h : table.Counted reserved) :
    table.reserve.2.Counted (reserved ++ [table.functions]) where
  values := h.values
  functions := by
    obtain ⟨given, hperm, hgiven⟩ := h.functions
    refine ⟨given ++ [table.functions], ?_, hgiven.append⟩
    show (table.functionIndices ++ (reserved ++ [table.functions])).Perm _
    rw [← List.append_assoc]
    exact hperm.append_right [table.functions]

private theorem Counted.define_new (h : table.Counted reserved)
    (hframes : table.frames = []) {name : String}
    (hnew : table.globals.find? name = none) (type : Ty) :
    (table.define name type).2.Counted reserved := by
  have hresolve : table.resolve? name = none := by
    simp [resolve?, hframes, hnew]
  rw [define_global hframes hresolve]
  split
  · rename_i hfunction
    constructor
    · simpa [valueIndices, hfunction] using h.values
    · have hindices : functionIndices { table with
          globals := table.globals ++ [⟨name, type, table.functions⟩],
          functions := table.functions + 1 } =
            table.functionIndices ++ [table.functions] := by
        simp [functionIndices, hfunction]
      obtain ⟨given, hperm, hgiven⟩ := h.functions
      refine ⟨given ++ [table.functions], ?_, hgiven.append⟩
      rw [hindices, List.append_assoc]
      calc (table.functionIndices ++ ([table.functions] ++ reserved)).Perm
            (table.functionIndices ++ (reserved ++ [table.functions])) :=
              List.perm_append_comm.append_left _
        _ = table.functionIndices ++ reserved ++ [table.functions] :=
              (List.append_assoc ..).symm
        List.Perm _ (given ++ [table.functions]) := hperm.append_right _
  · rename_i hvalue
    constructor
    · have hindices : valueIndices { table with
          globals := table.globals ++ [⟨name, type, table.values⟩],
          values := table.values + 1 } = table.valueIndices ++ [table.values] := by
        simp [valueIndices, hvalue]
      exact hindices ▸ h.values.append
    · simpa [functionIndices, hvalue] using h.functions

private theorem Counted.define_again (h : table.Counted reserved)
    (hframes : table.frames = []) {name : String} {existing : Symbol}
    (hname : table.globals.find? name = some existing) {type : Ty}
    (hkind : existing.type.isFunction = type.isFunction) :
    (table.define name type).2.Counted reserved := by
  obtain ⟨before, after, hglobals, hinsert⟩ :=
    Scope.exists_of_find?_eq_some hname type existing.index
  have hdefine : (table.define name type).2 = { table with globals := before ++
        ⟨name, type, existing.index⟩ :: after } := by
    simp only [SymbolTable.define, hframes, defineGlobal, hname, hinsert]
  have hkept (keeps : Bool → Bool) :
      ((before ++ ⟨name, type, existing.index⟩ :: after).filter
          (keeps ·.type.isFunction)).map Symbol.index =
        (table.globals.filter (keeps ·.type.isFunction)).map Symbol.index := by
    rw [hglobals]
    cases hkeeps : keeps type.isFunction <;> simp [hkind, hkeeps]
  rw [hdefine]
  obtain ⟨hvalues, hfunctions⟩ := h
  constructor
  · rw [show valueIndices
      { table with globals := before ++ ⟨name, type, existing.index⟩ :: after } =
      table.valueIndices from hkept (!·)]
    exact hvalues
  · rw [show functionIndices
      { table with globals := before ++ ⟨name, type, existing.index⟩ :: after } =
      table.functionIndices from hkept id]
    exact hfunctions

private theorem Counted.define (h : table.Counted reserved) {name : String}
    {type : Ty} (hkeeps : table.keepsKind (.define name type)) :
    (table.define name type).2.Counted reserved := by
  cases hframes : table.frames with
  | nil =>
      cases hname : table.globals.find? name with
      | none => exact h.define_new hframes hname type
      | some existing =>
          have hkind : existing.type.isFunction = type.isFunction := by
            simpa [keepsKind, hframes, hname] using hkeeps
          exact h.define_again hframes hname hkind
  | cons frame frames =>
      rw [define_of_frames hframes]
      exact h.of_globals_eq rfl rfl rfl

private theorem Counted.call (h : table.Counted reserved) {call : Call}
    (hkeeps : table.keepsKind call) :
    (table.call call).Counted (reserved ++ (table.reservation? call).toList) := by
  cases call with
  | reserve => exact h.reserve
  | define name type =>
      show (table.define name type).2.Counted (reserved ++ [])
      rw [List.append_nil]
      exact h.define hkeeps
  | enter arguments =>
      show (table.enter arguments).Counted (reserved ++ [])
      rw [List.append_nil]
      exact h.of_globals_eq rfl rfl rfl
  | leave =>
      show table.leave.Counted (reserved ++ [])
      rw [List.append_nil]
      exact h.of_globals_eq rfl rfl rfl

private theorem Counted.callAll (h : table.Counted reserved) {calls : List Call}
    (hkeeps : table.keepsKinds calls) :
    (table.callAll calls).Counted (reserved ++ table.reservations calls) := by
  induction calls generalizing table reserved with
  | nil => exact (List.append_nil reserved).symm ▸ h
  | cons call calls ih =>
      obtain ⟨hcall, hcalls⟩ := Bool.and_eq_true_iff.1 hkeeps
      have hothers := ih (h.call hcall) hcalls
      rw [List.append_assoc] at hothers
      exact hothers

/-! ## All sequences -/

/-- After any sequence of calls the indices of each frame were given one after the
other.  A function that is entered and left again changes no other frame, no global
symbol and not the counter of values.  If no call turns a global function into a
value or the other way round, the indices of values were given one after the other,
and so were those that named functions and reservations share.  In each case the
indices are the numbers below the counter, each of them given once, as long as there
are fewer than fit into 32 bits. -/
theorem slots_of_calls (calls : List Call) :
    (∀ frame ∈ (empty.callAll calls).frames,
        Numbers (frame.symbols.map Symbol.index) frame.nextIndex ∧
        (frame.symbols.length < UInt32.size →
          frame.symbols.map (·.index.toNat) = List.range frame.nextIndex.toNat)) ∧
      (∀ arguments body, Call.Balanced body →
        (empty.callAll calls).SameScopes
          ((empty.callAll calls).callAll (.enter arguments :: body ++ [.leave]))) ∧
      (empty.keepsKinds calls →
        (∃ given, ((empty.callAll calls).functionIndices ++
              empty.reservations calls).Perm given ∧
            Numbers given (empty.callAll calls).functions) ∧
          (((empty.callAll calls).functionIndices ++
                empty.reservations calls).length < UInt32.size →
            (((empty.callAll calls).functionIndices ++ empty.reservations calls).map
              UInt32.toNat).Perm
                (List.range (empty.callAll calls).functions.toNat)) ∧
          Numbers (empty.callAll calls).valueIndices (empty.callAll calls).values ∧
          ((empty.callAll calls).valueIndices.length < UInt32.size →
            (empty.callAll calls).valueIndices.map UInt32.toNat =
              List.range (empty.callAll calls).values.toNat)) := by
  refine ⟨?_, ?_, ?_⟩
  · intro frame hframe
    have hnumbered := numbered_callAll
      (fun frame hframe => absurd hframe List.not_mem_nil) calls frame hframe
    refine ⟨hnumbered, fun hlength => ?_⟩
    rw [← hnumbered.map_toNat (by simpa using hlength), List.map_map]
    rfl
  · exact fun arguments _ hbody => sameScopes_of_balanced _ arguments hbody
  · intro hkeeps
    obtain ⟨hvalues, given, hperm, hgiven⟩ := counted_empty.callAll hkeeps
    refine ⟨⟨given, hperm, hgiven⟩, fun hlength => ?_, hvalues, hvalues.map_toNat⟩
    rw [← hgiven.map_toNat (hperm.length_eq ▸ hlength)]
    exact hperm.map UInt32.toNat

def Call.nested : List Call :=
  [.define "x" .bool, .define "y" .int, .enter [("z", .int), ("z", .float)],
    .reserve, .define "z" .int, .leave, .define "x" .int]

def Call.mixed : List Call :=
  [.define "a" .int, .define "f" (.function [] [.int] none), .leave, .reserve,
    .define "b" (.array .float), .enter [("f", .int), ("a", .int)],
    .define "c" .int, .reserve, .leave, .define "f" (.function [.int] [] none),
    .define "a" .bool, .define "g" (.function [] [] none), .enter [("n", .int)]]

theorem mixed_slots_of_calls :
    (∀ frame ∈ (empty.callAll Call.mixed).frames,
        frame.symbols.map (·.index.toNat) = List.range frame.nextIndex.toNat) ∧
      Call.Balanced Call.nested ∧
      (empty.callAll Call.mixed).SameScopes
        ((empty.callAll Call.mixed).callAll
          (.enter [("x", .int)] :: Call.nested ++ [.leave])) ∧
      empty.keepsKinds Call.mixed ∧
      ([0, 3] ++ [1, 2]).Perm
        (List.range (empty.callAll Call.mixed).functions.toNat) ∧
      [0, 1] = List.range (empty.callAll Call.mixed).values.toNat := by
  obtain ⟨hframes, hleft, hcounted⟩ := slots_of_calls Call.mixed
  have hbalanced : Call.Balanced Call.nested := by decide
  have hkeeps : empty.keepsKinds Call.mixed := by decide
  obtain ⟨-, hfunctions, -, hvalues⟩ := hcounted hkeeps
  refine ⟨?_, hbalanced, hleft [("x", .int)] Call.nested hbalanced, hkeeps,
    hfunctions (by decide), hvalues (by decide)⟩
  intro frame hframe
  refine (hframes frame hframe).2 ?_
  obtain rfl := List.mem_singleton.1 hframe
  decide

end SymbolTable

end ExprLang
