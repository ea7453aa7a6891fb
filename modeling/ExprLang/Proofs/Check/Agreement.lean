import ExprLang.Proofs.SymbolTable.Calls

/-!
# Functions do not see the frames around them

Two runs side by side.  A check looks a name up in the innermost frame and among the
globals, and changes nothing but these.  Tables that agree on them, and on as many
further frames as there are functions to leave, give the same outcome and agree
afterwards.  A function literal opens the frame that it looks at, so for the literal
itself the tables need to agree on no frame at all.
-/

namespace ExprLang

open Checker SymbolTable

/-! ## Two tables -/

namespace SymbolTable

structure SameGlobals (left right : SymbolTable) : Prop where
  globals : ∀ name, left.globals.find? name = right.globals.find? name
  values : left.values = right.values
  functions : left.functions = right.functions

/-- The same global symbols and counters, and the same `shared` innermost frames.
The frames further out may be any. -/
structure Agree (shared : Nat) (left right : SymbolTable) :
    Prop extends SameGlobals left right where
  frames : ∃ inner leftOuter rightOuter,
    inner.length = shared ∧ left.frames = inner ++ leftOuter ∧
    right.frames = inner ++ rightOuter

variable {shared : Nat} {left right : SymbolTable}

private theorem agree_zero_iff : left.Agree 0 right ↔ left.SameGlobals right :=
  ⟨Agree.toSameGlobals, fun h => ⟨h, [], left.frames, right.frames, rfl, rfl, rfl⟩⟩

theorem Agree.exists_frame (h : left.Agree (shared + 1) right) :
    ∃ frame inner leftOuter rightOuter,
      inner.length = shared ∧ left.frames = frame :: (inner ++ leftOuter) ∧
      right.frames = frame :: (inner ++ rightOuter) := by
  obtain ⟨inner, leftOuter, rightOuter, hlength, hleft, hright⟩ := h.frames
  obtain ⟨frame, inner, rfl⟩ := List.exists_cons_of_length_eq_add_one hlength
  exact ⟨frame, inner, leftOuter, rightOuter, Nat.succ.inj hlength, hleft, hright⟩

private theorem Agree.resolve?_eq (h : left.Agree (shared + 1) right)
    (name : String) :
    left.resolve? name = right.resolve? name := by
  obtain ⟨frame, inner, leftOuter, rightOuter, -, hleft, hright⟩ := h.exists_frame
  rw [resolve?, resolve?, hleft, hright, h.globals, List.head?_cons,
    List.head?_cons]

private theorem Agree.define (h : left.Agree (shared + 1) right) (name : String)
    (type : Ty) :
    (left.define name type).2.Agree (shared + 1) (right.define name type).2 := by
  obtain ⟨frame, inner, leftOuter, rightOuter, hlength, hleft, hright⟩ :=
    h.exists_frame
  rw [define_of_frames hleft, define_of_frames hright]
  exact ⟨⟨h.globals, h.values, h.functions⟩, (frame.define name type).2 :: inner,
    leftOuter, rightOuter, congrArg Nat.succ hlength, rfl, rfl⟩

private theorem Agree.reserve (h : left.Agree shared right) :
    left.reserve.2.Agree shared right.reserve.2 :=
  ⟨⟨h.globals, h.values, congrArg (· + 1) h.functions⟩, h.frames⟩

private theorem Agree.enter (h : left.Agree shared right)
    (arguments : List (String × Ty)) :
    (left.enter arguments).Agree (shared + 1) (right.enter arguments) := by
  obtain ⟨inner, leftOuter, rightOuter, hlength, hleft, hright⟩ := h.frames
  refine ⟨⟨h.globals, h.values, h.functions⟩, Frame.ofArguments arguments :: inner,
    leftOuter, rightOuter, congrArg Nat.succ hlength, ?_, ?_⟩
  · exact congrArg (Frame.ofArguments arguments :: ·) hleft
  · exact congrArg (Frame.ofArguments arguments :: ·) hright

private theorem Agree.leave (h : left.Agree (shared + 1) right) :
    left.leave.Agree shared right.leave := by
  obtain ⟨frame, inner, leftOuter, rightOuter, hlength, hleft, hright⟩ :=
    h.exists_frame
  exact ⟨⟨h.globals, h.values, h.functions⟩, inner, leftOuter, rightOuter, hlength,
    congrArg List.tail hleft, congrArg List.tail hright⟩

end SymbolTable

/-! ## Two runs -/

namespace Checker

variable {α β : Type} {relation : SymbolTable → SymbolTable → Prop}

/-- Related tables give the same outcome, and are related afterwards. -/
def Respects (relation : SymbolTable → SymbolTable → Prop) (checker : Checker α) :
    Prop :=
  ∀ left right, relation left right →
    (checker.runOn left).1 = (checker.runOn right).1 ∧
      relation (checker.runOn left).2 (checker.runOn right).2

theorem Respects.bind {checker : Checker α} {next : α → Checker β}
    (h : checker.Respects relation)
    (hnext : ∀ value, (next value).Respects relation) :
    (checker >>= next).Respects relation := by
  intro left right hrelated
  have hfirst := h left right hrelated
  rw [runOn_bind, runOn_bind]
  cases hleft : checker.runOn left with
  | mk outcome middle =>
      cases hright : checker.runOn right with
      | mk other otherMiddle =>
          rw [hleft, hright] at hfirst
          obtain ⟨rfl, hmiddle⟩ := hfirst
          cases outcome with
          | error error => exact ⟨rfl, hmiddle⟩
          | ok value => exact hnext value middle otherMiddle hmiddle

theorem respects_get {next : SymbolTable → Checker α}
    (h : ∀ left right, relation left right →
      ((next left).runOn left).1 = ((next right).runOn right).1 ∧
        relation ((next left).runOn left).2 ((next right).runOn right).2) :
    ((get : Checker SymbolTable) >>= next).Respects relation := by
  intro left right hrelated
  rw [runOn_bind, runOn_bind]
  exact h left right hrelated

theorem respects_inFrame {shared : Nat} {checker : Checker α}
    (h : checker.Respects (Agree (shared + 1))) (arguments : List (String × Ty)) :
    (inFrame arguments checker).Respects (Agree shared) := by
  intro left right hagree
  obtain ⟨houtcome, hafter⟩ := h _ _ (hagree.enter arguments)
  exact ⟨houtcome, hafter.leave⟩

end Checker

namespace Traced

def respecting (relation : SymbolTable → SymbolTable → Prop) : Property :=
  fun _ traced => traced.checker.Respects relation

theorem sequential_respecting (lines : Nat → Prop)
    (relation : SymbolTable → SymbolTable → Prop) :
    Sequential lines (respecting relation) where
  done _ _ _ hrelated := ⟨rfl, hrelated⟩
  failed _ _ _ _ hrelated := ⟨rfl, hrelated⟩
  next hfirst hnext := hfirst.bind hnext

section Operations

variable {relation : SymbolTable → SymbolTable → Prop} {name : String}
    (hresolve : ∀ {left right : SymbolTable},
      relation left right → left.resolve? name = right.resolve? name)

include hresolve

theorem respecting_typeOf (line : Nat) :
    respecting relation Ty (typeOf line name) := by
  refine respects_get fun left right hrelated => ?_
  rw [hresolve hrelated]
  split
  · exact ⟨rfl, hrelated⟩
  · split
    · exact ⟨rfl, hrelated⟩
    · exact ⟨rfl, hrelated⟩

theorem respecting_place (line : Nat) {type : Ty}
    (hdefine : ∀ {left right : SymbolTable}, relation left right →
      relation (left.define name type).2 (right.define name type).2) :
    respecting relation Unit (place line name type) := by
  refine respects_get fun left right hrelated => ?_
  rw [hresolve hrelated]
  split
  · exact ⟨rfl, hrelated⟩
  · split
    · exact ⟨rfl, hrelated⟩
    · exact ⟨rfl, hrelated⟩
  · exact ⟨rfl, hdefine hrelated⟩

end Operations

def agreeing : Property :=
  fun α traced => ∀ shared, respecting (Agree (shared + 1)) α traced

private theorem sequential_agreeing : Sequential (fun _ => True) agreeing where
  done value shared :=
    (sequential_respecting (fun _ => True) (Agree (shared + 1))).done value
  failed hline hfault shared :=
    (sequential_respecting (fun _ => True) (Agree (shared + 1))).failed hline hfault
  next hfirst hnext shared := (hfirst shared).bind fun value => hnext value shared

theorem respecting_reserve (shared : Nat) :
    respecting (Agree shared) Unit reserve :=
  fun _ _ hagree => ⟨rfl, hagree.reserve⟩

private theorem closed_agreeing :
    Traced.Closed (fun _ => True) agreeing agreeing where
  inside := sequential_agreeing
  outside := sequential_agreeing
  widen h := h
  typeOf name _ _ := respecting_typeOf (fun hagree => hagree.resolve?_eq name) _
  place name type _ _ := respecting_place (fun hagree => hagree.resolve?_eq name) _
    fun hagree => hagree.define name type
  reserve shared := respecting_reserve (shared + 1)
  inFrame arguments h shared := respects_inFrame (h (shared + 1)) arguments

end Traced

/-! ## Function literals -/

/-- A function literal is checked alike whatever frames are open around it: tables
with the same global symbols and counters give the same typed literal and types, or
the same error, and have the same global symbols and counters afterwards. -/
theorem Expr.function_ignores_open_frames {line : Nat} {bound : Bool}
    {literal : Expr} {arguments : List Variable} {returns : List Ty}
    {returnsOmitted : Bool} {body : List Statement} {signature? : Option Signature}
    (hliteral :
      literal = .function arguments returns returnsOmitted body signature?)
    {left right : SymbolTable} (hglobals : left.SameGlobals right) :
    ((literal.check line bound).runOn left).1 =
        ((literal.check line bound).runOn right).1 ∧
      ((literal.check line bound).runOn left).2.SameGlobals
        ((literal.check line bound).runOn right).2 := by
  subst hliteral
  have hbody : Traced.agreeing _ (Statement.tracedAll true body) :=
    Statement.outer_tracedAll Traced.closed_agreeing true body fun _ _ => trivial
  have hframe (passed : List (String × Ty)) : (Traced.respecting (Agree 0)).relation
      0 _ (Traced.inFrame passed (Statement.tracedAll true body))
      (Traced.inFrame passed (Statement.tracedAll true body)) :=
    respects_inFrame (hbody 0) passed
  have hliteral : Traced.respecting (Agree 0) _
      ((Expr.function arguments returns returnsOmitted body signature?).traced line
        bound) :=
    (Traced.sequential_respecting (fun _ => True) (Agree 0)).related.function
      trivial (Traced.respecting_reserve 0) bound arguments returns returnsOmitted
      fun _ _ => hframe _
  obtain ⟨houtcome, hafter⟩ := hliteral left right (agree_zero_iff.2 hglobals)
  rw [Expr.checker_traced] at houtcome hafter
  exact ⟨houtcome, hafter.toSameGlobals⟩

def Expr.capturing : Expr :=
  .function [⟨"b", some .int⟩] [] true
    [.result [.operator .add none (.named "b") (.named "a")] 2] none

theorem Expr.capturing_ignores_open_frames :
    SameGlobals ⟨[⟨"g", .int, 0⟩], 1, 3, [⟨[⟨"a", .int, 0⟩], 1⟩]⟩
        ⟨[⟨"g", .int, 0⟩], 1, 3, []⟩ ∧
      ((Expr.capturing.check 2 false).runOn
          ⟨[⟨"g", .int, 0⟩], 1, 3, [⟨[⟨"a", .int, 0⟩], 1⟩]⟩).1 =
        .error ⟨2, .undefinedIdentifier "a"⟩ ∧
      ((Expr.capturing.check 2 false).runOn ⟨[⟨"g", .int, 0⟩], 1, 3, []⟩).1 =
        .error ⟨2, .undefinedIdentifier "a"⟩ := by
  have hglobals : SameGlobals ⟨[⟨"g", .int, 0⟩], 1, 3, [⟨[⟨"a", .int, 0⟩], 1⟩]⟩
      ⟨[⟨"g", .int, 0⟩], 1, 3, []⟩ :=
    ⟨fun _ => rfl, rfl, rfl⟩
  have hright :
      ((Expr.capturing.check 2 false).runOn ⟨[⟨"g", .int, 0⟩], 1, 3, []⟩).1 =
        .error ⟨2, .undefinedIdentifier "a"⟩ := rfl
  exact ⟨hglobals, (Expr.function_ignores_open_frames rfl hglobals).1.trans hright,
    hright⟩

end ExprLang
