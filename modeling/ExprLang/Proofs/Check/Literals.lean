import ExprLang.Proofs.Check.Failures
import ExprLang.Proofs.Check.WellTyped

/-!
# Function literals without names

Function literals open frames, define locals in them and may fail at any depth.
Whatever happens, the check of an expression gives back all scopes as they were;
only the counter of functions may have moved on.  A successful check has moved it by
the number of function literals that are not all that one name is assigned.
-/

namespace ExprLang

open Checker SymbolTable

/-! ## Function literals without names -/

namespace Node

def isLiteral : Node → Bool
  | .expression (.function _ _ _ _ _) => true
  | _ => false

/-- The number of function literals right below a node, except one that is all that
a single name is assigned. -/
def unnamed : Node → Nat
  | .statement (.assign [_] _ _) => 0
  | node => node.children.countP isLiteral

def unnamedIn : List (Nat × Node) → Nat
  | [] => 0
  | entry :: nodes => entry.2.unnamed + unnamedIn nodes

theorem unnamedIn_cons (depth : Nat) (node : Node) (nodes : List (Nat × Node)) :
    unnamedIn ((depth, node) :: nodes) = node.unnamed + unnamedIn nodes := rfl

theorem unnamedIn_append (nodes others : List (Nat × Node)) :
    unnamedIn (nodes ++ others) = unnamedIn nodes + unnamedIn others := by
  induction nodes with
  | nil => exact (Nat.zero_add _).symm
  | cons entry nodes ih =>
      rw [List.cons_append, unnamedIn, unnamedIn, ih, Nat.add_assoc]

end Node

def Expr.literals (expressions : List Expr) : Nat :=
  (expressions.map Node.expression).countP Node.isLiteral

theorem Expr.literals_cons (expression : Expr) (expressions : List Expr) :
    Expr.literals (expression :: expressions) =
      Expr.literals [expression] + Expr.literals expressions := by
  simp [Expr.literals, List.countP_cons, Nat.add_comm]

theorem Node.unnamed_block (statements : List Statement) :
    (Node.block statements).unnamed = 0 := by
  simp [unnamed, children, isLiteral]

private theorem Node.unnamed_assign (targets : List Variable) (value : Expr)
    (line : Nat) :
    (Node.statement (.assign targets value line)).unnamed =
      if targets.length = 1 then 0 else Expr.literals [value] := by
  cases targets with
  | nil => rfl
  | cons target targets =>
      cases targets with
      | nil => rfl
      | cons => simp [unnamed, children, Expr.literals]

namespace Expr

variable (depth : Nat)

private theorem unnamedIn_operator (op : Operator) (operandType? : Option Ty)
    (left right : Expr) :
    Node.unnamedIn ((Expr.operator op operandType? left right).preorder depth) =
      literals [left] + literals [right] +
        (Node.unnamedIn (left.preorder (depth + 1)) +
          Node.unnamedIn (right.preorder (depth + 1))) := by
  rw [preorder, Node.unnamedIn_cons, Node.unnamedIn_append, ← literals_cons]
  rfl

private theorem unnamedIn_conditional (condition thenBranch elseBranch : Expr)
    (returns : List Ty) :
    Node.unnamedIn ((Expr.conditional condition thenBranch elseBranch
        returns).preorder depth) =
      literals [condition] + (literals [thenBranch] + literals [elseBranch]) +
        (Node.unnamedIn (condition.preorder (depth + 1)) +
          Node.unnamedIn (thenBranch.preorder (depth + 1)) +
          Node.unnamedIn (elseBranch.preorder (depth + 1))) := by
  rw [preorder, Node.unnamedIn_cons, Node.unnamedIn_append, Node.unnamedIn_append,
    ← literals_cons thenBranch, ← literals_cons]
  rfl

private theorem unnamedIn_apply (callee : Expr) (arguments : List Expr)
    (returns : List Ty) :
    Node.unnamedIn ((Expr.apply callee arguments returns).preorder depth) =
      literals [callee] + literals arguments +
        (Node.unnamedIn (callee.preorder (depth + 1)) +
          Node.unnamedIn (preorderAll (depth + 1) arguments)) := by
  rw [preorder, Node.unnamedIn_cons, Node.unnamedIn_append, ← literals_cons]
  rfl

private theorem unnamedIn_array (elementType? : Option Ty) (elements : List Expr) :
    Node.unnamedIn ((Expr.array elementType? elements).preorder depth) =
      literals elements + Node.unnamedIn (preorderAll (depth + 1) elements) := by
  rw [preorder, Node.unnamedIn_cons]
  rfl

private theorem unnamedIn_function (arguments : List Variable) (returns : List Ty)
    (returnsOmitted : Bool) (body : List Statement)
    (signature? : Option Signature) :
    Node.unnamedIn ((Expr.function arguments returns returnsOmitted body
        signature?).preorder depth) =
      Node.unnamedIn (Statement.preorderAll (depth + 2) body) := by
  rw [preorder, Node.unnamedIn_cons, Node.unnamedIn_cons, Node.unnamed_block,
    Nat.zero_add]
  exact Nat.zero_add _

end Expr

/-! ## Slots of a walk -/

theorem Expr.slots_false (expression : Expr) :
    expression.slots false =
      expression.slots true + Expr.literals [expression] := by
  cases expression <;> rfl

mutual

/-- The walk takes a slot for each literal without a name in the listing of the
tree. -/
theorem Expr.slots_eq (depth : Nat) : (expression : Expr) →
    expression.slots true = Node.unnamedIn (expression.preorder depth)
  | .int _ | .float _ | .string _ | .bool _ | .reference _ => rfl
  | .operator _ _ left right => by
      rw [Expr.unnamedIn_operator, ← left.slots_eq (depth + 1),
        ← right.slots_eq (depth + 1), Expr.slots, left.slots_false,
        right.slots_false]
      omega
  | .conditional condition thenBranch elseBranch _ => by
      rw [Expr.unnamedIn_conditional, ← condition.slots_eq (depth + 1),
        ← thenBranch.slots_eq (depth + 1), ← elseBranch.slots_eq (depth + 1),
        Expr.slots, condition.slots_false, thenBranch.slots_false,
        elseBranch.slots_false]
      omega
  | .array _ elements => by
      rw [Expr.unnamedIn_array, ← Expr.slotsAll_eq (depth + 1) elements]
      rfl
  | .apply callee arguments _ => by
      have harguments := Expr.slotsAll_eq (depth + 1) arguments
      rw [Expr.unnamedIn_apply, ← callee.slots_eq (depth + 1), Expr.slots,
        callee.slots_false]
      omega
  | .function _ _ _ body _ => by
      rw [Expr.unnamedIn_function, ← Statement.slotsAll_eq (depth + 2) body]
      rfl

theorem Expr.slotsAll_eq (depth : Nat) :
    (expressions : List Expr) →
      Expr.slotsAll expressions = Expr.literals expressions +
          Node.unnamedIn (Expr.preorderAll depth expressions)
  | [] => rfl
  | expression :: expressions => by
      rw [Expr.slotsAll, Expr.literals_cons, Expr.preorderAll,
        Node.unnamedIn_append, ← expression.slots_eq depth, expression.slots_false,
        Expr.slotsAll_eq depth expressions]
      omega

theorem Statement.slots_eq (depth : Nat) : (statement : Statement) →
    statement.slots = Node.unnamedIn (statement.preorder depth)
  | .assign targets value line => by
      rw [Statement.slots, Statement.preorder, Node.unnamedIn_cons,
        Node.unnamed_assign, ← value.slots_eq (depth + 1)]
      split
      · rename_i hsingle
        simp [hsingle]
      · rename_i hmany
        simp [hmany, value.slots_false, Nat.add_comm]
  | .result expressions _ => by
      rw [Statement.slots, Expr.slotsAll_eq (depth + 1) expressions]
      rfl

theorem Statement.slotsAll_eq (depth : Nat) :
    (statements : List Statement) →
      Statement.slotsAll statements =
        Node.unnamedIn (Statement.preorderAll depth statements)
  | [] => rfl
  | statement :: statements => by
      rw [Statement.slotsAll, Statement.preorderAll, Node.unnamedIn_append,
        statement.slots_eq depth, Statement.slotsAll_eq depth statements]

end

theorem Program.slotsAll_eq (program : Program) :
    Statement.slotsAll program.statements = Node.unnamedIn program.preorder := by
  rw [Program.preorder, Node.unnamedIn_cons, Node.unnamedIn_cons,
    Node.unnamed_block, Statement.slotsAll_eq 2 program.statements]
  simp [Node.unnamed, Node.children, Node.isLiteral]

mutual

theorem Expr.slots_erased (bound : Bool) :
    (expression : Expr) → expression.erased.slots bound = expression.slots bound
  | .int _ | .float _ | .string _ | .bool _ | .reference _ => rfl
  | .operator _ _ left right => by
      rw [Expr.erased, Expr.slots, Expr.slots, left.slots_erased,
        right.slots_erased]
  | .conditional condition thenBranch elseBranch _ => by
      rw [Expr.erased, Expr.slots, Expr.slots, condition.slots_erased,
        thenBranch.slots_erased, elseBranch.slots_erased]
  | .array _ elements => Expr.slotsAll_erasedAll elements
  | .apply callee arguments _ => by
      rw [Expr.erased, Expr.slots, Expr.slots, callee.slots_erased,
        Expr.slotsAll_erasedAll arguments]
  | .function _ _ _ body _ => by
      rw [Expr.erased, Expr.slots, Expr.slots, Statement.slotsAll_erasedAll body]

theorem Expr.slotsAll_erasedAll : (expressions : List Expr) →
    Expr.slotsAll (Expr.erasedAll expressions) = Expr.slotsAll expressions
  | [] => rfl
  | expression :: expressions => by
      rw [Expr.erasedAll, Expr.slotsAll, Expr.slotsAll, expression.slots_erased,
        Expr.slotsAll_erasedAll expressions]

theorem Statement.slots_erased :
    (statement : Statement) → statement.erased.slots = statement.slots
  | .assign targets value _ => by
      rw [Statement.erased, Statement.slots, Statement.slots, List.length_map,
        value.slots_erased]
  | .result expressions _ => Expr.slotsAll_erasedAll expressions

theorem Statement.slotsAll_erasedAll :
    (statements : List Statement) →
      Statement.slotsAll (Statement.erasedAll statements) =
        Statement.slotsAll statements
  | [] => rfl
  | statement :: statements => by
      rw [Statement.erasedAll, Statement.slotsAll, Statement.slotsAll,
        statement.slots_erased, Statement.slotsAll_erasedAll statements]

end

/-! ## Taking slots -/

namespace Checker

variable {α β : Type}

/-- Apart from global symbols a run takes at most so many slots of functions, and
exactly so many if it succeeds. -/
def Taking (cost : Nat) (checker : Checker α) : Prop :=
  ∀ table, ∃ taken ≤ cost, Takes taken table (checker.runOn table).2 ∧
    ∀ value, (checker.runOn table).1 = .ok value → taken = cost

theorem taking_of_after_eq {checker : Checker α}
    (h : ∀ table, (checker.runOn table).2 = table) :
    checker.Taking 0 :=
  fun table => ⟨0, Nat.le_refl 0, (h table).symm ▸ Takes.refl table, fun _ _ => rfl⟩

private theorem taking_fail (cost line : Nat) (fault : TypeFault) :
    (fail line fault : Checker α).Taking cost := by
  refine fun table => ⟨0, Nat.zero_le cost, Takes.refl table, ?_⟩
  intro value hvalue
  cases hvalue

theorem Taking.bind {cost other : Nat} {checker : Checker α} {next : α → Checker β}
    (h : checker.Taking cost) (hnext : ∀ value, (next value).Taking other) :
    (checker >>= next).Taking (cost + other) := by
  intro table
  obtain ⟨taken, hle, htakes, hok⟩ := h table
  rw [runOn_bind]
  cases hrun : checker.runOn table with
  | mk outcome middle =>
      rw [hrun] at htakes hok
      cases outcome with
      | error error =>
          refine ⟨taken, Nat.le_trans hle (Nat.le_add_right _ _), htakes, ?_⟩
          intro value hvalue
          cases hvalue
      | ok value =>
          obtain ⟨more, hmore, htakesMore, hokMore⟩ := hnext value middle
          refine ⟨taken + more, Nat.add_le_add hle hmore, htakes.trans htakesMore,
            ?_⟩
          intro result hresult
          rw [hok value rfl, hokMore result hresult]

private theorem taking_place (line : Nat) (name : String) (type : Ty) :
    (place line name type).Taking 0 := by
  intro table
  refine ⟨0, Nat.le_refl 0, ?_, fun _ _ => rfl⟩
  cases hrun : (place line name type).runOn table with
  | mk outcome after =>
      cases outcome with
      | error error =>
          obtain rfl := (of_place_fails hrun).1
          exact Takes.refl after
      | ok value =>
          cases yields_place_iff.1 hrun with
          | new hnew => exact takes_define hnew type
          | again => exact Takes.refl table

private theorem taking_reserve : reserve.Taking 1 :=
  fun _ => ⟨1, Nat.le_refl 1, takes_of_globals_eq rfl rfl rfl, fun _ _ => rfl⟩

private theorem Taking.inFrame {cost : Nat} {checker : Checker α}
    (h : checker.Taking cost) (arguments : List (String × Ty)) :
    (inFrame arguments checker).Taking cost := by
  intro table
  obtain ⟨taken, hle, htakes, hok⟩ := h (table.enter arguments)
  exact ⟨taken, hle, ⟨htakes.values, htakes.functions⟩, hok⟩

def taking : Walker.Relation Checker Checker :=
  fun cost _ checker _ => checker.Taking cost

theorem sequential_taking (lines : Nat → Prop) :
    Walker.Sequential lines taking where
  done _ := taking_of_after_eq fun _ => rfl
  failed _ _ := taking_fail _ _ _
  next := Taking.bind
  now hline hnext := hnext _ hline

theorem closedOn_taking :
    Walker.ClosedOn (fun _ => True) (fun _ => taking) (fun _ => taking) taking where
  inside _ := sequential_taking _
  around _ := sequential_taking _
  widen h := h
  typeOf line target _ := by
    refine taking_of_after_eq fun table => ?_
    exact List.mem_singleton.1 ((Traced.typeOf line target.name).path table).mem
  place _ _ _ := taking_place _ _ _
  reserve _ := taking_reserve
  inFrame _ _ _ h := h.inFrame _
  statement _ _ h := h
  done _ := taking_of_after_eq fun _ => rfl
  next := Taking.bind

end Checker

theorem Program.taking_check (program : Program) :
    program.check.Taking (Node.unnamedIn program.preorder) := by
  rw [← program.slotsAll_eq]
  have hstatements := Statement.relatedAll closedOn_taking false program.statements
    fun _ _ _ _ => trivial
  exact program.related (sequential_taking fun _ => True) hstatements

theorem Program.unnamedIn_of_check {program new : Program}
    {table after : SymbolTable} (h : program.check.Yields table new after) :
    Node.unnamedIn new.preorder = Node.unnamedIn program.preorder := by
  obtain ⟨candidates, hstatements⟩ := Program.check_iff_checksAll.1 h
  rw [← new.slotsAll_eq, ← program.slotsAll_eq, ← Statement.slotsAll_erasedAll,
    hstatements.fills.erased_eq, Statement.slotsAll_erasedAll]

/-! ## Expressions -/

/-- The number of function literals of an expression, the expression itself
included, except those that are all that a single name is assigned. -/
def Expr.unnamed (expression : Expr) : Nat :=
  Expr.literals [expression] + Node.unnamedIn (expression.preorder 0)

private theorem Expr.taking_check (line : Nat) (expression : Expr) :
    (expression.check line false).Taking expression.unnamed := by
  have hslots : expression.slots false = expression.unnamed := by
    rw [expression.slots_false, expression.slots_eq 0, Nat.add_comm]
    rfl
  exact hslots ▸ expression.related closedOn_taking line false fun _ _ => trivial

/-- Whether it succeeds or fails, the check of an expression gives back the table
with all frames, the global symbols and the counter of values as they were.  The
counter of functions has moved on by at most the number of function literals that
are not all that a single name is assigned, and after success by exactly this
number.  It is higher by that much if it still fits into 32 bits. -/
theorem Expr.check_gives_back_scopes (line : Nat) (expression : Expr)
    (table : SymbolTable) :
    ∃ taken ≤ expression.unnamed,
      ((expression.check line false).runOn table).2 =
        { table with functions := table.functions + .ofNat taken } ∧
      (∀ result, ((expression.check line false).runOn table).1 = .ok result →
        taken = expression.unnamed) ∧
      (table.functions.toNat + expression.unnamed < UInt32.size →
        ((expression.check line false).runOn table).2.functions.toNat =
          table.functions.toNat + taken) := by
  have hsame : table.SameScopes ((expression.check line false).runOn table).2 :=
    expression.relates_check line false table
  obtain ⟨taken, hle, htakes, hok⟩ := expression.taking_check line table
  obtain ⟨named, hnamed, -, hfunctions⟩ := htakes.functions
  rw [functionIndices, hsame.globals_eq] at hnamed
  obtain rfl : named = [] := List.self_eq_append_right.1 hnamed
  rw [List.length_nil, Nat.zero_add] at hfunctions
  refine ⟨taken, hle, ?_, hok, fun hbound => ?_⟩
  · obtain ⟨hglobals, hvalues, hframes⟩ := hsame
    rw [← hglobals, ← hvalues, ← hframes, ← hfunctions]
  · have hsum : table.functions.toNat + taken < UInt32.size := by omega
    rw [hfunctions, UInt32.toNat_add, UInt32.toNat_ofNat_of_lt' (by omega)]
    exact Nat.mod_eq_of_lt hsum

def Expr.handlers : Expr := .array none [
  .function [⟨"x", some .int⟩] [.int] false
    [.assign [⟨"k", none⟩]
      (.function [⟨"y", some .int⟩] [] true [.result [.named "y"] 2] none) 2,
      .result [.apply (.named "k") [.named "x"] []] 3] none,
  .function [⟨"z", some .int⟩] [.int] false [.result [.named "z"] 4] none]

theorem Expr.handlers_give_back_scopes :
    ∃ result, ((Expr.handlers.check 1 false).runOn
        ⟨[⟨"a", .int, 0⟩], 1, 5, [⟨[⟨"b", .bool, 0⟩], 1⟩]⟩) =
      (.ok result, ⟨[⟨"a", .int, 0⟩], 1, 7, [⟨[⟨"b", .bool, 0⟩], 1⟩]⟩) := by
  obtain ⟨taken, -, hafter, hcount, -⟩ :=
    Expr.check_gives_back_scopes 1 Expr.handlers
      ⟨[⟨"a", .int, 0⟩], 1, 5, [⟨[⟨"b", .bool, 0⟩], 1⟩]⟩
  obtain rfl : taken = 2 := hcount _ rfl
  exact ⟨_, Prod.ext rfl hafter⟩

end ExprLang
