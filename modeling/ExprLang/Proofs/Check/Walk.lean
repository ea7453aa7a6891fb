import ExprLang.Check.Walker
import ExprLang.Proofs.Check.Rule
import ExprLang.Proofs.Tree.Nodes

/-!
# Two walks side by side

A walk is made of a few operations, one after the other.  A relation between walks
of two walkers that holds of the operations and carries over to their sequence holds
of the walks over every tree: walks over expressions have an inner relation, walks
over blocks an outer one.  The inner one may depend on the line of the statement
that the expression stands in, and what the operations are asked may depend on the
nodes of the tree.  The relations are also indexed by the number of slots that the
walk takes for functions without names.
-/

namespace ExprLang

/-! ## Faults of the rules -/

def TypeFault.undefined? : TypeFault → Option String
  | .undefinedIdentifier name => some name
  | _ => none

namespace Rule

variable {α β : Type}

def Nameless (outcome : Except TypeFault α) : Prop :=
  ∀ fault, outcome = .error fault → fault.undefined? = none

theorem nameless_ok (value : α) : Nameless (.ok value) := by
  intro fault h
  cases h

theorem nameless_error {fault : TypeFault} (h : fault.undefined? = none) :
    Nameless (.error fault : Except TypeFault α) := by
  rintro _ ⟨⟩
  exact h

private theorem nameless_bind {outcome : Except TypeFault α}
    {next : α → Except TypeFault β} (h : Nameless outcome)
    (hnext : ∀ value, Nameless (next value)) :
    Nameless (outcome >>= next) := by
  cases outcome with
  | ok value => exact hnext value
  | error fault => exact nameless_error (h fault rfl)

theorem nameless_concrete (types : List Ty) : Nameless (concrete types) := by
  unfold concrete
  split
  · exact nameless_error rfl
  · exact nameless_ok _

private theorem nameless_operand (op : Operator) (left right : List Ty) :
    Nameless (operand op left right) := by
  unfold operand
  split
  · split
    · split
      · exact nameless_ok _
      · exact nameless_error rfl
    · exact nameless_error rfl
  · exact nameless_error rfl

private theorem nameless_element (index : Nat) (expected? : Option Ty)
    (found : Ty) :
    Nameless (element index expected? found) := by
  unfold element
  split
  · exact nameless_ok _
  · split
    · exact nameless_ok _
    · exact nameless_error rfl

private theorem nameless_bindParameters (position : Nat) (bindings : Bindings)
    (parameters actuals : List Ty) :
    Nameless (bindParameters position bindings parameters actuals) := by
  fun_induction bindParameters position bindings parameters actuals with
  | case1 _ _ _ _ _ _ _ _ ih => exact ih
  | case2 => exact nameless_error rfl
  | case3 => exact nameless_ok _

private theorem nameless_application (callee actuals : List Ty) :
    Nameless (application callee actuals) := by
  unfold application
  split
  · split
    · exact nameless_error rfl
    · refine nameless_bind (nameless_bindParameters _ _ _ _) fun bindings => ?_
      split
      · exact nameless_ok _
      · exact nameless_error rfl
  · exact nameless_error rfl

theorem nameless_declared (arguments : List Variable) (returns : List Ty) :
    Nameless (declared arguments returns) := by
  unfold declared
  split
  · exact nameless_ok _
  · exact nameless_error rfl

private theorem nameless_returns (returnsOmitted : Bool) (declared : List Ty)
    (candidates : List (List Ty)) :
    Nameless (returns returnsOmitted declared candidates) := by
  unfold returns
  split
  · split
    · exact nameless_ok _
    · exact nameless_error rfl
  · exact nameless_ok _

end Rule

open Rule

/-! ## Slots for functions without names -/

mutual

/-- The function literals of an expression that take a slot of their own: all of
them, but for those that are all that one name is assigned.  Of the expression
itself `bound` says whether it is such a literal. -/
def Expr.slots (bound : Bool) : Expr → Nat
  | .int _ | .float _ | .string _ | .bool _ | .reference _ => 0
  | .operator _ _ left right => left.slots false + right.slots false
  | .conditional condition thenBranch elseBranch _ =>
      condition.slots false + (thenBranch.slots false + elseBranch.slots false)
  | .array _ elements => Expr.slotsAll elements
  | .apply callee arguments _ => Expr.slotsAll arguments + callee.slots false
  | .function _ _ _ body _ => Statement.slotsAll body + if bound then 0 else 1

def Expr.slotsAll : List Expr → Nat
  | [] => 0
  | expression :: expressions => expression.slots false + Expr.slotsAll expressions

def Statement.slots : Statement → Nat
  | .assign targets value _ => value.slots (targets.length = 1)
  | .result expressions _ => Expr.slotsAll expressions

def Statement.slotsAll : List Statement → Nat
  | [] => 0
  | statement :: statements => statement.slots + Statement.slotsAll statements

end

/-! ## Operations -/

/-- Nothing comes after a failure. -/
class LawfulWalker (m : Type → Type) [Monad m] [Walker m] : Prop where
  pure_bind {α β : Type} (value : α) (next : α → m β) :
    (pure value >>= next) = next value
  fail_bind {α β : Type} (line : Nat) (fault : TypeFault) (next : α → m β) :
    (Walker.fail line fault >>= next) = Walker.fail line fault

namespace Walker

variable {m n : Type → Type} [Monad m] [Walker m] [Monad n] [Walker n] {α β : Type}

/-- A relation between walks that take so many slots for functions without names. -/
abbrev Relation (m n : Type → Type) := Nat → (α : Type) → m α → n α → Prop

/-- Sequences are related when their parts are.  Errors are on one of the lines. -/
structure Sequential (lines : Nat → Prop) (relation : Relation m n) : Prop where
  done : ∀ {α : Type} (value : α), relation 0 α (pure value) (pure value)
  failed : ∀ {α : Type} {slots line : Nat} {fault : TypeFault},
    lines line → fault.undefined? = none →
    relation slots α (fail line fault) (fail line fault)
  next : ∀ {α β : Type} {slots others : Nat} {first : m α} {second : n α}
      {next : α → m β} {after : α → n β},
    relation slots α first second →
    (∀ value, relation others β (next value) (after value)) →
    relation (slots + others) β (first >>= next) (second >>= after)
  now : ∀ {α : Type} {slots line : Nat} {next : Nat → m α} {after : Nat → n α},
    lines line →
    (∀ other, lines other → relation slots α (next other) (after other)) →
    relation slots α (now line >>= next) (now line >>= after)

/-- Names of the variables are given types without holes in related ways. -/
abbrev PlacesAll (lines : Nat → Prop) (relation : Relation m n)
    (targets : List Variable) : Prop :=
  ∀ target ∈ targets, ∀ type : Ty, type.hasHole = false → ∀ line, lines line →
    relation 0 Unit (place line target.name type) (place line target.name type)

/-- Relations of the operations, for trees of admitted nodes.  What a statement does
on its line has the relation `part` of the line. -/
structure ClosedOn [LawfulWalker m] [LawfulWalker n] (admits : Node → Prop)
    (inner part : Nat → Relation m n) (outer : Relation m n) : Prop where
  inside : ∀ line, Sequential (· = line) (inner line)
  around : ∀ line, Sequential (· = line) (part line)
  widen : ∀ {α : Type} {line slots : Nat} {first : m α} {second : n α},
    inner line slots α first second →
    part line slots α first second
  typeOf : ∀ (line : Nat) {target : Variable},
    admits (.expression (.reference target)) →
    inner line 0 Ty (typeOf line target.name) (typeOf line target.name)
  place : ∀ {targets : List Variable} {value : Expr} {line : Nat}
      {target : Variable} {type : Ty},
    admits (.statement (.assign targets value line)) → target ∈ targets →
    type.hasHole = false →
    part line 0 Unit (place line target.name type) (place line target.name type)
  reserve : ∀ line, inner line 1 Unit reserve reserve
  inFrame : ∀ {α : Type} {slots : Nat} {first : m α} {second : n α}
      {arguments : List Variable} {returns : List Ty} {returnsOmitted : Bool}
      {body : List Statement} {signature? : Option Signature}
      {signature : Signature} (line : Nat),
    admits (.expression
      (.function arguments returns returnsOmitted body signature?)) →
    Rule.declared arguments returns = .ok signature → outer slots α first second →
    inner line slots α
      (inFrame ((arguments.map Variable.name).zip signature.arguments)
        (block first))
      (inFrame ((arguments.map Variable.name).zip signature.arguments)
        (block second))
  statement : ∀ {statement : Statement} {slots : Nat} (inFunction : Bool),
    admits (.statement statement) →
    part statement.line slots _ (statement.walk inFunction)
      (statement.walk inFunction) →
    outer slots _ (onLine statement.line (statement.walk inFunction))
      (onLine statement.line (statement.walk inFunction))
  done : ∀ {α : Type} (value : α), outer 0 α (pure value) (pure value)
  next : ∀ {α β : Type} {slots others : Nat} {first : m α} {second : n α}
      {next : α → m β} {after : α → n β},
    outer slots α first second →
    (∀ value, outer others β (next value) (after value)) →
    outer (slots + others) β (first >>= next) (second >>= after)

namespace Sequential

variable {lines : Nat → Prop} {relation : Relation m n}
    (h : Sequential lines relation)

include h

theorem after {slots : Nat} {first : m α} {second : n α} {next : α → m β}
    {following : α → n β} (hfirst : relation 0 α first second)
    (hnext : ∀ value, relation slots β (next value) (following value)) :
    relation slots β (first >>= next) (second >>= following) :=
  Nat.zero_add slots ▸ h.next hfirst hnext

variable {line : Nat} (hline : lines line)

include hline

theorem require {outcome : Except TypeFault α} (hnameless : Nameless outcome) :
    relation 0 α (require line outcome) (require line outcome) := by
  cases outcome with
  | ok value => exact h.done value
  | error fault => exact h.failed hline (hnameless fault rfl)

theorem concrete {slots : Nat} (types : List Ty) {next : Unit → m β}
    {following : Unit → n β}
    (hnext : ∀ value, relation slots β (next value) (following value)) :
    relation slots β
      (Walker.now line >>=
        fun line => Walker.require line (Rule.concrete types) >>= next)
      (Walker.now line >>=
        fun line => Walker.require line (Rule.concrete types) >>= following) :=
  h.now hline fun _ hother =>
    h.after (h.require hother (nameless_concrete types)) hnext

theorem single (place : SinglePlace) (types : List Ty) :
    relation 0 Ty (single line place types) (single line place types) := by
  unfold Walker.single
  split
  · exact h.concrete hline _ fun _ => h.done _
  · exact h.failed hline rfl

private theorem branches (condition thenTypes elseTypes : List Ty) :
    relation 0 (List Ty) (branches line condition thenTypes elseTypes)
      (branches line condition thenTypes elseTypes) := by
  have hconcrete := h.concrete hline thenTypes fun _ => h.done thenTypes
  unfold Walker.branches
  cases Ty.sameAll condition [.bool] with
  | false =>
      cases Ty.sameAll thenTypes elseTypes with
      | false =>
          exact h.after (h.failed hline rfl) fun _ =>
            h.after (h.failed hline rfl) fun _ => hconcrete
      | true => exact h.after (h.failed hline rfl) fun _ => hconcrete
  | true =>
      cases Ty.sameAll thenTypes elseTypes with
      | false => exact h.after (h.failed hline rfl) fun _ => hconcrete
      | true => exact hconcrete

theorem agree (target : Variable) (type : Ty) :
    relation 0 Unit (agree line target type) (agree line target type) := by
  unfold Walker.agree
  split
  · split
    · exact h.done ()
    · exact h.failed hline rfl
  · exact h.done ()

variable [LawfulWalker m] [LawfulWalker n]

theorem given {slots : Nat} {outcome : Except TypeFault α}
    (hnameless : Nameless outcome) {next : α → m β} {following : α → n β}
    (hnext : ∀ value,
      outcome = .ok value → relation slots β (next value) (following value)) :
    relation slots β (Walker.require line outcome >>= next)
      (Walker.require line outcome >>= following) := by
  cases outcome with
  | ok value =>
      rw [Walker.require, Walker.require, LawfulWalker.pure_bind,
        LawfulWalker.pure_bind]
      exact hnext value rfl
  | error fault =>
      rw [Walker.require, Walker.require, LawfulWalker.fail_bind,
        LawfulWalker.fail_bind]
      exact h.failed hline (hnameless fault rfl)

theorem function (hreserve : relation 1 Unit reserve reserve) (bound : Bool)
    (arguments : List Variable) (returns : List Ty) (returnsOmitted : Bool)
    {slots : Nat} {walkBody : m (List Statement × List (List Ty))}
    {otherBody : n (List Statement × List (List Ty))}
    (hbody : ∀ signature : Signature,
      Rule.declared arguments returns = .ok signature →
      relation slots _
        (inFrame ((arguments.map Variable.name).zip signature.arguments)
          (block walkBody))
        (inFrame ((arguments.map Variable.name).zip signature.arguments)
          (block otherBody))) :
    relation (slots + if bound then 0 else 1) _
      (function line bound arguments returns returnsOmitted walkBody)
      (function line bound arguments returns returnsOmitted otherBody) := by
  refine h.now hline fun _ hother =>
    h.given hother (nameless_declared _ _) fun signature hsignature => ?_
  refine h.next (hbody signature hsignature) fun _ =>
    h.after (h.require hother (nameless_returns _ _ _)) fun _ => ?_
  cases bound with
  | true => exact h.done _
  | false => exact h.next hreserve fun _ => h.done _

/-! ## Assignments -/

theorem assign {target : Variable} {type : Ty}
    (hplace : type.hasHole = false → ∀ line, lines line →
        relation 0 Unit (place line target.name type)
          (place line target.name type)) :
    relation 0 Variable (Walker.bind line target type)
      (Walker.bind line target type) := by
  refine h.now hline fun _ hother =>
    h.after (h.agree hother target type) fun _ => ?_
  refine h.given hother (nameless_concrete _) fun _ hconcrete => ?_
  have htype : type.hasHole = false := by
    simpa [Ty.anyHasHole] using concrete_eq_ok_iff.1 hconcrete
  exact h.after (hplace htype _ hother) fun _ => h.done _

private theorem bindEach {targets : List Variable} (types : List Ty)
    (hplace : PlacesAll lines relation targets) :
    relation 0 (List Variable) (bindEach line targets types)
      (bindEach line targets types) := by
  induction targets generalizing types with
  | nil => exact h.done _
  | cons target targets ih =>
      obtain ⟨hfirst, hothers⟩ := List.forall_mem_cons.1 hplace
      cases types with
      | nil => exact h.done _
      | cons type types =>
          exact h.after (h.assign hline (hfirst type)) fun _ =>
            h.after (ih types hothers) fun _ => h.done _

theorem bindAll {targets : List Variable} (types : List Ty)
    (hplace : PlacesAll lines relation targets) :
    relation 0 (List Variable) (bindAll line targets types)
      (bindAll line targets types) := by
  unfold Walker.bindAll
  split
  · exact h.after (h.failed hline rfl) fun _ => h.bindEach hline types hplace
  · exact h.bindEach hline types hplace

theorem bindRecursive {targets : List Variable} (value : Expr)
    (hplace : PlacesAll lines relation targets) :
    relation 0 (Option (List Variable)) (bindRecursive line targets value)
      (bindRecursive line targets value) := by
  unfold Walker.bindRecursive
  split
  · rename_i target arguments returns returnsOmitted body _
    have hsigned : relation 0 (Option (List Variable))
        (do
          let signature ← Walker.require (← Walker.now line)
              (Rule.declared arguments returns)
          let target ← Walker.bind line target signature.toTy
          return some [target])
        (do
          let signature ← Walker.require (← Walker.now line)
              (Rule.declared arguments returns)
          let target ← Walker.bind line target signature.toTy
          return some [target]) :=
      h.now hline fun _ hother =>
        h.after (h.require hother (nameless_declared _ _)) fun _ =>
        h.after (h.assign hline (hplace target List.mem_cons_self _)) fun _ =>
          h.done _
    split
    · split
      · exact h.after (h.failed hline rfl) fun _ => hsigned
      · exact hsigned
    · exact h.done _
  · exact h.done _

theorem assignment {targets : List Variable} (value : Expr) {slots : Nat}
    {walkValue : Bool → m (Expr × List Ty)} {otherValue : Bool → n (Expr × List Ty)}
    (hplace : PlacesAll lines relation targets)
    (hvalue : relation slots _ (walkValue (targets.length = 1))
      (otherValue (targets.length = 1))) :
    relation slots _ (assignment targets value line walkValue)
      (assignment targets value line otherValue) := by
  refine h.after (h.bindRecursive hline value hplace) fun bound? => ?_
  cases bound? with
  | some results => exact h.next hvalue fun _ => h.done _
  | none =>
      exact h.next hvalue fun found =>
        h.after (h.bindAll hline found.2 hplace) fun _ => h.done _

end Sequential

end Walker

/-! ## Trees -/

section Trees

open Walker

variable {m n : Type → Type} [Monad m] [Walker m] [LawfulWalker m] [Monad n]
    [Walker n] [LawfulWalker n] {admits : Node → Prop}
    {inner part : Nat → Relation m n} {outer : Relation m n}
    (h : ClosedOn admits inner part outer)

include h

mutual

theorem Expr.related (line : Nat) (bound : Bool) :
    (expression : Expr) → (Node.expression expression).All admits →
      inner line (expression.slots bound) _ (expression.walk line bound)
        (expression.walk line bound)
  | .int _, _ | .float _, _ | .string _, _ | .bool _, _ => (h.inside line).done _
  | .reference target, hnodes =>
      (h.inside line).now rfl fun _ hother =>
        (h.inside line).after (hother ▸ h.typeOf line hnodes.self) fun _ =>
        (h.inside line).done _
  | .operator _ _ left right, hnodes =>
      have hleft := left.related line false (hnodes.child (by simp [Node.children]))
      have hright :=
        right.related line false (hnodes.child (by simp [Node.children]))
      (h.inside line).now rfl fun _ hother =>
        hother ▸ (h.inside line).next hleft fun _ =>
        (h.inside line).next hright fun _ =>
          (h.inside line).after
            ((h.inside line).require rfl (nameless_operand _ _ _)) fun _ =>
            (h.inside line).done _
  | .conditional condition thenBranch elseBranch _, hnodes =>
      have hcondition :=
        condition.related line false (hnodes.child (by simp [Node.children]))
      have hthen :=
        thenBranch.related line false (hnodes.child (by simp [Node.children]))
      have helse :=
        elseBranch.related line false (hnodes.child (by simp [Node.children]))
      (h.inside line).now rfl fun _ hother =>
        hother ▸ (h.inside line).next hcondition fun _ =>
        (h.inside line).next hthen fun _ => (h.inside line).next helse fun _ =>
          (h.inside line).after ((h.inside line).branches rfl _ _ _) fun _ =>
            (h.inside line).done _
  | .array _ elements, hnodes => by
      have hparts :=
        Expr.relatedElements line 0 none elements fun element helement =>
          hnodes.child (List.mem_map_of_mem helement)
      have helements := (h.inside line).next hparts fun found =>
        (h.inside line).done
          (Expr.array found.2 found.1, found.2.toList.map Ty.array)
      refine (h.inside line).now rfl ?_
      rintro _ rfl
      split
      · exact (h.inside _).after ((h.inside _).failed rfl rfl) fun _ => helements
      · exact helements
  | .apply callee arguments _, hnodes =>
      have harguments :=
        Expr.relatedArguments line arguments fun argument hargument =>
        hnodes.child (List.mem_cons_of_mem _ (List.mem_map_of_mem hargument))
      have hcallee := callee.related line false (hnodes.child List.mem_cons_self)
      (h.inside line).now rfl fun _ hother =>
        hother ▸ (h.inside line).next harguments fun _ =>
        (h.inside line).next hcallee fun _ =>
          (h.inside line).after
            ((h.inside line).require rfl (nameless_application _ _)) fun _ =>
            (h.inside line).done _
  | .function _ _ _ body _, hnodes =>
      have hbody := Statement.relatedAll true body fun statement hstatement =>
        (hnodes.child List.mem_cons_self).child (List.mem_map_of_mem hstatement)
      (h.inside line).function rfl (h.reserve line) _ _ _ _ fun _ hsignature =>
        h.inFrame line hnodes.self hsignature hbody

theorem Expr.relatedElements (line index : Nat) (expected? : Option Ty) :
    (elements : List Expr) →
      (∀ element ∈ elements, (Node.expression element).All admits) →
      inner line (Expr.slotsAll elements) _
        (Expr.walkElements line index expected? elements)
        (Expr.walkElements line index expected? elements)
  | [], _ => (h.inside line).done _
  | element :: elements, hnodes =>
      have hparts := List.forall_mem_cons.1 hnodes
      (h.inside line).next (element.related line false hparts.1) fun _ =>
        (h.inside line).after ((h.inside line).single rfl _ _) fun _ =>
          (h.inside line).after
            ((h.inside line).require rfl (nameless_element _ _ _)) fun _ =>
            (h.inside line).next
              (Expr.relatedElements line (index + 1) _ elements hparts.2) fun _ =>
              (h.inside line).done _

theorem Expr.relatedArguments (line : Nat) :
    (arguments : List Expr) →
      (∀ argument ∈ arguments, (Node.expression argument).All admits) →
      inner line (Expr.slotsAll arguments) _ (Expr.walkArguments line arguments)
        (Expr.walkArguments line arguments)
  | [], _ => (h.inside line).done _
  | argument :: arguments, hnodes =>
      have hparts := List.forall_mem_cons.1 hnodes
      (h.inside line).next (argument.related line false hparts.1) fun _ =>
        (h.inside line).after ((h.inside line).single rfl _ _) fun _ =>
          (h.inside line).next (Expr.relatedArguments line arguments hparts.2)
            fun _ => (h.inside line).done _

theorem Expr.relatedResults (line : Nat) :
    (expressions : List Expr) →
      (∀ expression ∈ expressions, (Node.expression expression).All admits) →
      inner line (Expr.slotsAll expressions) _ (Expr.walkResults line expressions)
        (Expr.walkResults line expressions)
  | [], _ => (h.inside line).done _
  | expression :: expressions, hnodes =>
      have hparts := List.forall_mem_cons.1 hnodes
      (h.inside line).next (expression.related line false hparts.1) fun _ =>
        (h.inside line).concrete rfl _ fun _ =>
          (h.inside line).next (Expr.relatedResults line expressions hparts.2)
            fun _ => (h.inside line).done _

theorem Statement.relatedParts (inFunction : Bool) :
    (statement : Statement) →
      (Node.statement statement).All admits →
      part statement.line statement.slots _ (statement.walk inFunction)
        (statement.walk inFunction)
  | .assign targets value line, hnodes => by
      have hvalue :=
        value.related line (targets.length = 1) (hnodes.child List.mem_cons_self)
      unfold Statement.walk
      refine (h.around line).assignment rfl value ?_ (h.widen hvalue)
      rintro target htarget type htype _ rfl
      exact h.place hnodes.self htarget htype
  | .result expressions line, hnodes => by
      have hparts :=
        Expr.relatedResults line expressions fun expression hexpression =>
          hnodes.child (List.mem_map_of_mem hexpression)
      have hresults := (h.around line).next (h.widen hparts) fun found =>
        (h.around line).done (Statement.result found.1 line, some found.2)
      unfold Statement.walk
      split
      · exact (h.around line).after ((h.around line).failed rfl rfl) fun _ =>
          hresults
      · exact hresults

theorem Statement.relatedAll (inFunction : Bool) :
    (statements : List Statement) →
      (∀ statement ∈ statements, (Node.statement statement).All admits) →
      outer (Statement.slotsAll statements) _
        (Statement.walkAll inFunction statements)
        (Statement.walkAll inFunction statements)
  | [], _ => h.done _
  | statement :: statements, hnodes =>
      have hparts := List.forall_mem_cons.1 hnodes
      h.next (h.statement inFunction hparts.1.self
        (statement.relatedParts inFunction hparts.1)) fun _ =>
        h.next (Statement.relatedAll inFunction statements hparts.2) fun _ =>
          h.done _

end

end Trees

open Walker in
theorem Program.related {m n : Type → Type} [Monad m] [Walker m] [Monad n]
    [Walker n] {lines : Nat → Prop} {relation : Relation m n}
    (h : Sequential lines relation) (program : Program)
    (hblock : relation (Statement.slotsAll program.statements) _
      (block (Statement.walkAll false program.statements))
      (block (Statement.walkAll false program.statements))) :
    relation (Statement.slotsAll program.statements) _ program.walk program.walk :=
  h.next hblock fun _ => h.done _

end ExprLang
