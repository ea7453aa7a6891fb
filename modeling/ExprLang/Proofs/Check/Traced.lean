import ExprLang.Proofs.Check.Walk
import ExprLang.Proofs.Check.Yields

/-!
# Traced checks

A traced checker also lists the symbol tables that it passes through after the one
it starts from.  Every one of them is made from the one before by a single
operation, and the last is the table that the checker leaves.  Its walk over a tree
is that of the checker: forgetting the tables gives it back.  All that is known of
failing checks, of the tables on the way and of two runs side by side comes from
properties of traced checkers.
-/

namespace ExprLang

namespace SymbolTable

inductive Step : SymbolTable → SymbolTable → Prop
  | define (table : SymbolTable) (name : String) (type : Ty) :
      Step table (table.define name type).2
  | reserve (table : SymbolTable) : Step table table.reserve.2
  | enter (table : SymbolTable) (arguments : List (String × Ty)) :
      Step table (table.enter arguments)
  | leave (table : SymbolTable) : Step table table.leave

/-- `Path table later after`: the tables `later` follow `table` step by step, and
`after` comes last. -/
inductive Path : SymbolTable → List SymbolTable → SymbolTable → Prop
  | nil (table : SymbolTable) : Path table [] table
  | cons {table next after : SymbolTable} {later : List SymbolTable}
      (hstep : Step table next) (hpath : Path next later after) :
      Path table (next :: later) after

theorem Path.single {table next : SymbolTable} (h : Step table next) :
    Path table [next] next :=
  .cons h (.nil next)

theorem Path.append {table middle after : SymbolTable}
    {first second : List SymbolTable} (hfirst : Path table first middle)
    (hsecond : Path middle second after) :
    Path table (first ++ second) after := by
  induction hfirst with
  | nil table => exact hsecond
  | cons hstep _ ih => exact .cons hstep (ih hsecond)

theorem Path.mem {table after : SymbolTable} {later : List SymbolTable}
    (h : Path table later after) :
    after ∈ table :: later := by
  induction h with
  | nil table => exact List.mem_cons_self
  | cons _ _ ih => exact List.mem_cons_of_mem _ ih

end SymbolTable

open SymbolTable

/-! ## Traced checkers -/

structure Traced (α : Type) where
  checker : Checker α
  /-- The tables that follow the first one. -/
  later : SymbolTable → List SymbolTable
  path : ∀ table, Path table (later table) (checker.runOn table).2

namespace Traced

variable {α β : Type}

def reading (checker : Checker α)
    (h : ∀ table, (checker.runOn table).2 = table) : Traced α where
  checker := checker
  later _ := []
  path table := by
    rw [h table]
    exact .nil table

def laterOf (next : α → Traced β) :
    Except TypeError α × SymbolTable → List SymbolTable
  | (.ok value, after) => (next value).later after
  | (.error _, _) => []

instance : Monad Traced where
  pure value := reading (pure value) fun _ => rfl
  bind traced next :=
    { checker := traced.checker >>= fun value => (next value).checker
      later := fun table =>
        traced.later table ++ laterOf next (traced.checker.runOn table)
      path := fun table => by
        have hfirst := traced.path table
        rw [Checker.runOn_bind]
        cases hrun : traced.checker.runOn table with
        | mk outcome middle =>
            rw [hrun] at hfirst
            cases outcome with
            | ok value => exact hfirst.append ((next value).path middle)
            | error error => simpa [laterOf] using hfirst }

theorem later_bind (traced : Traced α) (next : α → Traced β) (table : SymbolTable) :
    (traced >>= next).later table =
      traced.later table ++ laterOf next (traced.checker.runOn table) :=
  rfl

def fail (line : Nat) (fault : TypeFault) : Traced α :=
  reading (Checker.fail line fault) fun _ => rfl

def typeOf (line : Nat) (name : String) : Traced Ty :=
  reading (Checker.typeOf line name) fun table => by
    rw [Checker.typeOf, Checker.runOn_bind, Checker.runOn_get]
    dsimp only
    split
    · rfl
    · split <;> rfl

def reserve : Traced Unit where
  checker := Checker.reserve
  later table := [table.reserve.2]
  path table := .single (.reserve table)

def place (line : Nat) (name : String) (type : Ty) : Traced Unit where
  checker := Checker.place line name type
  later table :=
    match table.resolve? name with
    | some _ => []
    | none => [(table.define name type).2]
  path table := by
    rw [Checker.place, Checker.runOn_bind, Checker.runOn_get]
    dsimp only
    cases hresolve : table.resolve? name with
    | none => exact .single (.define table name type)
    | some found =>
        obtain ⟨symbol, level⟩ := found
        cases level with
        | global => exact .nil table
        | frame =>
            dsimp only
            split <;> exact .nil table

def inFrame (arguments : List (String × Ty)) (traced : Traced α) : Traced α where
  checker := Checker.inFrame arguments traced.checker
  later table :=
    table.enter arguments :: (traced.later (table.enter arguments) ++
        [(traced.checker.runOn (table.enter arguments)).2.leave])
  path table :=
    .cons (.enter table arguments)
      ((traced.path (table.enter arguments)).append (.single (.leave _)))

instance : Walker Traced where
  fail line fault := fail line fault
  typeOf := typeOf
  place := place
  reserve := reserve
  inFrame := inFrame
  now line := pure line
  onLine _ traced := traced
  block traced := traced

instance : LawfulWalker Traced := ⟨fun _ _ => rfl, fun _ _ _ => rfl⟩

instance : LawfulWalker Checker := ⟨fun _ _ => rfl, fun _ _ _ => rfl⟩

end Traced

abbrev Expr.traced (line : Nat) (bound : Bool) (expression : Expr) :
    Traced (Expr × List Ty) :=
  expression.walk line bound

abbrev Expr.tracedArguments (line : Nat) (arguments : List Expr) :
    Traced (List Expr × List Ty) :=
  Expr.walkArguments line arguments

abbrev Expr.tracedResults (line : Nat) (expressions : List Expr) :
    Traced (List Expr × List Ty) :=
  Expr.walkResults line expressions

abbrev Statement.traced (inFunction : Bool) (statement : Statement) :
    Traced (Statement × Option (List Ty)) :=
  statement.walk inFunction

abbrev Statement.tracedAll (inFunction : Bool) (statements : List Statement) :
    Traced (List Statement × List (List Ty)) :=
  Statement.walkAll inFunction statements

abbrev Program.traced (program : Program) : Traced Program := program.walk

/-! ## Forgetting the tables -/

namespace Traced

/-- The traced walk becomes the walk of the checker. -/
def forgets : Walker.Relation Traced Checker :=
  fun _ _ traced checker => traced.checker = checker

theorem sequential_forgets (lines : Nat → Prop) :
    Walker.Sequential lines forgets where
  done _ := rfl
  failed _ _ := rfl
  next := by
    rintro α β slots others traced _ next after rfl hnext
    obtain rfl : (fun value => (next value).checker) = after := funext hnext
    rfl
  now hline hnext := hnext _ hline

theorem closedOn_forgets :
    Walker.ClosedOn (fun _ => True) (fun _ => forgets)
      (fun _ => forgets) forgets where
  inside _ := sequential_forgets _
  around _ := sequential_forgets _
  widen h := h
  typeOf _ _ _ := rfl
  place _ _ _ := rfl
  reserve _ := rfl
  inFrame _ _ _ h := congrArg (Checker.inFrame _) h
  statement _ _ h := h
  done _ := rfl
  next := (sequential_forgets fun _ => True).next

end Traced

theorem Expr.checker_traced (line : Nat) (bound : Bool) (expression : Expr) :
    (expression.traced line bound).checker = expression.check line bound :=
  expression.related Traced.closedOn_forgets line bound fun _ _ => trivial

theorem Expr.checker_tracedArguments (line : Nat) (arguments : List Expr) :
    (Expr.tracedArguments line arguments).checker =
      Expr.checkArguments line arguments :=
  Expr.relatedArguments Traced.closedOn_forgets line arguments fun _ _ _ _ =>
    trivial

theorem Expr.checker_tracedResults (line : Nat) (expressions : List Expr) :
    (Expr.tracedResults line expressions).checker =
      Expr.checkResults line expressions :=
  Expr.relatedResults Traced.closedOn_forgets line expressions fun _ _ _ _ =>
    trivial

theorem Statement.checker_traced (inFunction : Bool) (statement : Statement) :
    (statement.traced inFunction).checker = statement.check inFunction :=
  statement.relatedParts Traced.closedOn_forgets inFunction fun _ _ => trivial

theorem Statement.checker_tracedAll (inFunction : Bool)
    (statements : List Statement) :
    (Statement.tracedAll inFunction statements).checker =
      Statement.checkAll inFunction statements :=
  Statement.relatedAll Traced.closedOn_forgets inFunction statements fun _ _ _ _ =>
    trivial

theorem Program.checker_traced (program : Program) :
    program.traced.checker = program.check :=
  program.related (Traced.sequential_forgets fun _ => True)
    (Statement.checker_tracedAll false program.statements)

/-! ## Properties -/

namespace Traced

abbrev Property := (α : Type) → Traced α → Prop

def Property.relation (property : Property) : Walker.Relation Traced Traced :=
  fun _ α traced _ => property α traced

/-- A sequence has the property when its parts have it.  Errors are on one of the
lines. -/
structure Sequential (lines : Nat → Prop) (property : Property) : Prop where
  done : ∀ {α : Type} (value : α), property α (pure value)
  failed : ∀ {α : Type} {line : Nat} {fault : TypeFault},
    lines line → fault.undefined? = none →
    property α (fail line fault)
  next : ∀ {α β : Type} {traced : Traced α} {next : α → Traced β},
    property α traced →
    (∀ value, property β (next value)) → property β (traced >>= next)

structure Closed (lines : Nat → Prop) (inner outer : Property) : Prop where
  inside : Sequential lines inner
  outside : Sequential lines outer
  widen : ∀ {α : Type} {traced : Traced α}, inner α traced → outer α traced
  typeOf : ∀ {line : Nat} (name : String), lines line → inner Ty (typeOf line name)
  place : ∀ {line : Nat} (name : String) (type : Ty),
    lines line → outer Unit (place line name type)
  reserve : inner Unit reserve
  inFrame : ∀ {α : Type} {traced : Traced α} (arguments : List (String × Ty)),
    outer α traced →
    inner α (inFrame arguments traced)

/-- `Closed` for trees of admitted nodes.  What a statement does on its line has the
property `part` of the line. -/
structure ClosedOn (admits : Node → Prop) (inner part : Nat → Property)
    (outer : Property) : Prop where
  inside : ∀ line, Sequential (· = line) (inner line)
  around : ∀ line, Sequential (· = line) (part line)
  widen : ∀ {α : Type} {line : Nat} {traced : Traced α},
    inner line α traced → part line α traced
  typeOf : ∀ (line : Nat) {target : Variable},
    admits (.expression (.reference target)) →
    inner line Ty (typeOf line target.name)
  place : ∀ {targets : List Variable} {value : Expr} {line : Nat}
      {target : Variable} {type : Ty},
    admits (.statement (.assign targets value line)) → target ∈ targets →
    type.hasHole = false →
    part line Unit (place line target.name type)
  reserve : ∀ line, inner line Unit reserve
  inFrame : ∀ {α : Type} {traced : Traced α} {arguments : List Variable}
      {returns : List Ty} {returnsOmitted : Bool} {body : List Statement}
      {signature? : Option Signature} {signature : Signature} (line : Nat),
    admits (.expression
      (.function arguments returns returnsOmitted body signature?)) →
    Rule.declared arguments returns = .ok signature → outer α traced →
    inner line α
      (inFrame ((arguments.map Variable.name).zip signature.arguments) traced)
  statement : ∀ {statement : Statement} (inFunction : Bool),
    admits (.statement statement) →
    part statement.line _ (statement.traced inFunction) →
    outer _ (statement.traced inFunction)
  done : ∀ {α : Type} (value : α), outer α (pure value)
  next : ∀ {α β : Type} {traced : Traced α} {next : α → Traced β}, outer α traced →
    (∀ value, outer β (next value)) → outer β (traced >>= next)

variable {lines : Nat → Prop} {admits : Node → Prop}

theorem Sequential.related {property : Property} (h : Sequential lines property) :
    Walker.Sequential lines property.relation where
  done := h.done
  failed := h.failed
  next := h.next
  now hline hnext := hnext _ hline

theorem ClosedOn.related {inner part : Nat → Property} {outer : Property}
    (h : ClosedOn admits inner part outer) :
    Walker.ClosedOn admits (fun line => (inner line).relation)
      (fun line => (part line).relation) outer.relation where
  inside line := (h.inside line).related
  around line := (h.around line).related
  widen := h.widen
  typeOf := h.typeOf
  place := h.place
  reserve := h.reserve
  inFrame := h.inFrame
  statement := h.statement
  done := h.done
  next := h.next

theorem Closed.closedOn {inner outer : Property}
    (h : Closed lines inner outer) :
    ClosedOn (fun node => ∀ line ∈ node.line?, lines line)
      (fun line α traced => lines line → inner α traced)
      (fun line α traced => lines line → outer α traced) outer where
  inside _ :=
    { done := fun value _ => h.inside.done value
      failed := fun hline hfault hlines => h.inside.failed (hline ▸ hlines) hfault
      next := fun hfirst hnext hlines =>
        h.inside.next (hfirst hlines) fun value => hnext value hlines }
  around _ :=
    { done := fun value _ => h.outside.done value
      failed := fun hline hfault hlines => h.outside.failed (hline ▸ hlines) hfault
      next := fun hfirst hnext hlines =>
        h.outside.next (hfirst hlines) fun value => hnext value hlines }
  widen hinner hlines := h.widen (hinner hlines)
  typeOf _ _ _ hlines := h.typeOf _ hlines
  place _ _ _ hlines := h.place _ _ hlines
  reserve _ _ := h.reserve
  inFrame _ _ _ houter _ := h.inFrame _ houter
  statement _ hadmits hpart := hpart (hadmits _ rfl)
  done := h.outside.done
  next := h.outside.next

end Traced

/-! ## Trees of admitted nodes -/

section Nodes

open Traced

variable {admits : Node → Prop} {inner part : Nat → Property} {outer : Property}
  (h : Traced.ClosedOn admits inner part outer)

include h

theorem Statement.part_traced (inFunction : Bool) (statement : Statement)
    (hnodes : (Node.statement statement).All admits) :
    part statement.line _ (statement.traced inFunction) :=
  statement.relatedParts h.related inFunction hnodes

theorem Program.outer_tracedOn (program : Program)
    (hnodes : (Node.program program).All admits) :
    outer _ program.traced := by
  refine h.next
    (Statement.relatedAll h.related false program.statements
      fun statement hstatement => ?_) fun _ => h.done _
  exact (hnodes.child List.mem_cons_self).child (List.mem_map_of_mem hstatement)

end Nodes

/-! ## Trees -/

theorem Node.all_of_lines {lines : Nat → Prop} {node : Node}
    (h : ∀ line ∈ node.lines, lines line) :
    node.All fun other => ∀ line ∈ other.line?, lines line := by
  intro other hother line hline
  cases other with
  | statement content =>
      obtain rfl : content.line = line := by simpa [Node.line?] using hline
      exact h _ hother.line_mem
  | _ => cases hline

section Trees

open Traced

variable {lines : Nat → Prop} {inner outer : Property}
    (h : Traced.Closed lines inner outer) {line : Nat}

include h

theorem Expr.inner_traced (hline : lines line) (bound : Bool) (expression : Expr)
    (hlines : ∀ other ∈ expression.lines, lines other) :
    inner _ (expression.traced line bound) :=
  expression.related h.closedOn.related line bound (Node.all_of_lines hlines) hline

theorem Expr.inner_tracedArguments (hline : lines line) (arguments : List Expr)
    (hlines : ∀ other ∈ Expr.linesAll arguments, lines other) :
    inner _ (Expr.tracedArguments line arguments) := by
  refine Expr.relatedArguments h.closedOn.related line arguments
    (fun argument hargument => ?_) hline
  exact Node.all_of_lines fun other hother =>
    hlines other (Expr.mem_linesAll hargument hother)

theorem Expr.inner_tracedResults (hline : lines line) (expressions : List Expr)
    (hlines : ∀ other ∈ Expr.linesAll expressions, lines other) :
    inner _ (Expr.tracedResults line expressions) := by
  refine Expr.relatedResults h.closedOn.related line expressions
    (fun expression hexpression => ?_) hline
  exact Node.all_of_lines fun other hother =>
    hlines other (Expr.mem_linesAll hexpression hother)

theorem Statement.outer_traced (inFunction : Bool) (statement : Statement)
    (hlines : ∀ other ∈ statement.lines, lines other) :
    outer _ (statement.traced inFunction) := by
  have hnodes := @Node.all_of_lines lines (.statement statement) hlines
  exact statement.relatedParts h.closedOn.related inFunction hnodes
    (hnodes.self _ rfl)

theorem Statement.outer_tracedAll (inFunction : Bool) (statements : List Statement)
    (hlines : ∀ other ∈ Statement.linesAll statements, lines other) :
    outer _ (Statement.tracedAll inFunction statements) := by
  have hnodes := @Node.all_of_lines lines (.block statements) hlines
  exact Statement.relatedAll h.closedOn.related inFunction statements
    fun statement hstatement =>
    hnodes.child (List.mem_map_of_mem hstatement)

theorem Program.outer_traced (program : Program)
    (hlines : ∀ other ∈ program.lines, lines other) :
    outer _ program.traced :=
  program.outer_tracedOn h.closedOn (Node.all_of_lines hlines)

end Trees

end ExprLang
