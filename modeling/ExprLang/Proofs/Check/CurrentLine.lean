import ExprLang.Proofs.Check.Located

/-!
# The current line

The checker is handed the line of the statement that it is at.  Here the line is
kept in a register instead, next to the symbol table: a statement overwrites it, and
it is given its old value back only when all statements of a body have been checked.
Some rules report the register, others a copy of it from before their parts were
checked, others the line of the statement.  All the same the outcome is that of the
checker, because whatever is checked successfully leaves the register as it was.
-/

namespace ExprLang

/-- A symbol table, and the line of the statement that is being checked. -/
structure Position where
  table : SymbolTable
  line : Nat

abbrev Tracker := ExceptT TypeError (StateM Position)

namespace Tracker

variable {α β : Type}

/-! ## Operations -/

def currentLine : Tracker Nat := return (← get).line

def moveTo (line : Nat) : Tracker Unit :=
  modify fun position => { position with line }

def onTable (checker : Checker α) : Tracker α := fun position =>
  let (outcome, after) := checker position.table
  (outcome, { position with table := after })

def inFrame (arguments : List (String × Ty)) (tracker : Tracker α) : Tracker α :=
  fun position =>
  let (outcome, after) :=
    tracker { position with table := position.table.enter arguments }
  (outcome, { after with table := after.table.leave })

def restoring (tracker : Tracker α) : Tracker α := do
  let outer ← currentLine
  let result ← tracker
  moveTo outer
  return result

/-- The line that the walk hands down is not used. -/
instance : Walker Tracker where
  fail line fault := onTable (Checker.fail line fault)
  typeOf line name := onTable (Checker.typeOf line name)
  place line name type := onTable (Checker.place line name type)
  reserve := onTable Checker.reserve
  inFrame := inFrame
  now _ := currentLine
  onLine line tracker := do moveTo line; tracker
  block := restoring

instance : LawfulWalker Tracker := ⟨fun _ _ => rfl, fun _ _ _ => rfl⟩

end Tracker

open Tracker

def Expr.track (bound : Bool) (expression : Expr) : Tracker (Expr × List Ty) := do
  expression.walk (← currentLine) bound

abbrev Program.track (program : Program) : Tracker Program := program.walk

/-! ## Following a checker -/

namespace Tracker

variable {α β : Type} {line start middle finish : Nat}

def runOn (tracker : Tracker α) (position : Position) :
    Except TypeError α × Position :=
  tracker position

theorem runOn_bind (tracker : Tracker α) (next : α → Tracker β)
    (position : Position) :
    (tracker >>= next).runOn position =
      match tracker.runOn position with
      | (.ok value, middle) => (next value).runOn middle
      | (.error error, middle) => (.error error, middle) := by
  simp only [runOn, Bind.bind, ExceptT.bind, ExceptT.mk, StateT.bind]
  cases tracker position with
  | mk outcome middle => cases outcome <;> rfl

def lineAfter (finish : Nat) : Except TypeError α → Nat
  | .ok _ => finish
  | .error error => error.line

/-- From the line `start` on the tracker does what the checker does, and leaves the
line `finish` if there is no error. -/
def Follows (start finish : Nat) (tracker : Tracker α) (checker : Checker α) :
    Prop :=
  ∀ table, tracker.runOn ⟨table, start⟩ =
    ((checker.runOn table).1,
      ⟨(checker.runOn table).2, lineAfter finish (checker.runOn table).1⟩)

def Wanders (tracker : Tracker α) (checker : Checker α) : Prop :=
  ∀ start table, ∃ finish, tracker.runOn ⟨table, start⟩ =
    ((checker.runOn table).1,
      ⟨(checker.runOn table).2, lineAfter finish (checker.runOn table).1⟩)

private theorem Follows.bind {tracker : Tracker α} {checker : Checker α}
    {next : α → Tracker β} {after : α → Checker β}
    (h : Follows start middle tracker checker)
    (hnext : ∀ value, Follows middle finish (next value) (after value)) :
    Follows start finish (tracker >>= next) (checker >>= after) := by
  intro table
  rw [runOn_bind, h table, Checker.runOn_bind]
  cases checker.runOn table with
  | mk outcome state =>
      cases outcome with
      | error error => rfl
      | ok value => exact hnext value state

private theorem Wanders.bind {tracker : Tracker α} {checker : Checker α}
    {next : α → Tracker β} {after : α → Checker β} (h : Wanders tracker checker)
    (hnext : ∀ value, Wanders (next value) (after value)) :
    Wanders (tracker >>= next) (checker >>= after) := by
  intro start table
  obtain ⟨middle, hmiddle⟩ := h start table
  rw [runOn_bind, hmiddle, Checker.runOn_bind]
  cases checker.runOn table with
  | mk outcome state =>
      cases outcome with
      | error error => exact ⟨middle, rfl⟩
      | ok value => exact hnext value middle state

def Blaming (line : Nat) (checker : Checker α) : Prop :=
  checker.Has (Effect.blaming (· = line))

theorem follows_onTable {checker : Checker α} (h : Blaming line checker) :
    Follows line line (onTable checker) checker := by
  intro table
  have hblames := h table
  change ((checker.runOn table).1, (⟨(checker.runOn table).2, line⟩ : Position)) = _
  cases hrun : checker.runOn table with
  | mk outcome after =>
      cases outcome with
      | ok value => rfl
      | error error =>
          rw [hrun] at hblames
          have hline : error.line = line := hblames error rfl
          rw [lineAfter, hline]

theorem Wanders.restoring {tracker : Tracker α} {checker : Checker α}
    (h : Wanders tracker checker) (line : Nat) :
    Follows line line (restoring tracker) checker := by
  intro table
  obtain ⟨finish, hfinish⟩ := h line table
  change (tracker >>= fun result => moveTo line >>= fun _ => pure result).runOn
      ⟨table, line⟩ = _
  rw [runOn_bind, hfinish]
  cases checker.runOn table with
  | mk outcome after => cases outcome <;> rfl

private theorem Follows.inFrame {tracker : Tracker α} {checker : Checker α}
    (h : Follows start finish tracker checker) (arguments : List (String × Ty)) :
    Follows start finish (inFrame arguments tracker)
      (Checker.inFrame arguments checker) := by
  intro table
  change (let (outcome, after) := tracker.runOn ⟨table.enter arguments, start⟩
    (outcome, { after with table := after.table.leave })) = _
  rw [h, Checker.runOn_inFrame]

def following (line : Nat) : Walker.Relation Tracker Checker :=
  fun _ _ => Follows line line

theorem sequential_following (line : Nat) :
    Walker.Sequential (· = line) (following line) where
  done _ _ := rfl
  failed hline _ := hline ▸
    follows_onTable (Checker.has_fail (Effect.sequential_blaming (· = _)) rfl _)
  next := Follows.bind
  now hline hnext := hline ▸ hnext _ rfl

theorem closedOn_following :
    Walker.ClosedOn (fun _ => True) following following fun _ _ => Wanders where
  inside := sequential_following
  around := sequential_following
  widen h := h
  typeOf line _ _ := follows_onTable
    (Checker.has_typeOf (Effect.sequential_blaming (· = line)) rfl _)
  place _ _ _ := follows_onTable
    (Checker.has_place (Effect.closed_blaming (· = _)) rfl _ _)
  reserve line := follows_onTable (Effect.closed_blaming (· = line)).reserve
  inFrame line _ _ h := (h.restoring line).inFrame _
  statement _ _ h := fun _ table => ⟨_, h table⟩
  done _ start _ := ⟨start, rfl⟩
  next := Wanders.bind

end Tracker

theorem Expr.follows_track (line : Nat) (bound : Bool) (expression : Expr) :
    Follows line line (expression.track bound) (expression.check line bound) :=
  expression.related closedOn_following line bound fun _ _ => trivial

theorem Program.follows_track (line : Nat) (program : Program) :
    Follows line line program.track program.check := by
  have hstatements := Statement.relatedAll closedOn_following false
    program.statements fun _ _ _ _ => trivial
  exact program.related (sequential_following line) (hstatements.restoring line)

/-! ## Keeping the line -/

namespace Tracker

variable {α β : Type}

def Keeps (tracker : Tracker α) : Prop :=
  ∀ position value after,
    tracker.runOn position = (.ok value, after) → after.line = position.line

private theorem Follows.keeps {tracker : Tracker α} {checker : Nat → Checker α}
    (h : ∀ line, Follows line line tracker (checker line)) : tracker.Keeps := by
  rintro ⟨table, line⟩ value after hrun
  rw [h line table] at hrun
  obtain ⟨houtcome, rfl⟩ := Prod.mk.inj hrun
  rw [houtcome]
  rfl

theorem keeps_onTable (checker : Checker α) : (onTable checker).Keeps := by
  intro position value after hrun
  rw [← (Prod.mk.inj hrun).2]

private theorem Keeps.bind {tracker : Tracker α} {next : α → Tracker β}
    (h : tracker.Keeps) (hnext : ∀ value, (next value).Keeps) :
    (tracker >>= next).Keeps := by
  intro position value after hrun
  rw [runOn_bind] at hrun
  cases hfirst : tracker.runOn position with
  | mk outcome middle =>
      rw [hfirst] at hrun
      cases outcome with
      | error error => cases hrun
      | ok found =>
          exact (hnext found middle value after hrun).trans
            (h position found middle hfirst)

def keeping : Walker.Relation Tracker Tracker := fun _ _ tracker _ => tracker.Keeps

private theorem sequential_keeping : Walker.Sequential (fun _ => True) keeping where
  done := by
    rintro α value position _ _ ⟨⟩
    rfl
  failed _ _ := keeps_onTable _
  next := Keeps.bind
  now _ hnext := fun position => hnext position.line trivial position

end Tracker

theorem Expr.keeps_track (bound : Bool) (expression : Expr) :
    (expression.track bound).Keeps :=
  Follows.keeps fun line => expression.follows_track line bound

theorem Expr.keeps_assignment (targets : List Variable) (value : Expr)
    (line : Nat) :
    (Walker.assignment targets value line fun bound => value.track bound).Keeps := by
  have hkeeping : keeping 0 _
      (Walker.assignment targets value line fun bound => value.track bound)
      (Walker.assignment targets value line fun bound => value.track bound) :=
    sequential_keeping.assignment trivial value (fun _ _ _ _ _ _ => keeps_onTable _)
      (value.keeps_track _)
  exact hkeeping

end ExprLang
