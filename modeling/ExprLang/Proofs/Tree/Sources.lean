import ExprLang.Proofs.Token.Lockstep
import ExprLang.Proofs.Tree.Appended

/-!
# Statements read from a source

A loop that takes its tokens one at a time from a source, returns the end token when
a line ends with it, and parses the expressions of a statement before it asks for
the next one.  Every turn takes at least one token.  The loop reads the drafts that
the tokens of the source are cut into when they are all there.
-/

namespace ExprLang.PushBack

open TokenStream

variable {σ α β : Type} [TokenStream σ]

/-! ## Tokens of a source -/

section Tokens

variable {source : PushBack σ}

theorem tokens_of_eof (h : source.next.1.kind = .eof) :
    tokens source = [] ∧ endLine source = source.next.1.line := by
  have hcollect : collect source = ([], source.next.1.line) := collect_of_eof h
  simp [tokens, endLine, hcollect]

theorem tokens_of_ne_eof (h : source.next.1.kind ≠ .eof) :
    tokens source = source.next.1 :: tokens source.next.2 ∧
      endLine source = endLine source.next.2 := by
  have hcollect : collect source =
      (source.next.1 :: tokens source.next.2, endLine source.next.2) :=
    collect_of_ne_eof h
  rw [tokens, endLine, hcollect]
  exact ⟨rfl, rfl⟩

theorem next_of_tokens_nil (h : tokens source = []) :
    source.next.1.kind = .eof ∧ endLine source = source.next.1.line := by
  by_cases hend : source.next.1.kind = .eof
  · exact ⟨hend, (tokens_of_eof hend).2⟩
  · rw [(tokens_of_ne_eof hend).1] at h
    cases h

theorem next_of_tokens_cons {token : Token} {rest : List Token}
    (h : tokens source = token :: rest) :
    source.next.1.kind ≠ .eof ∧ source.next.1 = token ∧
      tokens source.next.2 = rest ∧
      endLine source.next.2 = endLine source := by
  by_cases hend : source.next.1.kind = .eof
  · rw [(tokens_of_eof hend).1] at h
    cases h
  · obtain ⟨htokens, hline⟩ := tokens_of_ne_eof hend
    obtain ⟨hfirst, hrest⟩ := List.cons.inj (htokens.symm.trans h)
    exact ⟨hend, hfirst, hrest, hline.symm⟩

theorem length_tokens_next (h : source.next.1.kind ≠ .eof) :
    (tokens source.next.2).length < (tokens source).length := by
  rw [(tokens_of_ne_eof h).1, List.length_cons]
  omega

private theorem tokens_push_end (h : source.next.1.kind = .eof) :
    tokens (source.next.2.push [source.next.1]) = [] ∧
      endLine (source.next.2.push [source.next.1]) = endLine source := by
  have hpushed : tokens (source.next.2.push [source.next.1]) = [] ∧
      endLine (source.next.2.push [source.next.1]) = source.next.1.line :=
    tokens_of_eof h
  exact ⟨hpushed.1, hpushed.2.trans (tokens_of_eof h).2.symm⟩

end Tokens

/-! ## Reading -/

def leftSide (source : PushBack σ) : Except ParseError (List Token × PushBack σ) :=
  let token := source.next.1
  if _h : token.kind = .eof then
    .error (.unexpected token.line token.describe .assignment)
  else if token.kind = .illegal then .error
    (.illegalCharacter token.line token.text)
  else if token.kind = .assign then .ok ([], source.next.2)
  else if token.kind = .newline then .error
    (.unexpected token.line token.describe .assignment)
  else source.next.2.leftSide.map fun sides => (token :: sides.1, sides.2)
termination_by (tokens source).length
decreasing_by exact length_tokens_next ‹_›

def logicalLine (braces : Nat) (source : PushBack σ) :
    Except ParseError (List Token × PushBack σ) :=
  let token := source.next.1
  if _h : token.kind = .eof then
    if braces = 0 then .ok ([], source.next.2.push [token])
    else .error (.unexpected token.line "end of file" .functionEnd)
  else
    let continued (braces : Nat) :=
      (source.next.2.logicalLine braces).map fun sides =>
        (token :: sides.1, sides.2)
    if token.kind = .illegal then .error (.illegalCharacter token.line token.text)
    else if token.kind = .newline then
      if braces = 0 then .ok ([], source.next.2) else continued braces
    else if token.kind = .opening .brace then continued (braces + 1)
    else if token.kind = .closing .brace then
      if braces = 0 then .error (.ofToken token) else continued (braces - 1)
    else continued braces
termination_by (tokens source).length
decreasing_by exact length_tokens_next ‹_›

def draft (first : Token) (source : PushBack σ) :
    Except ParseError (Draft × PushBack σ) :=
  match first.kind with
  | .identifier => do
      let (left, right) ← source.leftSide
      let targets ← VariableList.read (first :: left)
      let (value, after) ← right.logicalLine 0
      return (.assign targets ⟨value, first.line⟩ first.line, after)
  | .returnWord => do
      let (values, after) ← source.logicalLine 0
      return (.result ((Comma.items values).map (⟨·, first.line⟩)) first.line,
          after)
  | .illegal => .error (.illegalCharacter first.line first.text)
  | _ => .error (.unexpected first.line first.describe .statement)

/-! ## The same from a list -/

/-- What is read from a list of tokens and from a source of these tokens: the same,
and the same tokens are left. -/
inductive Mirrors (line : Nat) :
    Except ParseError (α × List Token) → Except ParseError (α × PushBack σ) → Prop
  | error (fault : ParseError) : Mirrors line (.error fault) (.error fault)
  | ok (value : α) {after : PushBack σ} (h : endLine after = line) :
      Mirrors line (.ok (value, tokens after)) (.ok (value, after))

theorem Mirrors.map {line : Nat} {listed : Except ParseError (α × List Token)}
    {streamed : Except ParseError (α × PushBack σ)}
    (h : Mirrors line listed streamed) (change : α → β) :
    Mirrors line (listed.map fun found => (change found.1, found.2))
      (streamed.map fun found => (change found.1, found.2)) := by
  cases h with
  | error fault => exact .error fault
  | ok value h => exact .ok (change value) h

private theorem Mirrors.bind {line : Nat}
    {listed : Except ParseError (α × List Token)}
    {streamed : Except ParseError (α × PushBack σ)}
    (h : Mirrors line listed streamed)
    {nextListed : α × List Token → Except ParseError (β × List Token)}
    {nextStreamed : α × PushBack σ → Except ParseError (β × PushBack σ)}
    (hnext : ∀ value after, endLine after = line →
      Mirrors line (nextListed (value, tokens after))
        (nextStreamed (value, after))) :
    Mirrors line (listed >>= nextListed) (streamed >>= nextStreamed) := by
  cases h with
  | error fault => exact .error fault
  | ok value h => exact hnext value _ h

theorem Mirrors.ite {line : Nat} {condition : Prop} [Decidable condition]
    {listed otherListed : Except ParseError (α × List Token)}
    {streamed otherStreamed : Except ParseError (α × PushBack σ)}
    (h : condition → Mirrors line listed streamed)
    (hother : ¬ condition → Mirrors line otherListed otherStreamed) :
    Mirrors line (if condition then listed else otherListed)
      (if condition then streamed else otherStreamed) := by
  by_cases hcondition : condition
  · rw [if_pos hcondition, if_pos hcondition]
    exact h hcondition
  · rw [if_neg hcondition, if_neg hcondition]
    exact hother hcondition

private theorem leftSide_mirrors (source : PushBack σ) :
    Mirrors (endLine source) (Draft.leftSide (endLine source) (tokens source))
      source.leftSide := by
  generalize htokens : tokens source = listed
  induction listed generalizing source with
  | nil =>
      obtain ⟨hend, hline⟩ := next_of_tokens_nil htokens
      have hdescribe : source.next.1.describe = "end of file" := by
        rw [Token.describe, hend]
      rw [leftSide, dif_pos hend, hdescribe, Draft.leftSide, hline]
      exact .error _
  | cons token rest ih =>
      obtain ⟨hend, rfl, hrest, hline⟩ := next_of_tokens_cons htokens
      have hlater := ih source.next.2 hrest
      rw [leftSide, dif_neg hend, Draft.leftSide]
      rw [hline] at hlater
      refine .ite (fun _ => .error _) fun _ =>
        .ite (fun _ => ?_) fun _ => .ite (fun _ => .error _) fun _ => ?_
      · exact hrest ▸ .ok [] hline
      · exact hlater.map (source.next.1 :: ·)

private theorem logicalLine_mirrors (braces : Nat) (source : PushBack σ) :
    Mirrors (endLine source)
      (Draft.logicalLine (endLine source) braces (tokens source))
      (source.logicalLine braces) := by
  generalize htokens : tokens source = listed
  induction listed generalizing braces source with
  | nil =>
      obtain ⟨hend, hline⟩ := next_of_tokens_nil htokens
      rw [logicalLine, dif_pos hend]
      cases braces with
      | zero =>
          obtain ⟨hnone, hagain⟩ := tokens_push_end hend
          have hreturned := Mirrors.ok ([] : List Token) hagain
          rw [hnone] at hreturned
          rw [if_pos rfl, Draft.logicalLine]
          exact hreturned
      | succ braces =>
          rw [Draft.logicalLine, hline]
          exact .error _
  | cons token rest ih =>
      obtain ⟨hend, rfl, hrest, hline⟩ := next_of_tokens_cons htokens
      have continued (braces : Nat) :=
        (ih braces source.next.2 hrest).map (source.next.1 :: ·)
      rw [hline] at continued
      rw [logicalLine, dif_neg hend, Draft.logicalLine]
      refine .ite (fun _ => .error _) fun _ =>
        .ite (fun _ => .ite (fun _ => ?_) fun _ => continued braces) fun _ =>
        .ite (fun _ => continued (braces + 1)) fun _ =>
          .ite (fun _ => .ite (fun _ => .error _) fun _ => continued (braces - 1))
            fun _ => continued braces
      exact hrest ▸ .ok [] hline

private theorem draft_mirrors (first : Token) (source : PushBack σ) :
    Mirrors (endLine source) (Draft.read (endLine source) first (tokens source))
      (source.draft first) := by
  unfold Draft.read draft
  cases first.kind with
  | identifier =>
      refine (leftSide_mirrors source).bind fun left right hright => ?_
      dsimp only
      cases VariableList.read (first :: left) with
      | error fault => exact .error fault
      | ok targets =>
          have hline := logicalLine_mirrors 0 right
          rw [hright] at hline
          exact hline.bind fun value after hafter => .ok _ hafter
  | returnWord =>
      exact (logicalLine_mirrors 0 source).bind fun values after hafter =>
        .ok _ hafter
  | illegal => exact .error _
  | _ => exact .error _

/-! ## Turns -/

inductive Turn (σ : Type) where
  | finished
  | blank (after : PushBack σ)
  | statement (statement : Statement) (after : PushBack σ)

def Turn.after? : Turn σ → Option (PushBack σ)
  | .finished => none
  | .blank after | .statement _ after => some after

variable (parse : Window → Except ParseError Expr)

/-- One turn of the loop: the end, an empty line or a statement. -/
def turn (source : PushBack σ) : Except ParseError (Turn σ) :=
  if source.next.1.kind = .eof then .ok .finished
  else if source.next.1.kind = .newline then .ok (.blank source.next.2)
  else do
    let (draft, after) ← source.next.2.draft source.next.1
    let statement ← draft.build fun window _ => parse window
    return .statement statement after

/-- The loop with a bound on its turns.  What is `stuck` after so many turns is left
to another reader. -/
def statementsWithin (stuck : PushBack σ → Except ParseError (List Statement)) :
    Nat → PushBack σ → Except ParseError (List Statement)
  | 0, source => stuck source
  | turns + 1, source => do
      match ← source.turn parse with
      | .finished => return []
      | .blank after => statementsWithin stuck turns after
      | .statement statement after =>
          let statements ← statementsWithin stuck turns after
          return statement :: statements

inductive Advances (source : PushBack σ) :
    Except ParseError (Turn σ) → Drafts → Prop
  | finished : Advances source (.ok .finished) ⟨[], none⟩
  | blank {after : PushBack σ}
      (h : (tokens after).length < (tokens source).length) :
      Advances source (.ok (.blank after)) (Drafts.ofStream after)
  | failed (fault : ParseError) : Advances source (.error fault) ⟨[], some fault⟩
  | statement (draft : Draft) {after : PushBack σ}
      (h : (tokens after).length < (tokens source).length) :
      Advances source
        ((draft.build fun window _ => parse window).map (.statement · after))
        ⟨draft :: (Drafts.ofStream after).statements,
          (Drafts.ofStream after).failure?⟩

theorem turn_advances (source : PushBack σ) :
    Advances parse source (source.turn parse) (Drafts.ofStream source) := by
  rw [turn, Drafts.ofStream]
  by_cases hend : source.next.1.kind = .eof
  · rw [if_pos hend, (tokens_of_eof hend).1, Drafts.ofTokens]
    exact .finished
  · obtain ⟨htokens, hline⟩ := tokens_of_ne_eof hend
    have hshorter := length_tokens_next hend
    rw [if_neg hend, htokens, hline]
    by_cases hnewline : source.next.1.kind = .newline
    · rw [if_pos hnewline, Drafts.ofTokens, if_pos hnewline]
      exact .blank hshorter
    · rw [if_neg hnewline]
      have hmirrors := draft_mirrors source.next.1 source.next.2
      generalize hread :
        Draft.read (endLine source.next.2) source.next.1 (tokens source.next.2) =
          listed at hmirrors
      generalize source.next.2.draft source.next.1 = streamed at hmirrors
      cases hmirrors with
      | error fault =>
          rw [Drafts.ofTokens_of_error hnewline hread]
          exact .failed fault
      | @ok draft after hafter =>
          have hrest := (Draft.length_of_read hread).1
          rw [Drafts.ofTokens_cons hnewline hread, ← hafter]
          exact .statement draft (Nat.lt_of_le_of_lt hrest hshorter)

variable {parse}

theorem length_tokens_of_turn {source after : PushBack σ} {found : Turn σ}
    (h : source.turn parse = .ok found) (hafter : found.after? = some after) :
    (tokens after).length < (tokens source).length := by
  have hadvances := turn_advances parse source
  generalize source.turn parse = outcome at h hadvances
  generalize Drafts.ofStream source = drafts at hadvances
  cases hadvances with
  | finished =>
      cases h
      cases hafter
  | blank hshorter =>
      cases h
      cases hafter
      exact hshorter
  | failed fault => cases h
  | statement draft hshorter =>
      obtain ⟨statement, -, rfl⟩ := Outcome.map_eq_ok_iff.1 h
      cases hafter
      exact hshorter

private theorem build_cons (draft : Draft) (later : Drafts) :
    Drafts.build ⟨draft :: later.statements, later.failure?⟩
        (fun window _ => parse window) = (do
      let statement ← draft.build fun window _ => parse window
      let statements ← later.build fun window _ => parse window
      return statement :: statements) := by
  cases hdraft : draft.build fun window _ => parse window with
  | error fault =>
      simp only [Drafts.build, Draft.buildAll, hdraft]
      rfl
  | ok statement =>
      have hone : Draft.buildAll [draft] (fun window _ => parse window) =
          .ok [statement] := by
        simp only [Draft.buildAll, hdraft]
        rfl
      exact Drafts.build_append hone later

/-- With a turn for each token and one for the end, the loop builds the drafts of
the tokens. -/
theorem statementsWithin_eq
    (stuck : PushBack σ → Except ParseError (List Statement)) {turns : Nat}
    {source : PushBack σ} (h : (tokens source).length < turns) :
    statementsWithin parse stuck turns source =
      (Drafts.ofStream source).build fun window _ => parse window := by
  induction turns generalizing source with
  | zero => omega
  | succ turns ih =>
      rw [statementsWithin]
      have hadvances := turn_advances parse source
      generalize source.turn parse = outcome at hadvances
      generalize Drafts.ofStream source = drafts at hadvances
      cases hadvances with
      | finished => rfl
      | blank hshorter =>
          rw [← ih (by omega)]
          rfl
      | failed fault => rfl
      | statement draft hshorter =>
          rw [build_cons, ← ih (by omega)]
          cases draft.build fun window _ => parse window <;> rfl

end ExprLang.PushBack
