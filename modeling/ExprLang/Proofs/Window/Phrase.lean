import ExprLang.Proofs.Window.Juxtaposed
import ExprLang.Proofs.Window.TopLevel

/-!
# Phrases

A phrase has the form of an expression: units with operators between them, where the
last operand may be an application or a conditional.  A phrase is nested, and the
scans of a longer window pass over it as a whole: phrases side by side come apart
again as they were, and an `else` after a phrase is not taken by an `if` in it.
-/

namespace ExprLang

open Juxtaposed

inductive Phrase : List Token → Prop
  | unit {tokens : List Token} (h : IsUnit tokens) : Phrase tokens
  | operator {left right : List Token} {sign : Token} {op : Operator}
      (hleft : Phrase left) (hclosed : Closed left)
      (hsign : sign.kind = .operator op) (hright : Phrase right) :
      Phrase (left ++ sign :: right)
  | application {mark : Token} {parts : List (List Token)}
      (hmark : mark.kind = .bang) (hparts : ∀ part ∈ parts, Phrase part) :
      Phrase (mark :: parts.flatten)
  | conditional {word other : Token} {condition thenBranch elseBranch : List Token}
      (hword : word.kind = .ifWord) (hcondition : Phrase condition)
      (hthen : Phrase thenBranch) (hother : other.kind = .elseWord)
      (helse : Phrase elseBranch) :
      Phrase (word :: (condition ++ thenBranch ++ other :: elseBranch))

namespace Phrase

variable {tokens : List Token}

theorem nested (h : Phrase tokens) : Nested (fun _ => True) tokens := by
  induction h with
  | unit h => exact h.nested.mono fun _ _ => trivial
  | operator _ _ hsign _ ihLeft ihRight =>
      exact ihLeft.append (.token (by rw [hsign]; rfl) trivial ihRight)
  | application hmark _ ih =>
      exact .token (by rw [hmark]; rfl) trivial (nested_flatten ih)
  | conditional hword _ _ hother _ ihCondition ihThen ihElse =>
      have hbranches := (ihCondition.append ihThen).append
        (.token (by rw [hother]; rfl) trivial ihElse)
      exact .token (by rw [hword]; rfl) trivial hbranches

theorem exists_head (h : Phrase tokens) :
    ∃ first rest, tokens = first :: rest ∧ first.kind.isOperator = false ∧
      first.kind ≠ .arrow := by
  induction h with
  | unit h =>
      obtain ⟨first, rest, rfl, hpassed, harrow⟩ := h.head
      exact ⟨first, rest, rfl, hpassed.1, harrow⟩
  | @operator left right sign op _ _ _ _ ih =>
      obtain ⟨first, rest, rfl, hfirst⟩ := ih
      exact ⟨first, rest ++ sign :: right, rfl, hfirst⟩
  | application hmark => exact ⟨_, _, rfl, by rw [hmark]; rfl, by simp [hmark]⟩
  | conditional hword => exact ⟨_, _, rfl, by rw [hword]; rfl, by simp [hword]⟩

private theorem follows (h : Phrase tokens) (rest : List Token) :
    Follows (tokens ++ rest) := by
  obtain ⟨first, others, rfl, -, harrow⟩ := h.exists_head
  intro token htoken
  simp only [List.cons_append, List.head?_cons, Option.mem_def,
    Option.some.injEq] at htoken
  exact htoken ▸ harrow

end Phrase

namespace Juxtaposed.IsUnit

variable {unit : List Token}

theorem closed (h : IsUnit unit) : Closed unit :=
  fun token htoken => (h.nested.of_mem_topLevel token htoken).rest

theorem operators_topLevel (h : IsUnit unit) : operators (topLevel unit) = [] := by
  refine List.filterMap_eq_nil_iff.2 fun token htoken => ?_
  have hinside := h.nested.of_mem_topLevel token htoken
  simpa [Kind.isOperator] using hinside.operator

theorem operators_leading (h : IsUnit unit) : operators (leading unit) = [] := by
  have hsublist : (operators (leading unit)).Sublist (operators (topLevel unit)) :=
    (List.takeWhile_sublist _).filterMap _
  rw [h.operators_topLevel] at hsublist
  exact List.sublist_nil.1 hsublist

theorem atOperator?_eq_none (h : IsUnit unit) : Split.atOperator? unit = none := by
  have hnone (tier : Tier) : Split.atTierFrom? tier .zero unit = none := by
    refine Split.atTierFrom?_eq_none ?_
    change ∀ op ∈ operators (leading unit), op.tier ≠ tier
    simp [h.operators_leading]
  simp [Split.atOperator?, hnone]

end Juxtaposed.IsUnit

/-! ## Pieces -/

namespace Juxtaposed

theorem piecesFrom_cons_operator {sign : Token} {op : Operator}
    (h : sign.kind = .operator op) (joined : Bool) (piece rest : List Token) :
    piecesFrom joined piece (sign :: rest) =
      piecesFrom true (piece ++ [sign]) rest := by
  rw [piecesFrom, if_pos (by rw [h]; rfl)]

private theorem piecesFrom_cons_takesRest {token : Token}
    (h : token.kind.takesRest = true) (joined : Bool) (piece rest : List Token) :
    piecesFrom joined piece (token :: rest) =
      if joined then [piece ++ token :: rest] else [piece, token :: rest] := by
  have hoperator : token.kind.isOperator = false := by
    cases hkind :
      token.kind <;> simp_all [Kind.takesRest, Kind.isOperator, Kind.operator?]
  rw [piecesFrom, if_neg (by simp [hoperator]), if_pos h]

theorem piecesFrom_append_phrase {phrase : List Token} (h : Phrase phrase)
    (hclosed : Closed phrase) (joined : Bool) (piece : List Token)
    {rest : List Token} (hrest : Follows rest) :
    piecesFrom joined piece (phrase ++ rest) =
      if joined then piecesFrom false (piece ++ phrase) rest
      else piece :: piecesFrom false phrase rest := by
  induction h generalizing joined piece rest with
  | unit h => exact piecesFrom_append_unit h joined piece hrest
  | @operator left right sign op hleft _ hsign _ ihLeft ihRight =>
      have hparts := (closed_append_iff (hleft.nested.after_eq _)).1 hclosed
      have hright := ((closed_cons_iff (by rw [hsign]; rfl)).1 hparts.2).2
      have hsigned : Follows (sign :: (right ++ rest)) := by
        simp [Follows, hsign]
      have hjoin (before : List Token) :
          piecesFrom false before (sign :: (right ++ rest)) =
            piecesFrom false (before ++ sign :: right) rest := by
        rw [piecesFrom_cons_operator hsign, ihRight hright true _ hrest]
        simp
      rw [List.append_assoc, List.cons_append, ihLeft hparts.1 joined piece hsigned,
        hjoin, hjoin, List.append_assoc]
  | application hmark =>
      have htakes := hclosed.head
      simp [hmark, Kind.takesRest] at htakes
  | conditional hword =>
      have htakes := hclosed.head
      simp [hword, Kind.takesRest] at htakes

theorem piecesFrom_phrase {phrase : List Token} (h : Phrase phrase) (joined : Bool)
    (piece : List Token) :
    piecesFrom joined piece phrase =
      if joined then [piece ++ phrase] else [piece, phrase] := by
  induction h generalizing joined piece with
  | unit h =>
      have hlast :=
        piecesFrom_append_unit h joined piece (show Follows [] by simp [Follows])
      simpa [piecesFrom] using hlast
  | @operator left right sign op hleft hclosed hsign _ _ ih =>
      have hjoin (before : List Token) :
          piecesFrom false before (sign :: right) = [before ++ sign :: right] := by
        rw [piecesFrom_cons_operator hsign, ih true]
        simp
      rw [piecesFrom_append_phrase hleft hclosed joined piece
        (by simp [Follows, hsign]),
        hjoin, hjoin, List.append_assoc]
  | application hmark =>
      exact piecesFrom_cons_takesRest (by rw [hmark]; rfl) joined piece _
  | conditional hword =>
      exact piecesFrom_cons_takesRest (by rw [hword]; rfl) joined piece _

theorem follows_flatten {phrases : List (List Token)}
    (h : ∀ phrase ∈ phrases, Phrase phrase) :
    Follows phrases.flatten := by
  cases phrases with
  | nil => simp [Follows]
  | cons phrase phrases =>
      exact (h phrase List.mem_cons_self).follows phrases.flatten

private theorem piecesFrom_flatten {phrases : List (List Token)}
    (h : ∀ phrase ∈ phrases, Phrase phrase)
    (hclosed : ∀ phrase ∈ phrases.dropLast, Closed phrase) (piece : List Token) :
    piecesFrom false piece phrases.flatten = piece :: phrases := by
  induction phrases generalizing piece with
  | nil => simp [piecesFrom]
  | cons phrase phrases ih =>
      obtain ⟨hfirst, hothers⟩ := List.forall_mem_cons.1 h
      cases phrases with
      | nil => simpa using piecesFrom_phrase hfirst false piece
      | cons other phrases =>
          rw [List.dropLast_cons_cons] at hclosed
          obtain ⟨hopen, hclosed⟩ := List.forall_mem_cons.1 hclosed
          rw [List.flatten_cons,
            piecesFrom_append_phrase hfirst hopen false piece
              (follows_flatten hothers),
            if_neg Bool.false_ne_true, ih hothers hclosed]

/-- Phrases side by side are the pieces of what they make up, if only the last takes
the rest. -/
theorem pieces_flatten {phrases : List (List Token)} (hnonempty : phrases ≠ [])
    (h : ∀ phrase ∈ phrases, Phrase phrase)
    (hclosed : ∀ phrase ∈ phrases.dropLast, Closed phrase) :
    pieces phrases.flatten = phrases := by
  cases phrases with
  | nil => exact absurd rfl hnonempty
  | cons phrase phrases =>
      obtain ⟨hfirst, hothers⟩ := List.forall_mem_cons.1 h
      cases phrases with
      | nil => simpa [pieces] using piecesFrom_phrase hfirst true []
      | cons other phrases =>
          rw [List.dropLast_cons_cons] at hclosed
          obtain ⟨hopen, hclosed⟩ := List.forall_mem_cons.1 hclosed
          rw [pieces, List.flatten_cons,
            piecesFrom_append_phrase hfirst hopen true [] (follows_flatten hothers),
            piecesFrom_flatten hothers hclosed]
          rfl

end Juxtaposed

/-! ## Branches -/

namespace Split

/-- The search for an `else` passes over the window: each `if` in it has its `else`
there. -/
def Settled (tokens : List Token) : Prop :=
  ∀ claimed rest, atElseFrom? .zero claimed (tokens ++ rest) =
    (atElseFrom? .zero claimed rest).map (prepend tokens)

namespace Settled

variable {tokens others : List Token}

private theorem nil : Settled [] := by
  intro claimed rest
  rw [List.nil_append]
  cases atElseFrom? .zero claimed rest <;> rfl

theorem append (h : Settled tokens) (hothers : Settled others) :
    Settled (tokens ++ others) := by
  intro claimed rest
  rw [List.append_assoc, h, hothers, Option.map_map]
  simp [Function.comp_def]

private theorem flatten {windows : List (List Token)}
    (h : ∀ window ∈ windows, Settled window) :
    Settled windows.flatten := by
  induction windows with
  | nil => exact .nil
  | cons window windows ih =>
      obtain ⟨hfirst, hothers⟩ := List.forall_mem_cons.1 h
      exact hfirst.append (ih hothers)

private theorem cons {token : Token} (h : Settled tokens)
    (hbracket : token.kind.isBracket = false)
    (hkind : token.kind ≠ .ifWord ∧ token.kind ≠ .elseWord) :
    Settled (token :: tokens) := by
  intro claimed rest
  rw [List.cons_append, atElseFrom?_cons _ _ _ (.inr (.inr hkind)),
    Depth.zero.step_of_not_bracket hbracket, h, Option.map_map]
  simp [Function.comp_def]

private theorem conditional {word other : Token} (hword : word.kind = .ifWord)
    (hother : other.kind = .elseWord) (h : Settled tokens)
    (hothers : Settled others) :
    Settled (word :: (tokens ++ other :: others)) := by
  intro claimed rest
  have hif (rest : List Token) : atElseFrom? .zero claimed (word :: rest) =
      (atElseFrom? .zero (claimed + 1) rest).map (Split.cons word) := by
    simp only [atElseFrom?, hword]
    rfl
  have helse (rest : List Token) : atElseFrom? .zero (claimed + 1) (other :: rest) =
      (atElseFrom? .zero claimed rest).map (Split.cons other) := by
    simp only [atElseFrom?, hother]
    rfl
  rw [List.cons_append, List.append_assoc, List.cons_append, hif, h, helse, hothers,
    Option.map_map, Option.map_map, Option.map_map]
  simp [Function.comp_def]

end Settled

theorem settled_phrase {phrase : List Token} (h : Phrase phrase) :
    Settled phrase := by
  induction h with
  | unit h =>
      exact fun claimed => atElseFrom?_append_of_nested h.nested claimed
        Depth.natural_zero fun _ _ hinside => ⟨hinside.ifWord, hinside.elseWord⟩
  | operator _ _ hsign _ ihLeft ihRight =>
      exact ihLeft.append (ihRight.cons (by rw [hsign]; rfl) (by simp [hsign]))
  | application hmark _ ih =>
      exact (Settled.flatten ih).cons (by rw [hmark]; rfl) (by simp [hmark])
  | conditional hword _ _ hother _ ihCondition ihThen ihElse =>
      exact .conditional hword hother (ihCondition.append ihThen) ihElse

theorem atElse?_of_settled {left : List Token} {other : Token} (h : Settled left)
    (hother : other.kind = .elseWord) (right : List Token) :
    atElse? (left ++ other :: right) = some ⟨left, other, right⟩ := by
  have hfound : atElseFrom? .zero 0 (other :: right) = some ⟨[], other, right⟩ := by
    simp only [atElseFrom?, hother]
    rfl
  rw [atElse?, h, hfound]
  simp [prepend]

end Split

end ExprLang
