import ExprLang.Window.Comma
import ExprLang.Window.FunctionLiteral
import ExprLang.Window.Split
import ExprLang.Ty.Literal

/-!
# What a cut leaves out

A cut takes a window apart and leaves out the marks it was made at: a pair of
brackets, a comma, an arrow, an operator or an `else`.  Together with these marks
the parts are the window again, in order.
-/

namespace ExprLang

/-! ## Brackets -/

inductive Bracketed (bracket : Bracket) (inner : List Token) : List Token → Prop
  | intro {opener closer : Token} (hopener : opener.kind = .opening bracket)
      (hcloser : closer.kind = .closing bracket) :
      Bracketed bracket inner (opener :: (inner ++ [closer]))

theorem Bracketed.sublist {bracket : Bracket} {inner tokens : List Token}
    (h : Bracketed bracket inner tokens) :
    inner.Sublist tokens := by
  cases h
  exact .cons _ (List.sublist_append_left _ _)

namespace Enclosed

theorem kind_closer_of_until? {opener closer : Kind} {nested : Nat}
    {tokens : List Token} {enclosed : Enclosed}
    (h : until? opener closer nested tokens = some enclosed) :
    enclosed.closer.kind = closer := by
  induction tokens generalizing nested enclosed with
  | nil => simp [until?] at h
  | cons token rest ih =>
      have later {nested : Nat}
          (h :
            (until? opener closer nested rest).map (cons token) = some enclosed) :
          enclosed.closer.kind = closer := by
        obtain ⟨tail, htail, rfl⟩ := Option.map_eq_some_iff.1 h
        change tail.closer.kind = closer
        exact ih htail
      unfold until? at h
      split at h
      · exact later h
      · split at h
        · rename_i hcloser
          cases nested with
          | zero =>
              cases h
              exact hcloser
          | succ nested => exact later h
        · exact later h

theorem exists_of_ofBracket? {bracket : Bracket} {tokens : List Token}
    {enclosed : Enclosed} (h : ofBracket? bracket tokens = some enclosed) :
    ∃ whole, Bracketed bracket enclosed.inner whole ∧ enclosed.closer ∈ whole ∧
      tokens = whole ++ enclosed.rest := by
  obtain ⟨opener, hopener, rfl⟩ := eq_of_ofTokens? h
  have hcloser : enclosed.closer.kind = .closing bracket := by
    simp only [ofBracket?, ofTokens?, List.cons_append, hopener, if_true] at h
    exact kind_closer_of_until? h
  exact ⟨_, .intro hopener hcloser, by simp, by simp⟩

end Enclosed

/-- The tokens of a function literal and what is cut out of them. -/
inductive FunctionLiteral.Spans : List Token → FunctionLiteral → Prop
  | inferred {arguments body source block : List Token} {arrow closer : Token}
      (rest : List Token) (hsource : Bracketed .paren arguments source)
      (harrow : arrow.kind = .arrow) (hblock : Bracketed .brace body block)
      (hcloser : closer ∈ block) :
      Spans (source ++ arrow :: (block ++ rest))
        ⟨arguments, none, body, closer.line, rest⟩
  | declared {arguments returns body source target block : List Token}
      {arrow closer : Token} (rest : List Token)
      (hsource : Bracketed .paren arguments source) (harrow : arrow.kind = .arrow)
      (htarget : Bracketed .paren returns target)
      (hblock : Bracketed .brace body block) (hcloser : closer ∈ block) :
      Spans (source ++ arrow :: (target ++ (block ++ rest)))
        ⟨arguments, some returns, body, closer.line, rest⟩

namespace FunctionLiteral.Spans

variable {tokens : List Token} {literal : FunctionLiteral}

theorem body_sublist (h : literal.Spans tokens) : literal.body.Sublist tokens := by
  cases h with
  | inferred rest _ _ hblock =>
      have hbody := hblock.sublist.trans (List.sublist_append_left _ rest)
      exact (hbody.cons _).trans (List.sublist_append_right _ _)
  | declared rest _ _ _ hblock =>
      have hbody := hblock.sublist.trans (List.sublist_append_left _ rest)
      exact ((hbody.trans (List.sublist_append_right _ _)).cons _).trans
        (List.sublist_append_right _ _)

theorem arguments_sublist (h : literal.Spans tokens) :
    literal.arguments.Sublist tokens := by
  cases h with
  | inferred _ hsource => exact hsource.sublist.trans (List.sublist_append_left _ _)
  | declared _ hsource => exact hsource.sublist.trans (List.sublist_append_left _ _)

theorem returns_sublist (h : literal.Spans tokens) {returns : List Token}
    (hreturns : returns ∈ literal.returns?) :
    returns.Sublist tokens := by
  cases h with
  | inferred => cases hreturns
  | declared _ _ _ htarget =>
      cases hreturns
      exact ((htarget.sublist.trans (List.sublist_append_left _ _)).cons _).trans
        (List.sublist_append_right _ _)

theorem lastLine_mem (h : literal.Spans tokens) :
    literal.lastLine ∈ tokens.map Token.line := by
  cases h with
  | inferred _ _ _ _ hcloser => exact List.mem_map_of_mem (by simp [hcloser])
  | declared _ _ _ _ _ hcloser => exact List.mem_map_of_mem (by simp [hcloser])

end FunctionLiteral.Spans

theorem FunctionLiteral.spans_of_ofTokens? {tokens : List Token}
    {literal : FunctionLiteral} (h : ofTokens? tokens = some literal) :
    Spans tokens literal := by
  unfold ofTokens? at h
  obtain ⟨arguments, harguments, h⟩ := Option.bind_eq_some_iff.1 h
  obtain ⟨source, hsource, -, htokens⟩ := Enclosed.exists_of_ofBracket? harguments
  split at h
  · cases h
  · rename_i arrow afterArrow hrest
    rw [htokens, hrest]
    split at h
    · cases h
    · rename_i harrow
      have harrow : arrow.kind = .arrow := by simpa using harrow
      split at h
      · rename_i returns hreturns
        obtain ⟨body, hbody, h⟩ := Option.bind_eq_some_iff.1 h
        obtain ⟨target, htarget, -, hafter⟩ :=
          Enclosed.exists_of_ofBracket? hreturns
        obtain ⟨block, hblock, hcloser, hblockAfter⟩ :=
          Enclosed.exists_of_ofBracket? hbody
        cases h
        rw [hafter, hblockAfter]
        exact .declared body.rest hsource harrow htarget hblock hcloser
      · obtain ⟨body, hbody, h⟩ := Option.bind_eq_some_iff.1 h
        obtain ⟨block, hblock, hcloser, hafter⟩ :=
          Enclosed.exists_of_ofBracket? hbody
        cases h
        rw [hafter]
        exact .inferred body.rest hsource harrow hblock hcloser

theorem FunctionTypeCut.exists_of_ofTokens? {tokens : List Token}
    {cut : FunctionTypeCut} (h : ofTokens? tokens = some cut) :
    ∃ source arrow target,
      Bracketed .paren cut.arguments source ∧ arrow.kind = .arrow ∧
      Bracketed .paren cut.returns target ∧
      tokens = source ++ arrow :: target ++ cut.rest := by
  unfold ofTokens? at h
  obtain ⟨arguments, harguments, h⟩ := Option.bind_eq_some_iff.1 h
  obtain ⟨source, hsource, -, htokens⟩ := Enclosed.exists_of_ofBracket? harguments
  split at h
  · cases h
  · rename_i arrow afterArrow hrest
    split at h
    · cases h
    · rename_i harrow
      obtain ⟨returns, hreturns, h⟩ := Option.bind_eq_some_iff.1 h
      obtain ⟨target, htarget, -, hafter⟩ := Enclosed.exists_of_ofBracket? hreturns
      cases h
      exact ⟨source, arrow, target, hsource, by simpa using harrow, htarget,
        by simp [htokens, hrest, hafter]⟩

/-! ## Commas -/

namespace Comma

/-- Pieces with a comma between each two of them. -/
inductive Joins : List Token → List (List Token) → Prop
  | last (piece : List Token) : Joins piece [piece]
  | cons {comma : Token} {rest : List Token} {pieces : List (List Token)}
      (piece : List Token) (hcomma : comma.kind = .comma) (h : Joins rest pieces) :
      Joins (piece ++ comma :: rest) (piece :: pieces)

private theorem Joins.consHead {tokens : List Token} {pieces : List (List Token)}
    (h : Joins tokens pieces) (token : Token) :
    Joins (token :: tokens) (consHead token pieces) := by
  cases h with
  | last => exact .last (token :: tokens)
  | cons piece hcomma h => exact .cons (token :: piece) hcomma h

private theorem joins_piecesFrom (depth : Depth) (tokens : List Token) :
    Joins tokens (piecesFrom depth tokens) := by
  induction tokens generalizing depth with
  | nil => exact .last []
  | cons token rest ih =>
      simp only [piecesFrom]
      split
      · rename_i h
        exact .cons [] h.1 (ih _)
      · exact (ih _).consHead token

theorem joins_pieces (tokens : List Token) : Joins tokens (pieces tokens) :=
  joins_piecesFrom .zero tokens

theorem Joins.sublist {tokens piece : List Token} {pieces : List (List Token)}
    (h : Joins tokens pieces) (hpiece : piece ∈ pieces) :
    piece.Sublist tokens := by
  induction h with
  | last only =>
      obtain rfl := List.mem_singleton.1 hpiece
      exact .refl _
  | cons first _ _ ih =>
      rcases List.mem_cons.1 hpiece with rfl | hpiece
      · exact List.sublist_append_left _ _
      · exact ((ih hpiece).cons _).trans (List.sublist_append_right _ _)

theorem sublist_of_mem_items {tokens piece : List Token}
    (h : piece ∈ items tokens) :
    piece.Sublist tokens := by
  unfold items at h
  split at h
  · cases h
  · exact (joins_pieces tokens).sublist h

end Comma

/-! ## Operators and branches -/

namespace Split

theorem kind_of_atElseFrom? {depth : Depth} {claimed : Nat} {tokens : List Token}
    {split : Split} (h : atElseFrom? depth claimed tokens = some split) :
    split.token.kind = .elseWord := by
  induction tokens generalizing depth claimed split with
  | nil => simp [atElseFrom?] at h
  | cons token rest ih =>
      have later {claimed : Nat}
          (h : (atElseFrom? (depth.step token.kind) claimed rest).map (cons token) =
            some split) : split.token.kind = .elseWord := by
        obtain ⟨tail, htail, rfl⟩ := Option.map_eq_some_iff.1 h
        change tail.token.kind = .elseWord
        exact ih htail
      simp only [atElseFrom?] at h
      split at h
      · exact later h
      · split at h
        · exact later h
        · cases h
          assumption
        · exact later h
        · exact later h

end Split

end ExprLang
