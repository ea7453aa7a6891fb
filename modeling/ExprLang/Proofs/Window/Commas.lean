import ExprLang.Proofs.Window.Cut
import ExprLang.Proofs.Window.TopLevel

/-!
# Commas

Cutting a window at its commas and joining windows by commas undo each other.  Put
together with its own commas, the pieces of a window are the window again, whatever
its brackets do; windows that are nested and have no comma at top level are the
pieces of what they are joined to.  Hence the pieces of a nested window are the
largest of its parts that have no comma at top level.
-/

namespace ExprLang.Comma

variable {tokens others window first last : List Token}
    {windows earlier later : List (List Token)} {comma : Token}

/-! ## The commas of a window -/

/-- The commas outside all brackets, in a scan that begins at `depth`. -/
def commasFrom (depth : Depth) (tokens : List Token) : List Token :=
  (topFrom depth tokens).filter (·.kind = .comma)

def commas (tokens : List Token) : List Token := commasFrom .zero tokens

section Steps

variable {depth : Depth} {token : Token} (rest : List Token)

theorem commasFrom_cons_of_cut
    (h : token.kind = .comma ∧ (depth.step token.kind).atTop) :
    commasFrom depth (token :: rest) =
      token :: commasFrom (depth.step token.kind) rest := by
  have hbracket : token.kind.isBracket = false := by rw [h.1]; rfl
  rw [commasFrom, topFrom, if_neg (by simp [hbracket, h.2]),
    List.filter_cons_of_pos (by simp [h.1])]
  rfl

theorem commasFrom_cons_of_not_cut
    (h : ¬ (token.kind = .comma ∧ (depth.step token.kind).atTop)) :
    commasFrom depth (token :: rest) = commasFrom (depth.step token.kind) rest := by
  simp only [commasFrom, topFrom]
  split
  · rfl
  · rename_i htop
    simp only [Bool.or_eq_true, Bool.not_eq_true', not_or,
      Bool.not_eq_false] at htop
    rw [List.filter_cons_of_neg (by simpa using fun hcomma => h ⟨hcomma, htop.2⟩)]

end Steps

private theorem length_consHead (token : Token) {pieces : List (List Token)}
    (h : pieces ≠ []) :
    (consHead token pieces).length = pieces.length := by
  cases pieces with
  | nil => exact absurd rfl h
  | cons piece pieces => rfl

theorem length_piecesFrom (depth : Depth) (tokens : List Token) :
    (piecesFrom depth tokens).length = (commasFrom depth tokens).length + 1 := by
  induction tokens generalizing depth with
  | nil => rfl
  | cons token rest ih =>
      have hrest := ih (depth.step token.kind)
      simp only [piecesFrom]
      split
      · rename_i hcut
        rw [commasFrom_cons_of_cut rest hcut, List.length_cons, List.length_cons,
          hrest]
      · rename_i hcut
        rw [commasFrom_cons_of_not_cut rest hcut,
          length_consHead token (piecesFrom_ne_nil _ _), hrest]

theorem length_pieces (tokens : List Token) :
    (pieces tokens).length = (topLevel tokens).countP (·.kind = .comma) + 1 := by
  rw [List.countP_eq_length_filter]
  exact length_piecesFrom .zero tokens

/-! ## Joined windows -/

def joinWith : List Token → List (List Token) → List Token
  | comma :: commas, window :: windows => window ++ comma :: joinWith commas windows
  | _, windows => windows.flatten

private theorem joinWith_consHead (marks : List Token) (token : Token)
    (h : windows ≠ []) :
    joinWith marks (consHead token windows) = token :: joinWith marks windows := by
  cases windows with
  | nil => exact absurd rfl h
  | cons window windows => cases marks <;> simp [joinWith, consHead]

private theorem joinWith_commasFrom (depth : Depth) (tokens : List Token) :
    joinWith (commasFrom depth tokens) (piecesFrom depth tokens) = tokens := by
  induction tokens generalizing depth with
  | nil => rfl
  | cons token rest ih =>
      have hrest := ih (depth.step token.kind)
      simp only [piecesFrom]
      split
      · rename_i hcut
        rw [commasFrom_cons_of_cut rest hcut, joinWith, hrest, List.nil_append]
      · rename_i hcut
        rw [commasFrom_cons_of_not_cut rest hcut,
          joinWith_consHead _ token (piecesFrom_ne_nil _ _), hrest]

private theorem joins_joinWith {marks : List Token}
    (hlength : windows.length = marks.length + 1)
    (hmarks : ∀ mark ∈ marks, mark.kind = .comma) :
    Joins (joinWith marks windows) windows := by
  induction marks generalizing windows with
  | nil =>
      obtain ⟨window, rfl⟩ := List.length_eq_one_iff.1 hlength
      simpa [joinWith] using Joins.last window
  | cons mark marks ih =>
      cases windows with
      | nil => cases hlength
      | cons window windows =>
          obtain ⟨hmark, hmarks⟩ := List.forall_mem_cons.1 hmarks
          exact .cons window hmark (ih (by simpa using hlength) hmarks)

theorem Joins.pieces_eq (h : Joins tokens windows)
    (hwindows : ∀ window ∈ windows, Nested (· ≠ .comma) window) :
    pieces tokens = windows := by
  induction h with
  | last window => exact pieces_of_nested (hwindows window List.mem_cons_self)
  | cons window hcomma _ ih =>
      obtain ⟨hfirst, hothers⟩ := List.forall_mem_cons.1 hwindows
      rw [pieces_append_comma hfirst hcomma, ih hothers]

private theorem commas_append_comma (h : Nested (· ≠ .comma) window)
    (hcomma : comma.kind = .comma) (rest : List Token) :
    commas (window ++ comma :: rest) = comma :: commas rest := by
  have hnone : (topLevel window).filter (·.kind = .comma) = [] :=
    List.filter_eq_nil_iff.2 fun token htoken =>
      by simpa using h.of_mem_topLevel token htoken
  have hbracket : comma.kind.isBracket = false := by rw [hcomma]; rfl
  rw [commas, commasFrom, ← topLevel, topLevel_append (h.after_eq _),
    topLevel_cons hbracket, List.filter_append, hnone, List.nil_append,
    List.filter_cons_of_pos (by simp [hcomma])]
  rfl

private theorem commas_joinWith {marks : List Token}
    (hlength : windows.length = marks.length + 1)
    (hmarks : ∀ mark ∈ marks, mark.kind = .comma)
    (hwindows : ∀ window ∈ windows, Nested (· ≠ .comma) window) :
    commas (joinWith marks windows) = marks := by
  induction marks generalizing windows with
  | nil =>
      obtain ⟨window, rfl⟩ := List.length_eq_one_iff.1 hlength
      have hnested := hwindows window List.mem_cons_self
      simpa [joinWith, commas, commasFrom, topLevel] using fun token htoken =>
        hnested.of_mem_topLevel token htoken
  | cons mark marks ih =>
      cases windows with
      | nil => cases hlength
      | cons window windows =>
          obtain ⟨hmark, hmarks⟩ := List.forall_mem_cons.1 hmarks
          obtain ⟨hwindow, hwindows⟩ := List.forall_mem_cons.1 hwindows
          rw [joinWith, commas_append_comma hwindow hmark,
            ih (by simpa using hlength) hmarks hwindows]

/-! ## Nested windows -/

theorem Joins.wellNested (h : Joins tokens windows)
    (hwindows : ∀ window ∈ windows, WellNested window) :
    WellNested tokens := by
  induction h with
  | last window => exact hwindows window List.mem_cons_self
  | cons window hcomma _ ih =>
      obtain ⟨hfirst, hothers⟩ := List.forall_mem_cons.1 hwindows
      exact hfirst.append (WellNested.cons hcomma rfl (ih hothers))

private theorem nested_prepend (h : Nested (· ≠ .comma) window)
    (hwindows : ∀ other ∈ windows, Nested (· ≠ .comma) other) :
    ∀ other ∈ prepend window windows, Nested (· ≠ .comma) other := by
  cases windows with
  | nil => simpa [prepend] using h
  | cons first others =>
      obtain ⟨hfirst, hothers⟩ := List.forall_mem_cons.1 hwindows
      exact List.forall_mem_cons.2 ⟨h.append hfirst, hothers⟩

theorem nested_of_mem_pieces {top : Kind → Prop} (h : Nested top tokens) :
    ∀ piece ∈ pieces tokens, Nested (· ≠ .comma) piece := by
  induction h with
  | nil => simpa [pieces, piecesFrom] using Nested.nil
  | @token top token rest hbracket _ _ ih =>
      by_cases hcomma : token.kind = .comma
      · have hpieces := pieces_append_comma .nil hcomma rest
        rw [List.nil_append] at hpieces
        rw [hpieces]
        exact List.forall_mem_cons.2 ⟨.nil, ih⟩
      · have hfirst : Nested (· ≠ .comma) [token] := .single hbracket hcomma
        have hpieces := pieces_append_of_nested hfirst rest
        rw [List.singleton_append] at hpieces
        rw [hpieces]
        exact nested_prepend hfirst ih
  | @wrap top inside opener closer bracket inner rest hopener hcloser hinner _ _
      ih =>
      have hfirst : Nested (· ≠ .comma) (opener :: (inner ++ [closer])) :=
        hinner.enclosed hopener hcloser
      have hpieces := pieces_append_of_nested hfirst rest
      simp only [List.cons_append, List.append_assoc, List.nil_append] at hpieces
      rw [hpieces]
      exact nested_prepend hfirst ih

theorem pieces_eq_iff (h : WellNested tokens) :
    pieces tokens = windows ↔
      Joins tokens windows ∧ ∀ window ∈ windows, Nested (· ≠ .comma) window := by
  constructor
  · rintro rfl
    exact ⟨joins_pieces tokens, nested_of_mem_pieces h⟩
  · rintro ⟨hjoins, hwindows⟩
    exact hjoins.pieces_eq hwindows

/-! ## Parts -/

/-- A nested window outside all brackets, with no comma at top level. -/
structure Part (tokens before window after : List Token) : Prop where
  whole : tokens = before ++ (window ++ after)
  left : WellNested before
  nested : Nested (· ≠ .comma) window
  right : WellNested after

/-- A part that goes on neither to the left nor to the right. -/
structure MaximalPart (tokens before window after : List Token) :
    Prop extends Part tokens before window after where
  maximal : ∀ front left right back,
    before = front ++ left → after = right ++ back →
    Part tokens front (left ++ (window ++ right)) back → left = [] ∧ right = []

theorem joins_singleton_iff : Joins tokens [window] ↔ tokens = window := by
  constructor
  · intro h
    cases h with
    | last => rfl
    | cons _ _ h => cases h
  · rintro rfl
    exact .last _

theorem Joins.uncons (h : Joins tokens (window :: windows)) (hne : windows ≠ []) :
    ∃ comma rest, comma.kind = .comma ∧ tokens = window ++ comma :: rest ∧
      Joins rest windows := by
  cases h with
  | last => exact absurd rfl hne
  | cons _ hcomma h => exact ⟨_, _, hcomma, rfl, h⟩

theorem Joins.prepend (h : Joins tokens (first :: later)) (window : List Token) :
    Joins (window ++ tokens) ((window ++ first) :: later) := by
  cases h with
  | last => exact .last _
  | cons _ hcomma h => simpa using Joins.cons (window ++ first) hcomma h

private theorem Joins.append (h : Joins tokens (earlier ++ [last]))
    (hothers : Joins others (first :: later)) :
    Joins (tokens ++ others) (earlier ++ (last ++ first) :: later) := by
  induction earlier generalizing tokens with
  | nil =>
      obtain rfl := joins_singleton_iff.1 h
      exact hothers.prepend tokens
  | cons piece earlier ih =>
      obtain ⟨comma, rest, hcomma, rfl, hrest⟩ := Joins.uncons h (by simp)
      simpa using Joins.cons piece hcomma (ih hrest)

private theorem Joins.exists_append
    (h : Joins tokens (earlier ++ window :: later)) :
    ∃ before after,
      tokens = before ++ (window ++ after) ∧ Joins before (earlier ++ [[]]) ∧
      Joins after ([] :: later) := by
  induction earlier generalizing tokens with
  | nil =>
      cases h with
      | last => exact ⟨[], [], by simp, .last [], .last []⟩
      | @cons comma rest _ _ hcomma h =>
          exact ⟨[], comma :: rest, rfl, .last [], .cons [] hcomma h⟩
  | cons piece earlier ih =>
      obtain ⟨comma, rest, hcomma, rfl, hrest⟩ := Joins.uncons h (by simp)
      obtain ⟨before, after, rfl, hbefore, hafter⟩ := ih hrest
      exact ⟨piece ++ comma :: before, after, by simp, .cons piece hcomma hbefore,
        hafter⟩

theorem Joins.exists_part (h : Joins tokens (earlier ++ window :: later))
    (hpieces : ∀ piece ∈ earlier ++ window :: later, Nested (· ≠ .comma) piece) :
    ∃ before after, Part tokens before window after ∧
      Joins before (earlier ++ [[]]) ∧ Joins after ([] :: later) := by
  obtain ⟨before, after, hwhole, hbefore, hafter⟩ := h.exists_append
  have hnested (piece : List Token) (hpiece : piece ∈ earlier ++ window :: later) :
      WellNested piece :=
    (hpieces piece hpiece).mono fun _ _ => trivial
  have hleft : ∀ piece ∈ earlier ++ [[]], WellNested piece := by
    rintro piece hpiece
    rcases List.mem_append.1 hpiece with hpiece | hpiece
    · exact hnested piece (List.mem_append_left _ hpiece)
    · obtain rfl := List.mem_singleton.1 hpiece
      exact .nil
  have hright : ∀ piece ∈ [] :: later, WellNested piece :=
    List.forall_mem_cons.2 ⟨.nil,
      fun piece hpiece => hnested piece (by simp [hpiece])⟩
  exact ⟨before, after,
    ⟨hwhole, hbefore.wellNested hleft, hpieces window (by simp),
      hafter.wellNested hright⟩,
    hbefore, hafter⟩

private theorem Joins.kind_of_head (h : Joins tokens ([] :: later)) :
    ∀ token ∈ tokens.head?, token.kind = .comma := by
  cases h with
  | last => simp
  | cons _ hcomma => simpa using hcomma

private theorem Joins.kind_of_getLast (h : Joins tokens (earlier ++ [[]])) :
    ∀ token ∈ tokens.getLast?, token.kind = .comma := by
  induction earlier generalizing tokens with
  | nil =>
      obtain rfl := joins_singleton_iff.1 h
      simp
  | cons piece earlier ih =>
      obtain ⟨comma, rest, hcomma, rfl, hrest⟩ := Joins.uncons h (by simp)
      cases rest with
      | nil => simpa using hcomma
      | cons next rest => simpa using ih hrest

private theorem ne_comma_of_nested
    (h : Nested (· ≠ .comma) (first ++ comma :: last))
    (hfirst : Depth.zero.after first = .zero) :
    comma.kind ≠ .comma := by
  intro hcomma
  have hbracket : comma.kind.isBracket = false := by rw [hcomma]; rfl
  refine h.of_mem_topLevel comma ?_ hcomma
  rw [topLevel_append hfirst, topLevel_cons hbracket]
  simp

private theorem after_eq_of_append {front left : List Token}
    (hfront : WellNested front) (h : WellNested (front ++ left)) :
    Depth.zero.after left = .zero := by
  have hafter := h.after_eq .zero
  rwa [Depth.after_append, hfront.after_eq] at hafter

private theorem Part.maximal {before after : List Token}
    (h : Part tokens before window after)
    (hbefore : ∀ token ∈ before.getLast?, token.kind = .comma)
    (hafter : ∀ token ∈ after.head?, token.kind = .comma) :
    MaximalPart tokens before window after := by
  refine ⟨h, fun front left right back hleft hright hpart => ?_⟩
  subst hleft hright
  -- Nothing says that `left` is nested, but its brackets are even, and so a comma
  -- at its end is at top level.
  have hzero := after_eq_of_append hpart.left h.left
  constructor
  · rcases List.eq_nil_or_concat left with rfl | ⟨left, comma, rfl⟩
    · rfl
    · have hcomma : comma.kind = .comma := hbefore comma (by simp)
      have hstep : Depth.zero.after left = .zero := by
        rwa [List.concat_eq_append, Depth.after_append, Depth.after_cons,
          Depth.step_of_not_bracket _ (by rw [hcomma]; rfl)] at hzero
      have hnested := hpart.nested
      rw [List.concat_eq_append, List.append_assoc,
        List.singleton_append] at hnested
      exact absurd hcomma (ne_comma_of_nested hnested hstep)
  · cases right with
    | nil => rfl
    | cons comma right =>
        have hcomma : comma.kind = .comma := hafter comma rfl
        have hnested := hpart.nested
        rw [← List.append_assoc] at hnested
        refine absurd hcomma (ne_comma_of_nested hnested ?_)
        rw [Depth.after_append, hzero, h.nested.after_eq]

section Around

variable {before after : List Token} (h : Part tokens before window after)

include h

private theorem Part.pieces_eq (hbefore : pieces before = earlier ++ [first])
    (hafter : pieces after = last :: later) :
    pieces tokens = earlier ++ (first ++ (window ++ last)) :: later := by
  obtain ⟨hbefore, hleft⟩ := (pieces_eq_iff h.left).1 hbefore
  obtain ⟨hafter, hright⟩ := (pieces_eq_iff h.right).1 hafter
  obtain ⟨hearlier, hfirst⟩ := List.forall_mem_append.1 hleft
  obtain ⟨hlast, hlater⟩ := List.forall_mem_cons.1 hright
  have hjoins := hbefore.append (hafter.prepend window)
  rw [← h.whole] at hjoins
  refine hjoins.pieces_eq
    (List.forall_mem_append.2 ⟨hearlier, List.forall_mem_cons.2 ⟨?_, hlater⟩⟩)
  exact (hfirst first List.mem_cons_self).append (h.nested.append hlast)

private theorem Part.exists_piece :
    ∃ front left right back, before = front ++ left ∧ after = right ++ back ∧
      Part tokens front (left ++ (window ++ right)) back ∧
      left ++ (window ++ right) ∈ pieces tokens := by
  obtain ⟨earlier, left, hbefore⟩ : ∃ earlier left,
      pieces before = earlier ++ [left] :=
    ⟨_, _, (List.dropLast_concat_getLast (piecesFrom_ne_nil _ _)).symm⟩
  obtain ⟨right, later, hafter⟩ : ∃ right later, pieces after = right :: later :=
    List.exists_cons_of_ne_nil (piecesFrom_ne_nil _ _)
  have hpieces := h.pieces_eq hbefore hafter
  obtain ⟨hbefore, hleft⟩ := (pieces_eq_iff h.left).1 hbefore
  obtain ⟨hafter, hright⟩ := (pieces_eq_iff h.right).1 hafter
  obtain ⟨front, rest, hfront, -, hrest⟩ := hbefore.exists_part hleft
  obtain ⟨start, back, hback, hstart, -⟩ :=
    @Joins.exists_part after right [] later hafter hright
  obtain rfl := joins_singleton_iff.1 hrest
  obtain rfl := joins_singleton_iff.1 hstart
  have hnested := hfront.nested.append (h.nested.append hback.nested)
  refine ⟨front, left, right, back, by simpa using hfront.whole, hback.whole,
    ⟨?_, hfront.left, hnested, hback.right⟩, ?_⟩
  · simp [h.whole, hfront.whole, hback.whole]
  · simp [hpieces]

end Around

private theorem mem_pieces_iff (h : WellNested tokens) :
    window ∈ pieces tokens ↔
      ∃ before after, MaximalPart tokens before window after := by
  constructor
  · intro hwindow
    obtain ⟨earlier, later, hpieces⟩ := List.append_of_mem hwindow
    obtain ⟨hjoins, hnested⟩ := (pieces_eq_iff h).1 hpieces
    obtain ⟨before, after, hpart, hbefore, hafter⟩ := hjoins.exists_part hnested
    exact ⟨before, after, hpart.maximal hbefore.kind_of_getLast hafter.kind_of_head⟩
  · rintro ⟨before, after, hpart⟩
    obtain ⟨front, left, right, back, hbefore, hafter, hlarger, hmem⟩ :=
      hpart.toPart.exists_piece
    obtain ⟨rfl, rfl⟩ := hpart.maximal front left right back hbefore hafter hlarger
    simpa using hmem

/-- Cutting at commas and joining by commas undo each other, and a nested window is
cut into its maximal parts. -/
theorem cut_join_inverse :
    (∀ tokens, joinWith (commas tokens) (pieces tokens) = tokens ∧
        (pieces tokens).length = (commas tokens).length + 1) ∧
      (∀ marks windows,
        windows.length = marks.length + 1 → (∀ mark ∈ marks, mark.kind = .comma) →
        (∀ window ∈ windows, Nested (· ≠ .comma) window) →
        pieces (joinWith marks windows) = windows ∧
          commas (joinWith marks windows) = marks) ∧
      ∀ tokens, WellNested tokens →
        (∀ piece ∈ pieces tokens, Nested (· ≠ .comma) piece) ∧
          ∀ window, window ∈ pieces tokens ↔
            ∃ before after, MaximalPart tokens before window after := by
  refine ⟨fun tokens =>
    ⟨joinWith_commasFrom .zero tokens, length_piecesFrom .zero tokens⟩,
    ?_, ?_⟩
  · intro marks windows hlength hmarks hwindows
    exact ⟨(joins_joinWith hlength hmarks).pieces_eq hwindows,
      commas_joinWith hlength hmarks hwindows⟩
  · exact fun tokens htokens =>
      ⟨nested_of_mem_pieces htokens, fun window => mem_pieces_iff htokens⟩

def trailing : List Token :=
  [.ofKind (.opening .square) 1, .ofKind .identifier 1, .ofKind .comma 1,
    .ofKind .identifier 2, .ofKind (.closing .square) 2, .ofKind .comma 2]

theorem trailing_cut :
    (joinWith [.ofKind .comma 2] [trailing.take 5, []] = trailing ∧
        pieces trailing = [trailing.take 5, []] ∧
        commas trailing = [.ofKind .comma 2]) ∧
      WellNested trailing ∧
      ∃ before after, MaximalPart trailing before [] after := by
  have hinner : WellNested ((trailing.drop 1).take 3) :=
    .cons rfl rfl (.cons rfl rfl (.cons rfl rfl .nil))
  have hbracketed : Nested (· ≠ .comma) (trailing.take 5) :=
    hinner.enclosed (rfl : (Token.ofKind (.opening .square) 1).kind = _)
      (rfl : (Token.ofKind (.closing .square) 2).kind = _)
  have hwell : WellNested trailing :=
    (hbracketed.mono fun _ _ => trivial).append (WellNested.cons rfl rfl .nil)
  have hinverse := cut_join_inverse.2.1 [.ofKind .comma 2] [trailing.take 5, []] rfl
    (by simp) (by simp [hbracketed, Nested.nil])
  have hjoined : joinWith [.ofKind .comma 2] [trailing.take 5, []] = trailing := rfl
  rw [hjoined] at hinverse
  refine ⟨⟨hjoined, hinverse⟩, hwell,
    ((cut_join_inverse.2.2 trailing hwell).2 []).1 ?_⟩
  simp [hinverse.1]

end ExprLang.Comma
