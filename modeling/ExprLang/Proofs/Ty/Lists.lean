import Mathlib.Data.List.Forall2
import ExprLang.Proofs.Ty.Denoted
import ExprLang.Proofs.Ty.Literal
import ExprLang.Proofs.Window.Commas
import ExprLang.Token.Lexer

/-!
# Lists of types

What is read from a list of types: the types of the pieces between its commas at top
level, where empty pieces are passed over.  So there is one type for each piece
exactly if no piece is empty.  That the lists inside the types are in order as well
is a matter of neighbours: each comma, at whatever depth, stands after the end of a
type and before the beginning of another.
-/

namespace ExprLang

open Outcome

/-! ## Neighbours of commas -/

/-- What stands last may end a type: it is neither a comma nor a parenthesis that
opens. -/
def EndsItem (tokens : List Token) : Prop :=
  ∃ token ∈ tokens.getLast?, token.kind ≠ .comma ∧ token.kind ≠ .opening .paren

def BeginsItem (tokens : List Token) : Prop :=
  ∃ token ∈ tokens.head?, token.kind ≠ .comma ∧ token.kind ≠ .closing .paren

/-- Each comma stands between two items. -/
def StrayFree (tokens : List Token) : Prop :=
  ∀ before comma after, tokens = before ++ comma :: after → comma.kind = .comma →
    EndsItem before ∧ BeginsItem after

theorem append_eq_append_cons {tokens others before after : List Token}
    {token : Token} (h : tokens ++ others = before ++ token :: after) :
    (∃ later, tokens = before ++ token :: later ∧ after = later ++ others) ∨
      ∃ earlier,
        before = tokens ++ earlier ∧ others = earlier ++ token :: after := by
  rcases List.append_eq_append_iff.1 h with hright | ⟨later, htokens, hafter⟩
  · exact .inr hright
  · cases later with
    | nil => exact .inr ⟨[], by simpa using htokens.symm, hafter.symm⟩
    | cons first later =>
        obtain ⟨rfl, hrest⟩ := List.cons.inj hafter
        exact .inl ⟨later, htokens, hrest⟩

section Neighbours

variable {tokens others : List Token}

theorem EndsItem.append (h : EndsItem others) (tokens : List Token) :
    EndsItem (tokens ++ others) := by
  obtain ⟨token, htoken, hkind⟩ := h
  refine ⟨token, ?_, hkind⟩
  rw [List.getLast?_append, htoken]
  rfl

theorem BeginsItem.append (h : BeginsItem tokens) (others : List Token) :
    BeginsItem (tokens ++ others) := by
  obtain ⟨token, htoken, hkind⟩ := h
  refine ⟨token, ?_, hkind⟩
  rw [List.head?_append, htoken]
  rfl

private theorem EndsItem.of_append (h : EndsItem (tokens ++ others))
    (htokens : ¬ EndsItem tokens) :
    EndsItem others := by
  cases others with
  | nil => exact absurd (by simpa using h) htokens
  | cons first rest =>
      rwa [EndsItem, List.getLast?_append_of_ne_nil _ (by simp)] at h

private theorem BeginsItem.of_append (h : BeginsItem (tokens ++ others))
    (hothers : ¬ BeginsItem others) :
    BeginsItem tokens := by
  cases tokens with
  | nil => exact absurd h hothers
  | cons first rest => exact h

private theorem EndsItem.ne_nil (h : EndsItem tokens) : tokens ≠ [] := by
  rintro rfl
  obtain ⟨token, htoken, -⟩ := h
  cases htoken

theorem BeginsItem.ne_nil (h : BeginsItem tokens) : tokens ≠ [] := by
  rintro rfl
  obtain ⟨token, htoken, -⟩ := h
  cases htoken

theorem not_endsItem_append {token : Token}
    (h : token.kind = .comma ∨ token.kind = .opening .paren) (tokens : List Token) :
    ¬ EndsItem (tokens ++ [token]) := by
  rintro ⟨last, hlast, hcomma, hopener⟩
  rw [List.getLast?_concat, Option.mem_some_iff] at hlast
  subst hlast
  exact h.elim hcomma hopener

theorem not_beginsItem_cons {token : Token}
    (h : token.kind = .comma ∨ token.kind = .closing .paren) (tokens : List Token) :
    ¬ BeginsItem (token :: tokens) := by
  rintro ⟨first, hfirst, hcomma, hcloser⟩
  rw [List.head?_cons, Option.mem_some_iff] at hfirst
  subst hfirst
  exact h.elim hcomma hcloser

namespace StrayFree

theorem segment (left right : List Token) (h : StrayFree (left ++ tokens ++ right))
    (hleft : ¬ EndsItem left) (hright : ¬ BeginsItem right) :
    StrayFree tokens := by
  intro before comma after htokens hcomma
  have hneighbours :=
    h (left ++ before) comma (after ++ right) (by simp [htokens]) hcomma
  exact ⟨hneighbours.1.of_append hleft, hneighbours.2.of_append hright⟩

theorem nil : StrayFree [] := by
  intro before comma after htokens
  simp at htokens

theorem append (h : StrayFree tokens) (hothers : StrayFree others) :
    StrayFree (tokens ++ others) := by
  intro before comma after hwhole hcomma
  rcases append_eq_append_cons hwhole with ⟨later, htokens, rfl⟩ |
    ⟨earlier, rfl, hsplit⟩
  · have hneighbours := h before comma later htokens hcomma
    exact ⟨hneighbours.1, hneighbours.2.append others⟩
  · have hneighbours := hothers earlier comma after hsplit hcomma
    exact ⟨hneighbours.1.append tokens, hneighbours.2⟩

theorem cons {token : Token} (hkind : token.kind ≠ .comma) (h : StrayFree tokens) :
    StrayFree (token :: tokens) := by
  have hsingle : StrayFree [token] := by
    intro before comma after hwhole hcomma
    cases before with
    | nil =>
        obtain ⟨rfl, -⟩ := List.cons.inj hwhole
        exact absurd hcomma hkind
    | cons first before => simp at hwhole
  exact hsingle.append h

theorem of_cons {token : Token} (h : StrayFree (token :: tokens))
    (hbegins : BeginsItem tokens) :
    StrayFree tokens := by
  intro before comma after htokens hcomma
  obtain ⟨hends, hafter⟩ :=
    h (token :: before) comma after (by rw [htokens]; rfl) hcomma
  cases before with
  | nil =>
      rw [htokens] at hbegins
      exact absurd hbegins (not_beginsItem_cons (.inl hcomma) after)
  | cons first before => exact ⟨hends, hafter⟩

theorem join (h : StrayFree tokens) (hends : EndsItem tokens) (comma : Token)
    (hothers : StrayFree others) (hbegins : BeginsItem others) :
    StrayFree (tokens ++ comma :: others) := by
  intro before found after hwhole hfound
  rcases append_eq_append_cons hwhole with ⟨later, htokens, rfl⟩ |
    ⟨earlier, rfl, hsplit⟩
  · have hneighbours := h before found later htokens hfound
    exact ⟨hneighbours.1, hneighbours.2.append _⟩
  · cases earlier with
    | nil =>
        obtain ⟨-, rfl⟩ := List.cons.inj hsplit
        exact ⟨by simpa using hends, hbegins⟩
    | cons first earlier =>
        obtain ⟨rfl, hrest⟩ := List.cons.inj hsplit
        have hneighbours := hothers earlier found after hrest hfound
        exact ⟨(hneighbours.1.append [comma]).append tokens, hneighbours.2⟩

theorem of_joins {pieces : List (List Token)} (hjoins : Comma.Joins tokens pieces)
    (h : StrayFree tokens) (hne : tokens ≠ []) :
    ∀ piece ∈ pieces, piece ≠ [] ∧ StrayFree piece := by
  induction hjoins with
  | last piece => simpa using ⟨hne, h⟩
  | @cons comma rest pieces piece hcomma _ ih =>
      obtain ⟨hends, hbegins⟩ := h piece comma rest rfl hcomma
      have hpiece : StrayFree piece :=
        segment [] (comma :: rest) h (fun hnone => hnone.ne_nil rfl)
          (not_beginsItem_cons (.inl hcomma) rest)
      have hrest : StrayFree rest :=
        segment (piece ++ [comma]) [] (by simpa using h)
          (not_endsItem_append (.inl hcomma) piece) fun hnone => hnone.ne_nil rfl
      exact List.forall_mem_cons.2 ⟨⟨hends.ne_nil, hpiece⟩, ih hrest hbegins.ne_nil⟩

end StrayFree

end Neighbours

/-! ## Well-formed literals -/

namespace TypeLiteral

mutual

/-- A literal in which each list is empty or has a literal at every place. -/
inductive Formed : List Token → Ty → Prop
  | primitive {token : Token} {base : Primitive} (hkind : token.kind = .typeName)
      (hname : Primitive.ofName? token.text = some base) :
      Formed [token] (.primitive base)
  | array {mark : Token} {tokens : List Token} {element : Ty}
      (hkind : mark.kind = .arrayMark) (h : Formed tokens element) :
      Formed (mark :: tokens) (.array element)
  | function {inner outer source target : List Token} {arrow : Token}
      {arguments returns : List Ty} (hsource : Bracketed .paren inner source)
      (harrow : arrow.kind = .arrow) (htarget : Bracketed .paren outer target)
      (harguments : FormedList inner arguments)
      (hreturns : FormedList outer returns) :
      Formed (source ++ arrow :: target) (.function arguments returns none)

inductive FormedList : List Token → List Ty → Prop
  | nil : FormedList [] []
  | last {tokens : List Token} {type : Ty} (h : Formed tokens type) :
      FormedList tokens [type]
  | cons {tokens rest : List Token} {comma : Token} {type : Ty} {types : List Ty}
      (hfirst : Formed tokens type) (hcomma : comma.kind = .comma)
      (hne : types ≠ []) (h : FormedList rest types) :
      FormedList (tokens ++ comma :: rest) (type :: types)

end

theorem formedList_of_joins {tokens : List Token} {pieces : List (List Token)}
    {types : List Ty} (hjoins : Comma.Joins tokens pieces)
    (h : List.Forall₂ Formed pieces types) :
    FormedList tokens types := by
  induction hjoins generalizing types with
  | last piece =>
      cases h with
      | cons hfirst hrest =>
          cases hrest
          exact .last hfirst
  | cons piece hcomma hjoins ih =>
      cases h with
      | cons hfirst hrest =>
          refine .cons hfirst hcomma ?_ (ih hrest)
          rintro rfl
          cases hrest
          cases hjoins

/-! ### Literals have no stray commas -/

theorem strayFree_of_bracketed {inner tokens : List Token}
    (h : Bracketed .paren inner tokens) (hinner : StrayFree inner) :
    StrayFree tokens := by
  cases h with
  | intro hopener hcloser =>
      exact .cons (by simp [hopener])
        (hinner.append (.cons (by simp [hcloser]) .nil))

theorem beginsItem_of_bracketed {inner tokens : List Token}
    (h : Bracketed .paren inner tokens) :
    BeginsItem tokens := by
  cases h with
  | intro hopener => exact ⟨_, rfl, by simp [hopener]⟩

theorem endsItem_of_bracketed {inner tokens : List Token}
    (h : Bracketed .paren inner tokens) :
    EndsItem tokens := by
  cases h with
  | @intro opener closer _ hcloser =>
      have hlast : EndsItem [closer] := ⟨closer, rfl, by simp [hcloser]⟩
      exact (hlast.append inner).append [opener]

mutual

theorem Formed.strayFree {tokens : List Token} {type : Ty} :
    Formed tokens type → StrayFree tokens ∧ BeginsItem tokens ∧ EndsItem tokens
  | .primitive hkind _ =>
      ⟨.cons (by simp [hkind]) .nil, ⟨_, rfl, by simp [hkind]⟩,
        ⟨_, rfl, by simp [hkind]⟩⟩
  | @Formed.array mark _ _ hkind h => by
      obtain ⟨hfree, -, hends⟩ := h.strayFree
      exact ⟨.cons (by simp [hkind]) hfree, ⟨_, rfl, by simp [hkind]⟩,
        hends.append [mark]⟩
  | @Formed.function _ _ _ _ arrow _ _ hsource harrow htarget harguments hreturns => by
      have hfirst := strayFree_of_bracketed hsource harguments.strayFree.1
      have hsecond := strayFree_of_bracketed htarget hreturns.strayFree.1
      exact ⟨hfirst.append (.cons (by simp [harrow]) hsecond),
        (beginsItem_of_bracketed hsource).append _,
        ((endsItem_of_bracketed htarget).append [arrow]).append _⟩

theorem FormedList.strayFree {tokens : List Token} {types : List Ty} :
    FormedList tokens types →
      StrayFree tokens ∧ (types ≠ [] → BeginsItem tokens ∧ EndsItem tokens)
  | .nil => ⟨.nil, fun hne => absurd rfl hne⟩
  | .last h => ⟨h.strayFree.1, fun _ => h.strayFree.2⟩
  | @FormedList.cons _ _ comma _ _ hfirst _ hne h => by
      obtain ⟨hfree, hbegins, hends⟩ := hfirst.strayFree
      obtain ⟨hothers, hitems⟩ := h.strayFree
      obtain ⟨hnext, hlast⟩ := hitems hne
      exact ⟨hfree.join hends comma hothers hnext,
        fun _ => ⟨hbegins.append _, (hlast.append [comma]).append _⟩⟩

end

/-! ### What is read without stray commas is well formed -/

theorem strayFree_of_around {inner tokens : List Token}
    (h : Bracketed .paren inner tokens) (before after : List Token)
    (hfree : StrayFree (before ++ tokens ++ after)) :
    StrayFree inner := by
  cases h with
  | @intro opener closer hopener hcloser =>
      exact StrayFree.segment (before ++ [opener]) (closer :: after)
        (by simpa using hfree) (not_endsItem_append (.inr hopener) before)
        (not_beginsItem_cons (.inr hcloser) after)

theorem Denotes.beginsItem {tokens : List Token} {type : Ty}
    (h : Denotes tokens type) :
    BeginsItem tokens := by
  cases h with
  | primitive hkind => exact ⟨_, rfl, by simp [hkind]⟩
  | array hkind => exact ⟨_, rfl, by simp [hkind]⟩
  | function hsource => exact (beginsItem_of_bracketed hsource).append _

private theorem eachDenotes_nil {types : List Ty} (h : EachDenotes [[]] types) :
    types = [] := by
  cases h with
  | skip h =>
      cases h
      rfl
  | cons hfirst => exact absurd rfl hfirst.beginsItem.ne_nil

theorem formedList_of_pieces {inner : List Token} {types : List Ty}
    (hfree : StrayFree inner) (h : EachDenotes (Comma.pieces inner) types)
    (hformed : (∀ piece ∈ Comma.pieces inner, piece ≠ [] ∧ StrayFree piece) →
      List.Forall₂ Formed (Comma.pieces inner) types) :
    FormedList inner types := by
  cases inner with
  | nil =>
      obtain rfl := eachDenotes_nil h
      exact .nil
  | cons first rest =>
      have hjoins := Comma.joins_pieces (first :: rest)
      exact formedList_of_joins hjoins
        (hformed (StrayFree.of_joins hjoins hfree (List.cons_ne_nil _ _)))

mutual

theorem Denotes.formed {tokens : List Token} {type : Ty} :
    Denotes tokens type → StrayFree tokens → Formed tokens type
  | .primitive hkind hname, _ => .primitive hkind hname
  | .array hkind h, hfree => .array hkind (h.formed (hfree.of_cons h.beginsItem))
  | @Denotes.function _ _ source target arrow _ _ hsource harrow htarget harguments
      hreturns, hfree => by
      have hinner := strayFree_of_around hsource [] (arrow :: target) hfree
      have houter :=
        strayFree_of_around htarget (source ++ [arrow]) [] (by simpa using hfree)
      exact .function hsource harrow htarget
        (formedList_of_pieces hinner harguments harguments.formed)
        (formedList_of_pieces houter hreturns hreturns.formed)

theorem EachDenotes.formed {pieces : List (List Token)} {types : List Ty} :
    EachDenotes pieces types → (∀ piece ∈ pieces, piece ≠ [] ∧ StrayFree piece) →
      List.Forall₂ Formed pieces types
  | .nil, _ => .nil
  | .skip _, hpieces => absurd rfl (hpieces [] List.mem_cons_self).1
  | .cons hfirst h, hpieces =>
      .cons (hfirst.formed (hpieces _ List.mem_cons_self).2)
        (h.formed fun piece hpiece => hpieces piece (List.mem_cons_of_mem _ hpiece))

end

/-! ## One type for each piece -/

def Whole (tokens : List Token) (type : Ty) : Prop :=
  readAt tokens 0 = .ok (some (type, tokens.length))

private theorem whole_of_read {tokens : List Token} {type : Ty}
    (h : read tokens = .ok (some (type, []))) :
    Whole tokens type := by
  have hread : read (tokens ++ []) = .ok (some (type, [])) := by
    rwa [List.append_nil]
  have hwhole := readAt_append [] hread
  simpa [Whole] using hwhole

private theorem forall₂_of_readPieces {pieces : List (List Token)} {types : List Ty}
    (h : readPieces pieces = .ok types) :
    List.Forall₂ Whole (pieces.filter (!·.isEmpty)) types := by
  induction pieces generalizing types with
  | nil =>
      rw [readPieces] at h
      cases h
      exact .nil
  | cons piece pieces ih =>
      cases piece with
      | nil =>
          rw [readPieces] at h
          exact ih h
      | cons first others =>
          rw [readPieces] at h
          simp only [bind_eq_ok_iff] at h
          obtain ⟨found, hfound, h⟩ := h
          split at h
          · simp only [bind_eq_ok_iff] at h
            obtain ⟨later, hlater, h⟩ := h
            cases h
            exact .cons (whole_of_read hfound) (ih hlater)
          · cases h
          · cases h

/-- The types are those of the pieces between the commas at top level, one for
each. -/
structure OnePerPiece (literal : List Token → Ty → Prop) (tokens : List Token)
    (types : List Ty) : Prop where
  count : types.length = (topLevel tokens).countP (·.kind = .comma) + 1
  each : List.Forall₂ literal (Comma.pieces tokens) types

private theorem onePerPiece_iff {literal : List Token → Ty → Prop}
    {tokens : List Token} {types : List Ty} :
    OnePerPiece literal tokens types ↔
      List.Forall₂ literal (Comma.pieces tokens) types :=
  ⟨OnePerPiece.each, fun h => ⟨by rw [← h.length_eq, Comma.length_pieces], h⟩⟩

/-- The types of an accepted list are those of the pieces that are not empty.  There
is one type for each piece exactly if no piece is empty, and all lists inside are in
order as well exactly if no comma is stray. -/
theorem one_type_per_piece_iff {tokens : List Token} {types : List Ty}
    (hne : tokens ≠ []) (h : readList tokens = .ok types) :
    List.Forall₂ Whole ((Comma.pieces tokens).filter (!·.isEmpty)) types ∧
      (OnePerPiece Whole tokens types ↔ ∀ piece ∈ Comma.pieces tokens, piece ≠ []) ∧
      (OnePerPiece Formed tokens types ↔ StrayFree tokens) := by
  have hwhole := forall₂_of_readPieces h
  have hjoins := Comma.joins_pieces tokens
  refine ⟨hwhole, ?_, ?_⟩
  · rw [onePerPiece_iff]
    constructor
    · intro heach piece hpiece
      have hlength : ((Comma.pieces tokens).filter (!·.isEmpty)).length =
          (Comma.pieces tokens).length := by
        rw [hwhole.length_eq, heach.length_eq]
      simpa using List.length_filter_eq_length_iff.1 hlength piece hpiece
    · intro hpieces
      rwa [List.filter_eq_self.2 (by simpa using hpieces)] at hwhole
  · rw [onePerPiece_iff]
    constructor
    · intro heach
      exact (formedList_of_joins hjoins heach).strayFree.1
    · intro hfree
      exact (begins_of_read.2 _ _ h).formed (StrayFree.of_joins hjoins hfree hne)

def handlers : List Ty := [.function [.int, .bool] [] none, .array .int]

theorem handlers_one_type_per_piece :
    Comma.join 1 (Ty.tokensAll 1 handlers) ≠ [] ∧
      readList (Comma.join 1 (Ty.tokensAll 1 handlers)) = .ok handlers ∧
      OnePerPiece Whole (Comma.join 1 (Ty.tokensAll 1 handlers)) handlers ∧
      OnePerPiece Formed (Comma.join 1 (Ty.tokensAll 1 handlers)) handlers := by
  have hne : Comma.join 1 (Ty.tokensAll 1 handlers) ≠ [] := by
    simp [handlers, Ty.tokensAll, Ty.tokens, Comma.join]
  have hread :
      readList (Comma.join 1 (Ty.tokensAll 1 handlers)) = .ok handlers := by
    rw [readList_join, readPieces_tokensAll 1 handlers rfl]
    rfl
  have hpieces : ∀ piece ∈ Comma.pieces (Comma.join 1 (Ty.tokensAll 1 handlers)),
      piece ≠ [] := by decide
  have hfree : StrayFree (Comma.join 1 (Ty.tokensAll 1 handlers)) := by
    have hlater : StrayFree (.ofKind .arrayMark 1 :: Ty.int.tokens 1) :=
      .cons (by decide) (.cons (by decide) .nil)
    have hmiddle : StrayFree (Ty.bool.tokens 1 ++
        [.ofKind (.closing .paren) 1, .ofKind .arrow 1, .ofKind (.opening .paren) 1,
          .ofKind (.closing .paren) 1]) :=
      .cons (by decide) (.cons (by decide)
          (.cons (by decide) (.cons (by decide) (.cons (by decide) .nil))))
    have hfirst : StrayFree (.ofKind (.opening .paren) 1 :: Ty.int.tokens 1) :=
      .cons (by decide) (.cons (by decide) .nil)
    have hrest :=
      hmiddle.join ⟨_, rfl, by decide⟩ (.ofKind .comma 1) hlater ⟨_, rfl, by decide⟩
    exact hfirst.join ⟨_, rfl, by decide⟩ (.ofKind .comma 1) hrest
      ⟨_, rfl, by decide⟩
  obtain ⟨-, hwhole, hformed⟩ := one_type_per_piece_iff hne hread
  exact ⟨hne, hread, hwhole.2 hpieces, hformed.2 hfree⟩

/-- Between two commas there is no type, and the list is accepted. -/
theorem doubled_comma_passed_over :
    readList ((tokenize "int,,bool").filter (·.kind ≠ .eof)) = .ok [.int, .bool] ∧
      (topLevel ((tokenize "int,,bool").filter (·.kind ≠ .eof))).countP
          (·.kind = .comma) = 2 ∧
      ¬ OnePerPiece Whole ((tokenize "int,,bool").filter (·.kind ≠ .eof))
        [.int, .bool] := by
  have htokens : (tokenize "int,,bool").filter (·.kind ≠ .eof) =
      Ty.int.tokens 1 ++
        .ofKind .comma 1 :: .ofKind .comma 1 :: Ty.bool.tokens 1 := by
    decide +kernel
  have hpieces : Comma.pieces (Ty.int.tokens 1 ++
        .ofKind .comma 1 :: .ofKind .comma 1 :: Ty.bool.tokens 1) =
      [Ty.int.tokens 1, [], Ty.bool.tokens 1] := by decide
  have hint : read [⟨.typeName, "int", 1⟩] = .ok (some (.int, [])) :=
    read_tokens 1 .int rfl []
  have hbool : read [⟨.typeName, "bool", 1⟩] = .ok (some (.bool, [])) :=
    read_tokens 1 .bool rfl []
  rw [htokens]
  refine ⟨?_, by decide, fun h => absurd h.count (by decide)⟩
  rw [readList, hpieces]
  simp [Ty.int, Ty.bool, Ty.tokens, Primitive.name, readPieces, hint, hbool, bind,
    Except.bind, pure, Except.pure]

end TypeLiteral

end ExprLang
