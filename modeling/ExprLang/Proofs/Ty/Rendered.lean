import ExprLang.Proofs.Token.Slices
import ExprLang.Proofs.Tree.Printed

/-!
# Rendered types

The text of a type determines it, table indices aside: where a type ends in a longer
text is clear from the text, so that two texts which begin with types and are equal
have equal types and equal rests.  Types without holes are also read back from the
tokens of their texts.
-/

namespace ExprLang

namespace Ty

/-! ## Texts and plain forms -/

mutual

@[simp] theorem render_plain : (type : Ty) → type.plain.render = type.render
  | .primitive _ | .hole _ => rfl
  | .array element => by simp [plain, render, render_plain element]
  | .function arguments returns _ => by
      simp [plain, render, renderAll_plainAll arguments, renderAll_plainAll returns]

@[simp] theorem renderAll_plainAll :
    (types : List Ty) → renderAll (plainAll types) = renderAll types
  | [] => rfl
  | type :: types => by
      simp [plainAll, renderAll, render_plain type, renderAll_plainAll types]

end

/-! ## The parts of a text -/

def lead : Ty → Char
  | .primitive .int => 'i'
  | .primitive .float => 'f'
  | .primitive .string => 's'
  | .primitive .bool => 'b'
  | .array _ => '['
  | .function .. => '('
  | .hole _ => '?'

theorem head?_render (type : Ty) (rest : List Char) :
    (type.render.toList ++ rest).head? = some type.lead := by
  cases type with
  | primitive base => cases base <;> rfl
  | array | function | hole => simp [render, lead]

def listRest (after : List Char) : List Ty → List Char
  | [] => ')' :: after
  | type :: types => ',' :: ' ' :: (type.render.toList ++ listRest after types)

private theorem renderList_append (type : Ty) (types : List Ty)
    (after : List Char) :
    (renderList (type :: types)).toList ++ ')' :: after =
      type.render.toList ++ listRest after types := by
  induction types generalizing type with
  | nil => simp [renderList, renderAll, listRest]
  | cons other types ih =>
      have hothers := ih other
      simp only [renderList, renderAll, String.intercalate_cons_cons,
        String.toList_append, List.append_assoc]
        at hothers ⊢
      rw [hothers]
      rfl

private theorem stops_listRest (after : List Char) (types : List Ty) :
    Stops Lexeme.continuesWord (listRest after types) := by
  cases types <;> simp [Stops, listRest] <;> decide

private theorem lead_eq_of_append {left right : Ty} {rest more : List Char}
    (h : left.render.toList ++ rest = right.render.toList ++ more) :
    left.lead = right.lead := by
  have hhead := congrArg List.head? h
  rw [head?_render, head?_render] at hhead
  exact Option.some.inj hhead

private theorem lead_ne_closer (type : Ty) : type.lead ≠ ')' := by
  cases type with
  | primitive base => cases base <;> decide
  | array | function | hole => simp [lead]

private theorem listRest_eq_of_renderList {lefts rights : List Ty}
    {after later : List Char}
    (h : (renderList lefts).toList ++ ')' :: after =
      (renderList rights).toList ++ ')' :: later) :
    listRest after lefts = listRest later rights := by
  have hnonempty {type : Ty} {types : List Ty} {after later : List Char} :
      (renderList (type :: types)).toList ++ ')' :: after ≠ ')' :: later := by
    intro hsame
    have hhead := congrArg List.head? hsame
    rw [renderList_append, head?_render] at hhead
    exact type.lead_ne_closer (Option.some.inj hhead)
  cases lefts with
  | nil =>
      cases rights with
      | nil => exact h
      | cons right rights => exact absurd h.symm hnonempty
  | cons left lefts =>
      cases rights with
      | nil => exact absurd h hnonempty
      | cons right rights =>
          rw [renderList_append, renderList_append] at h
          rw [listRest, listRest, h]

/-! ## Unambiguity -/

/-- Names of letters, digits and underscores. -/
def Worded (names : List String) : Prop :=
  ∀ name ∈ names, ∀ character ∈ name.toList, Lexeme.continuesWord character = true

instance (names : List String) : Decidable (Worded names) :=
  decidable_of_iff (names.all fun name => name.toList.all Lexeme.continuesWord)
    (by simp [Worded])

theorem worded_append_iff {names others : List String} :
    Worded (names ++ others) ↔ Worded names ∧ Worded others :=
  List.forall_mem_append

private theorem words_eq_of_append {word other rest more : List Char}
    (hword : ∀ character ∈ word, Lexeme.continuesWord character = true)
    (hother : ∀ character ∈ other, Lexeme.continuesWord character = true)
    (hrest : Stops Lexeme.continuesWord rest)
    (hmore : Stops Lexeme.continuesWord more) (h : word ++ rest = other ++ more) :
    word = other ∧ rest = more := by
  have hsame : word = other := by
    rw [← takeWhile_append_of_stops hword hrest, h,
      takeWhile_append_of_stops hother hmore]
  rw [hsame] at h
  exact ⟨hsame, List.append_cancel_left h⟩

private theorem render_function (arguments returns : List Ty)
    (index : Option UInt32) (rest : List Char) :
    (Ty.function arguments returns index).render.toList ++ rest =
      '(' :: ((renderList arguments).toList ++
          ')' ::
            (" -> (".toList ++ ((renderList returns).toList ++ ')' :: rest))) := by
  simp [render, renderList]

mutual

/-- Where a type ends is clear from the text: equal texts that begin with types have
equal types, table indices aside, and equal rests. -/
theorem plain_eq_of_append :
    (left right : Ty) → Worded left.holes → Worded right.holes →
      ∀ rest more : List Char,
        Stops Lexeme.continuesWord rest → Stops Lexeme.continuesWord more →
        left.render.toList ++ rest = right.render.toList ++ more →
        left.plain = right.plain ∧ rest = more
  | .primitive base, right, _, _, rest, more, _, _, h => by
      have hlead := lead_eq_of_append h
      obtain rfl : Ty.primitive base = right := by
        cases base <;> cases right with
        | primitive other => cases other <;> simp_all [lead]
        | array | function | hole => simp [lead] at hlead
      exact ⟨rfl, List.append_cancel_left h⟩
  | .array element, right, hleft, hright, rest, more, hrest, hmore, h => by
      have hlead := lead_eq_of_append h
      cases right with
      | array other =>
          simp only [render, String.toList_append, List.append_assoc,
            List.append_cancel_left_eq] at h
          obtain ⟨helement, hsame⟩ :=
            plain_eq_of_append element other hleft hright rest more hrest hmore h
          exact ⟨by rw [plain, plain, helement], hsame⟩
      | primitive base => cases base <;> simp [lead] at hlead
      | function | hole => simp [lead] at hlead
  | .hole name, right, hleft, hright, rest, more, hrest, hmore, h => by
      have hlead := lead_eq_of_append h
      cases right with
      | hole other =>
          simp only [render, String.toList_append, List.append_assoc,
            List.append_cancel_left_eq] at h
          obtain ⟨hname, hsame⟩ := words_eq_of_append (hleft name (by simp [holes]))
            (hright other (by simp [holes])) hrest hmore h
          exact ⟨by rw [String.toList_inj.1 hname], hsame⟩
      | primitive base => cases base <;> simp [lead] at hlead
      | array | function => simp [lead] at hlead
  | .function arguments returns index, right, hleft, hright, rest, more, _, _, h => by
      have hlead := lead_eq_of_append h
      cases right with
      | function otherArguments otherReturns otherIndex =>
          obtain ⟨hleftArguments, hleftReturns⟩ := worded_append_iff.1 hleft
          obtain ⟨hrightArguments, hrightReturns⟩ := worded_append_iff.1 hright
          rw [render_function, render_function] at h
          obtain ⟨harguments, hreturns⟩ :=
            plainAll_eq_of_listRest arguments otherArguments hleftArguments
              hrightArguments _ _ (listRest_eq_of_renderList (List.cons.inj h).2)
          obtain ⟨hreturns, hsame⟩ :=
            plainAll_eq_of_listRest returns otherReturns hleftReturns hrightReturns
              _ _ (listRest_eq_of_renderList (List.append_cancel_left hreturns))
          exact ⟨by rw [plain, plain, harguments, hreturns], hsame⟩
      | primitive base => cases base <;> simp [lead] at hlead
      | array | hole => simp [lead] at hlead

theorem plainAll_eq_of_listRest :
    (lefts rights : List Ty) → Worded (holesAll lefts) → Worded (holesAll rights) →
      ∀ after later : List Char, listRest after lefts = listRest later rights →
        plainAll lefts = plainAll rights ∧ after = later
  | [], rights, _, _, after, later, h => by
      cases rights with
      | nil => exact ⟨rfl, (List.cons.inj h).2⟩
      | cons right rights => simp [listRest] at h
  | left :: lefts, rights, hlefts, hrights, after, later, h => by
      cases rights with
      | nil => simp [listRest] at h
      | cons right rights =>
          obtain ⟨hleft, hlefts⟩ := worded_append_iff.1 hlefts
          obtain ⟨hright, hrights⟩ := worded_append_iff.1 hrights
          obtain ⟨htype, hothers⟩ := plain_eq_of_append left right hleft hright _ _
            (stops_listRest after lefts) (stops_listRest later rights)
            (List.cons.inj (List.cons.inj h).2).2
          obtain ⟨htypes, hsame⟩ :=
            plainAll_eq_of_listRest lefts rights hlefts hrights after later hothers
          exact ⟨by rw [plainAll, plainAll, htype, htypes], hsame⟩

end

/-- Types whose holes have names of letters, digits and underscores are the same
exactly if their texts are. -/
theorem same_iff_render_eq (left right : Ty) (hleft : Worded left.holes)
    (hright : Worded right.holes) :
    left.same right = true ↔ left.render = right.render := by
  rw [same_iff_plain]
  constructor
  · intro hplain
    rw [← render_plain left, hplain, render_plain]
  · intro hrender
    have hstops : Stops Lexeme.continuesWord [] := by simp [Stops]
    exact (plain_eq_of_append left right hleft hright [] [] hstops hstops
      (by rw [hrender])).1

def indexed (outer inner : Option UInt32) : Ty :=
  .function [.array (.hole "é_1"), .function [] [.hole "a", .hole ""] inner]
    [.array (.function [.int] [] none)] outer

theorem indexed_same_iff_render_eq :
    Worded (indexed (some 7) none).holes ∧ Worded (indexed none (some 0)).holes ∧
      (indexed (some 7) none).render =
        "([]?é_1, () -> (?a, ?)) -> ([](int) -> ())" ∧
      (indexed (some 7) none).render = (indexed none (some 0)).render ∧
      (indexed (some 7) none).same (indexed none (some 0)) = true := by
  have hworded (outer inner : Option UInt32) :
      Worded (indexed outer inner).holes := by
    have hnames : (indexed outer inner).holes = ["é_1", "a", ""] := rfl
    rw [hnames]
    decide +kernel
  have hrender : (indexed (some 7) none).render = (indexed none (some 0)).render :=
    rfl
  exact ⟨hworded _ _, hworded _ _, by decide, hrender,
    (same_iff_render_eq _ _ (hworded _ _) (hworded _ _)).2 hrender⟩

/-- With a comma in its name a hole has the text of two. -/
example :
    (Ty.function [.hole "a, ?b"] [] none).render =
        (Ty.function [.hole "a", .hole "b"] [] none).render ∧
      (Ty.function [.hole "a, ?b"] [] none).same (.function [.hole "a",
          .hole "b"] [] none) = false :=
  ⟨rfl, rfl⟩

end Ty

/-! ## Literals read back -/

namespace TypeLiteral

open Ty

private theorem filter_tokenize_of_reads {text : String} {tokens : List Token}
    (h : Reads 1 text tokens []) :
    (tokenize text).filter (·.kind ≠ .eof) = tokens := by
  rw [Reads, scan_nil, List.append_nil, List.append_nil] at h
  rw [filter_tokenize, h]

/-- The tokens of the text of a type without holes are read as that type, wherever
they stand and whatever is around them, up to the token after them.  The tokens of
the text of a list of such types are read as that list. -/
theorem rendered_types_read_back :
    (∀ type : Ty, type.hasHole = false → ∀ before after : List Token,
      let tokens := (tokenize type.render).filter (·.kind ≠ .eof)
      ∃ found, found.same type = true ∧
        readAt (before ++ tokens ++ after) before.length =
          .ok (some (found, before.length + tokens.length))) ∧
    ∀ types : List Ty, (∀ type ∈ types, type.hasHole = false) →
      ∃ found, sameAll found types = true ∧
        readList ((tokenize (renderList types)).filter (·.kind ≠ .eof)) =
          .ok found := by
  constructor
  · intro type hconcrete before after tokens
    have htokens : tokens = type.tokens 1 :=
      filter_tokenize_of_reads (type.reads_render 1 hconcrete [] ends_nil)
    have hread := read_tokens 1 type hconcrete after
    refine ⟨type.plain, (same_iff_plain _ _).2 type.plain_plain, ?_⟩
    rw [htokens]
    exact readAt_append before hread
  · intro types hconcrete
    have hconcrete := anyHasHole_iff_mem.2 hconcrete
    have htokens := filter_tokenize_of_reads
      (reads_renderList (reads_render_of_mem 1 types hconcrete) ends_nil)
    refine ⟨plainAll types, (sameAll_iff_plainAll _ _).2 (plainAll_plainAll types),
      ?_⟩
    rw [htokens, readList_join, readPieces_tokensAll 1 types hconcrete]

def callbacks : Ty :=
  .function [.array (.function [] [.int] (some 1)), .bool]
    [.array (.array .string)] none

theorem callbacks_read_back :
    callbacks.hasHole = false ∧
      callbacks.render = "([]() -> (int), bool) -> ([][]string)" ∧
      (∃ found, found.same callbacks = true ∧
        readAt ([.ofKind (.opening .paren) 4] ++
            (tokenize callbacks.render).filter (·.kind ≠ .eof) ++
            [.ofKind .arrow 4]) 1 = .ok (some (found, 18))) ∧
      ∃ found, sameAll found [callbacks, .int, callbacks] = true ∧
        readList ((tokenize (renderList [callbacks, .int, callbacks])).filter
            (·.kind ≠ .eof)) = .ok found := by
  have hlength : ((tokenize callbacks.render).filter (·.kind ≠ .eof)).length = 17 := by
    decide +kernel
  obtain ⟨found, hsame, hread⟩ :=
    rendered_types_read_back.1 callbacks rfl [.ofKind (.opening .paren) 4]
      [.ofKind .arrow 4]
  rw [hlength] at hread
  have hconcrete : ∀ type ∈ [callbacks, .int, callbacks], type.hasHole = false :=
    anyHasHole_iff_mem.1 rfl
  exact ⟨rfl, by decide, ⟨found, hsame, hread⟩,
    rendered_types_read_back.2 _ hconcrete⟩

end TypeLiteral

end ExprLang
