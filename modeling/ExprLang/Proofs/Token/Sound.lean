import ExprLang.Proofs.Token.Shape
import ExprLang.Ty.Basic

/-!
# Tokens of a text

Every token of a text is on one of its lines, and can be read: a type name names a
type, and a number with a point has a value.  What one step of a stream keeps, the
whole stream keeps.
-/

namespace ExprLang

/-! ## Streams -/

namespace TokenStream

variable {σ : Type} [TokenStream σ]

theorem good_of_next {keeps : σ → Prop} {good : Token → Prop}
    (hnext : ∀ stream, keeps stream → good (next stream).1 ∧ keeps (next stream).2)
    (stream : σ) (h : keeps stream) :
    (∀ token ∈ tokens stream, good token) ∧
      ∃ last, good last ∧ last.line = endLine stream := by
  induction stream using collect.induct with
  | case1 stream hend =>
      rw [tokens, endLine, collect_of_eof hend]
      exact ⟨by simp, (next stream).1, (hnext stream h).1, rfl⟩
  | case2 stream hend ih =>
      obtain ⟨hfirst, hkeeps⟩ := hnext stream h
      obtain ⟨htokens, hlast⟩ := ih hkeeps
      rw [tokens, endLine, collect_of_ne_eof hend]
      refine ⟨?_, hlast⟩
      intro token htoken
      rcases List.mem_cons.1 htoken with rfl | htoken
      · exact hfirst
      · exact htokens token htoken

end TokenStream

/-! ## Readable tokens -/

structure Token.Readable (token : Token) : Prop where
  typeName : token.kind = .typeName →
    ∃ base, Primitive.ofName? token.text = some base
  float : token.kind = .float → ∃ value, Number.float token.text = .ok value

theorem Token.readable_of_kind {token : Token}
    (h : token.kind ≠ .typeName ∧ token.kind ≠ .float) :
    token.Readable :=
  ⟨fun hkind => absurd hkind h.1, fun hkind => absurd hkind h.2⟩

namespace Lexeme

private theorem exists_of_keyword? {text : List Char}
    (h : keyword? text = some .typeName) :
    ∃ base, Primitive.ofName? (String.ofList text) = some base := by
  have hword : text = "int".toList ∨ text = "float".toList ∨
      text = "string".toList ∨ text = "bool".toList := by
    unfold keyword? at h
    split at h
    · cases h
    split at h
    · cases h
    split at h
    · cases h
    split at h
    · cases h
    split at h
    · assumption
    · cases h
  rcases hword with rfl | rfl | rfl | rfl
  · exact ⟨.int, rfl⟩
  · exact ⟨.float, rfl⟩
  · exact ⟨.string, rfl⟩
  · exact ⟨.bool, rfl⟩

private theorem Shape.readable {kind : Kind} {raw rest : List Char}
    (h : Shape (some kind) raw rest) (line : Nat) :
    Token.Readable ⟨kind, text kind raw, line⟩ := by
  cases h with
  | lineComment | blockComment | string | int | identifier | illegal =>
      exact Token.readable_of_kind (by simp)
  | @float whole fraction _ hne hwhole hfraction =>
      refine ⟨fun hkind => absurd hkind (by simp), fun _ => ?_⟩
      cases whole with
      | nil => exact absurd rfl hne
      | cons digit digits =>
          exact Number.exists_float_of_isDigit (hwhole digit List.mem_cons_self)
            (List.all_eq_true.2 fun other hother =>
              hwhole other (List.mem_cons_of_mem _ hother))
            (List.all_eq_true.2 hfraction)
  | keyword hkeyword =>
      constructor
      · rintro rfl
        exact exists_of_keyword? hkeyword
      · rintro rfl
        exact absurd (mem_of_keyword? hkeyword) (by simp)
  | mark hkind =>
      have hmarks : ∀ kind ∈ markKinds, kind ≠ .typeName ∧ kind ≠ .float := by
        decide
      exact Token.readable_of_kind (hmarks kind hkind)

end Lexeme

/-! ## Lines -/

/-- A token that stands on one of the lines and can be read. -/
structure Token.Sound (lines : Nat → Prop) (token : Token) :
    Prop extends token.Readable where
  line : lines token.line

namespace Cursor

structure Bounded (last : Nat) (cursor : Cursor) : Prop where
  first : 1 ≤ cursor.line
  last : cursor.line + cursor.rest.count '\n' = last

private theorem Bounded.line_le {last : Nat} {cursor : Cursor}
    (h : Bounded last cursor) :
    1 ≤ cursor.line ∧ cursor.line ≤ last := by
  have hfirst := h.first
  have hlast := h.last
  omega

private theorem Bounded.advance {last line : Nat} {character : Char}
    {characters : List Char} (h : Bounded last ⟨character :: characters, line⟩)
    (extra : Nat) :
    Bounded last ⟨characters.drop extra,
        line + (character :: characters.take extra).count '\n'⟩ := by
  have hcount : (character :: characters.take extra).count '\n' +
        (characters.drop extra).count '\n' =
      (character :: characters).count '\n' := by
    rw [← List.count_append, List.cons_append, List.take_append_drop]
  have hfirst : 1 ≤ line := h.first
  have hlast : line + (character :: characters).count '\n' = last := h.last
  constructor
  · simp only
    omega
  · simp only
    omega

private theorem sound_nextFrom {last line : Nat} {characters : List Char}
    (h : Bounded last ⟨characters, line⟩) :
    (nextFrom line characters).1.Sound (fun line => 1 ≤ line ∧ line ≤ last) ∧
      Bounded last (nextFrom line characters).2 := by
  fun_induction nextFrom line characters with
  | case1 line =>
      exact ⟨⟨Token.readable_of_kind (by simp [Token.eof]), h.line_le⟩, h⟩
  | case2 line character characters lexeme raw after hkind ih =>
      exact ih (h.advance lexeme.extra)
  | case3 line character characters lexeme raw after kind hkind hcomment ih =>
      exact ih (h.advance lexeme.extra)
  | case4 line character characters lexeme raw after kind hkind hcomment =>
      have hshape := Lexeme.shape_first character characters
      rw [show (Lexeme.first character characters).kind? = some kind from
        hkind] at hshape
      exact ⟨⟨hshape.readable line, h.line_le⟩, h.advance lexeme.extra⟩

end Cursor

def LineOf (text : String) (line : Nat) : Prop :=
  1 ≤ line ∧ line ≤ 1 + text.toList.count '\n'

theorem sound_tokens (text : String) :
    (∀ token ∈ TokenStream.tokens (Cursor.ofString text),
        token.Sound (LineOf text)) ∧
      LineOf text (TokenStream.endLine (Cursor.ofString text)) := by
  have hstart :
      Cursor.Bounded (1 + text.toList.count '\n') (Cursor.ofString text) :=
    ⟨Nat.le_refl 1, rfl⟩
  obtain ⟨htokens, last, hlast, hline⟩ :=
    TokenStream.good_of_next (fun cursor hcursor => Cursor.sound_nextFrom hcursor)
      (Cursor.ofString text) hstart
  exact ⟨htokens, hline ▸ hlast.line⟩

end ExprLang
