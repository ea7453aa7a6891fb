import ExprLang.Proofs.Ty.Hole
import ExprLang.Proofs.Window.Nested
import ExprLang.Ty.Literal

/-!
# Type literals are read back

The tokens of the text of a type, and what reading makes of them.
-/

namespace ExprLang

namespace Ty

mutual

/-- The tokens of a type, all on one line.  A hole has none. -/
def tokens (line : Nat) : Ty → List Token
  | .primitive base => [⟨.typeName, base.name, line⟩]
  | .array element => .ofKind .arrayMark line :: element.tokens line
  | .function arguments returns _ =>
      .ofKind (.opening .paren) line ::
        (Comma.join line (tokensAll line arguments) ++
          .ofKind (.closing .paren) line :: .ofKind .arrow line ::
            .ofKind (.opening .paren) line ::
            (Comma.join line (tokensAll line returns) ++
              [.ofKind (.closing .paren) line]))
  | .hole _ => []

def tokensAll (line : Nat) : List Ty → List (List Token)
  | [] => []
  | type :: types => type.tokens line :: tokensAll line types

end

private theorem tokens_ne_nil {type : Ty} (h : type.hasHole = false) (line : Nat) :
    type.tokens line ≠ [] := by
  cases type <;> simp_all [tokens, hasHole]

def IsPart (kind : Kind) : Prop :=
  kind = .typeName ∨ kind = .arrayMark ∨ kind = .arrow

theorem IsPart.ne_comma {kind : Kind} (h : IsPart kind) : kind ≠ .comma := by
  rintro rfl
  simp [IsPart] at h

theorem nested_join_of_parts (line : Nat) {windows : List (List Token)}
    (h : ∀ window ∈ windows, Nested IsPart window) :
    Nested (fun _ => True) (Comma.join line windows) :=
  Comma.nested_join line
    (fun window hwindow => (h window hwindow).mono fun _ _ => trivial) trivial

mutual

theorem nested_tokens (line : Nat) : (type : Ty) → Nested IsPart (type.tokens line)
  | .primitive base => .single rfl (.inl rfl)
  | .array element => .token rfl (.inr (.inl rfl)) (nested_tokens line element)
  | .hole _ => .nil
  | .function arguments returns _ => by
      have harguments :=
        nested_join_of_parts line (nested_of_mem_tokensAll line arguments)
      have hreturns :=
        nested_join_of_parts line (nested_of_mem_tokensAll line returns)
      exact .wrap rfl rfl harguments
        (.token rfl (.inr (.inr rfl)) (hreturns.enclosed rfl rfl))

theorem nested_of_mem_tokensAll (line : Nat) :
    (types : List Ty) → ∀ window ∈ tokensAll line types, Nested IsPart window
  | [] => by simp [tokensAll]
  | type :: types => by
      intro window h
      rcases List.mem_cons.1 h with rfl | h
      · exact nested_tokens line type
      · exact nested_of_mem_tokensAll line types window h

end

theorem nested_join_tokensAll (line : Nat) (types : List Ty) :
    Nested (fun _ => True) (Comma.join line (tokensAll line types)) :=
  nested_join_of_parts line (nested_of_mem_tokensAll line types)

end Ty

namespace TypeLiteral

open Ty

private theorem ofTokens?_function (line : Nat) (arguments returns : List Ty)
    (index : Option UInt32) (rest : List Token) :
    FunctionTypeCut.ofTokens? ((Ty.function arguments returns index).tokens line ++
        rest) =
      some ⟨Comma.join line (tokensAll line arguments),
        Comma.join line (tokensAll line returns), rest⟩ := by
  have hfirst :=
    Enclosed.ofBracket?_ofKind (nested_join_tokensAll line arguments) .paren line
  have hsecond :=
    Enclosed.ofBracket?_ofKind (nested_join_tokensAll line returns) .paren line
  simp [FunctionTypeCut.ofTokens?, Ty.tokens, hfirst, hsecond]

theorem readList_join (line : Nat) (types : List Ty) :
    readList (Comma.join line (tokensAll line types)) =
      readPieces (tokensAll line types) := by
  cases types with
  | nil =>
      simp [readList, Comma.join, Comma.pieces, Comma.piecesFrom, tokensAll,
        readPieces]
  | cons type types =>
      have hnested : ∀ window ∈ tokensAll line (type :: types),
          Nested (· ≠ .comma) window :=
        fun window hwindow =>
          (nested_of_mem_tokensAll line _ window hwindow).mono fun _ hpart =>
            hpart.ne_comma
      rw [readList, Comma.pieces_join line (by simp [tokensAll]) hnested]

private theorem read_function {line : Nat}
    {arguments returns newArguments newReturns : List Ty} {index : Option UInt32}
    (rest : List Token)
    (harguments : readPieces (tokensAll line arguments) = .ok newArguments)
    (hreturns : readPieces (tokensAll line returns) = .ok newReturns) :
    read ((Ty.function arguments returns index).tokens line ++ rest) =
      .ok (some (.function newArguments newReturns none, rest)) := by
  have hcut := ofTokens?_function line arguments returns index rest
  simp only [Ty.tokens, List.cons_append] at hcut ⊢
  rw [read_eq_cut (by simp) (by simp), hcut]
  rw [← readList_join] at harguments hreturns
  simp only [readList] at harguments hreturns
  simp [harguments, hreturns, bind, Except.bind, pure, Except.pure]

mutual

theorem read_tokens (line : Nat) :
    (type : Ty) → type.hasHole = false →
      ∀ rest : List Token,
        read (type.tokens line ++ rest) = .ok (some (type.plain, rest))
  | .primitive base, _, rest => by
      rw [Ty.tokens, List.singleton_append, read]
      cases base <;> rfl
  | .array element, h, rest => by
      have helement := read_tokens line element (by simpa [hasHole] using h) rest
      rw [Ty.tokens, List.cons_append, read]
      simp [helement, bind, Except.bind, pure, Except.pure, plain]
  | .hole _, h, _ => by simp [hasHole] at h
  | .function arguments returns index, h, rest => by
      simp only [hasHole, Bool.or_eq_false_iff] at h
      exact read_function rest (readPieces_tokensAll line arguments h.1)
        (readPieces_tokensAll line returns h.2)

theorem readPieces_tokensAll (line : Nat) :
    (types : List Ty) → anyHasHole types = false →
      readPieces (tokensAll line types) = .ok (plainAll types)
  | [], _ => by simp [tokensAll, readPieces, plainAll]
  | type :: types, h => by
      simp only [anyHasHole, Bool.or_eq_false_iff] at h
      have htype := read_tokens line type h.1 []
      have htypes := readPieces_tokensAll line types h.2
      obtain ⟨first, others, hcons⟩ :=
        List.exists_cons_of_ne_nil (tokens_ne_nil h.1 line)
      rw [List.append_nil, hcons] at htype
      rw [tokensAll, hcons, readPieces]
      simp [htype, htypes, bind, Except.bind, pure, Except.pure, plainAll]

end

theorem readAt_append (before : List Token) {tokens rest : List Token} {type : Ty}
    (h : read (tokens ++ rest) = .ok (some (type, rest))) :
    readAt (before ++ tokens ++ rest) before.length =
      .ok (some (type, before.length + tokens.length)) := by
  have hnext : (before ++ tokens ++ rest).length - rest.length =
      before.length + tokens.length := by
    simp only [List.length_append]
    omega
  rw [readAt, List.append_assoc, List.drop_left, h, ← List.append_assoc]
  simp only [bind, Except.bind, pure, Except.pure, hnext]

end TypeLiteral

end ExprLang
