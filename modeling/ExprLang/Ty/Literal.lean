import ExprLang.ParseError
import ExprLang.Ty.Basic
import ExprLang.Window.Comma
import ExprLang.Window.Enclosed

/-!
# Type literals

A type literal is the name of a primitive type, the mark `[]` before a literal, or
two parenthesised lists of literals with an arrow between them.  `TypeLiteral.read`
takes a literal off the head of a list of tokens; `none` says that no literal begins
there.
-/

namespace ExprLang

/-! ## Function types in a window -/

structure FunctionTypeCut where
  arguments : List Token
  returns : List Token
  rest : List Token

namespace FunctionTypeCut

def ofTokens? (tokens : List Token) : Option FunctionTypeCut := do
  let arguments ← Enclosed.ofBracket? .paren tokens
  match arguments.rest with
  | [] => none
  | arrow :: afterArrow =>
      if arrow.kind ≠ .arrow then none
      else do
        let returns ← Enclosed.ofBracket? .paren afterArrow
        return ⟨arguments.inner, returns.inner, returns.rest⟩

theorem length_of_ofTokens? {tokens : List Token} {cut : FunctionTypeCut}
    (h : ofTokens? tokens = some cut) :
    tokens.length =
      cut.arguments.length + cut.returns.length + cut.rest.length + 5 := by
  unfold ofTokens? at h
  obtain ⟨arguments, harguments, h⟩ := Option.bind_eq_some_iff.1 h
  have first := Enclosed.length_of_ofTokens? harguments
  split at h
  · cases h
  · rename_i arrow afterArrow hrest
    rw [hrest] at first
    split at h
    · cases h
    · obtain ⟨returns, hreturns, h⟩ := Option.bind_eq_some_iff.1 h
      cases h
      have second := Enclosed.length_of_ofTokens? hreturns
      simp at *
      omega

end FunctionTypeCut

/-! ## Reading -/

namespace TypeLiteral

mutual

def read (tokens : List Token) : Except ParseError (Option (Ty × List Token)) :=
  match tokens with
  | [] => .ok none
  | token :: rest =>
      match token.kind with
      | .typeName =>
          match Primitive.ofName? token.text with
          | some primitive => .ok (some (.primitive primitive, rest))
          | none => .error (.unknownTypeName token.text)
      | .arrayMark => do
          match ← read rest with
          | some (element, after) => return some (.array element, after)
          | none =>
              throw (.unexpected token.line (describeHead "end of type" rest)
                .elementType)
      | _ =>
          match _h : FunctionTypeCut.ofTokens? (token :: rest) with
          | none => .ok none
          | some cut => do
              let arguments ← readPieces (Comma.pieces cut.arguments)
              let returns ← readPieces (Comma.pieces cut.returns)
              return some (.function arguments returns none, cut.rest)
termination_by tokens.length
decreasing_by
  · simp
  · have := FunctionTypeCut.length_of_ofTokens? ‹_›
    simp [Comma.weight_pieces] at *
    omega
  · have := FunctionTypeCut.length_of_ofTokens? ‹_›
    simp [Comma.weight_pieces] at *
    omega

/-- Every piece that is not empty is a whole literal. -/
def readPieces (pieces : List (List Token)) : Except ParseError (List Ty) :=
  match pieces with
  | [] => .ok []
  | [] :: pieces => readPieces pieces
  | (first :: others) :: pieces => do
      match ← read (first :: others) with
      | some (type, []) => return type :: (← readPieces pieces)
      | some (_, extra :: _) => throw (.ofToken extra)
      | none => throw (.unexpected first.line first.describe .type)
termination_by Comma.weight pieces
decreasing_by all_goals simp [Comma.weight] <;> omega

end

theorem read_eq_cut {token : Token} {rest : List Token}
    (htypeName : token.kind ≠ .typeName) (harrayMark : token.kind ≠ .arrayMark) :
    read (token :: rest) =
      (FunctionTypeCut.ofTokens? (token :: rest)).elim (.ok none) fun cut => do
      let arguments ← readPieces (Comma.pieces cut.arguments)
      let returns ← readPieces (Comma.pieces cut.returns)
      return some (.function arguments returns none, cut.rest) := by
  rw [read]
  split
  · exact (htypeName ‹_›).elim
  · exact (harrayMark ‹_›).elim
  · split
    · rename_i hcut
      rw [hcut]
      rfl
    · rename_i hcut
      rw [hcut]
      rfl

/-- A comma-separated list of literals; no tokens make no types. -/
def readList (tokens : List Token) : Except ParseError (List Ty) :=
  readPieces (Comma.pieces tokens)

def readAt (tokens : List Token) (position : Nat) :
    Except ParseError (Option (Ty × Nat)) := do
  match ← read (tokens.drop position) with
  | some (type, rest) => return some (type, tokens.length - rest.length)
  | none => return none

theorem length_of_read {tokens rest : List Token} {type : Ty}
    (h : read tokens = .ok (some (type, rest))) : rest.length < tokens.length := by
  induction tokens generalizing type rest with
  | nil => simp [read] at h
  | cons token tail ih =>
      unfold read at h
      split at h
      · split at h
        · cases h
          simp
        · cases h
      · cases hread : read tail with
        | error error => simp [hread, bind, Except.bind] at h
        | ok result =>
            cases result with
            | none =>
                simp [hread, bind, Except.bind, throw, throwThe,
                  MonadExceptOf.throw] at h
            | some pair =>
                simp only [hread, bind, Except.bind, pure, Except.pure] at h
                cases h
                have := ih hread
                simp
                omega
      · split at h
        · cases h
        · rename_i cut hcut
          have := FunctionTypeCut.length_of_ofTokens? hcut
          cases harguments : readPieces (Comma.pieces cut.arguments) with
          | error error => simp [harguments, bind, Except.bind] at h
          | ok arguments =>
              cases hreturns : readPieces (Comma.pieces cut.returns) with
              | error error => simp [harguments, hreturns, bind, Except.bind] at h
              | ok returns =>
                  simp only [harguments, hreturns, bind, Except.bind, pure,
                    Except.pure] at h
                  cases h
                  omega

end TypeLiteral

end ExprLang
