import ExprLang.Token.Basic

/-!
# Token streams

A token stream hands out tokens one at a time; past its last token it hands out the
end token for ever.  `TokenStream.tokens` collects what stands before the end,
`TokenStream.endLine` is the line of the end token.  `Listed` is the stream of a
given list, `PushBack` adds to any stream the possibility to return tokens to it.
-/

namespace ExprLang

class TokenStream (σ : Type) where
  next : σ → Token × σ
  /-- A bound on the tokens that are left. -/
  remaining : σ → Nat
  remaining_next (stream : σ) :
    (next stream).1.kind ≠ .eof → remaining (next stream).2 < remaining stream

namespace TokenStream

variable {σ : Type} [TokenStream σ]

/-- The tokens before the first end token, and the line of that end token. -/
def collect (stream : σ) : List Token × Nat :=
  if _h : (next stream).1.kind = .eof then
    ([], (next stream).1.line)
  else
    let rest := collect (next stream).2
    ((next stream).1 :: rest.1, rest.2)
termination_by remaining stream
decreasing_by exact remaining_next stream ‹_›

def tokens (stream : σ) : List Token := (collect stream).1

def endLine (stream : σ) : Nat := (collect stream).2

theorem collect_of_eof {stream : σ} (h : (next stream).1.kind = .eof) :
    collect stream = ([], (next stream).1.line) := by
  rw [collect, dif_pos h]

theorem collect_of_ne_eof {stream : σ} (h : (next stream).1.kind ≠ .eof) :
    collect stream =
      ((next stream).1 :: tokens (next stream).2, endLine (next stream).2) := by
  rw [collect, dif_neg h]
  rfl

end TokenStream

/-! ## The stream of a list -/

structure Listed where
  tokens : List Token
  endLine : Nat
  deriving DecidableEq, Repr

namespace Listed

def next (stream : Listed) : Token × Listed :=
  match stream.tokens with
  | [] => (.eof stream.endLine, stream)
  | token :: rest => (token, { stream with tokens := rest })

instance : TokenStream Listed where
  next := next
  remaining stream := stream.tokens.length
  remaining_next stream h := by
    cases stream with
    | mk tokens endLine =>
        cases tokens with
        | nil => exact absurd rfl h
        | cons token rest => exact Nat.lt_succ_self rest.length

theorem collect_cons {token : Token} (h : token.kind ≠ .eof) (rest : List Token)
    (endLine : Nat) :
    TokenStream.collect (Listed.mk (token :: rest) endLine) =
      (token :: TokenStream.tokens (Listed.mk rest endLine),
        TokenStream.endLine (Listed.mk rest endLine)) :=
  TokenStream.collect_of_ne_eof h

theorem tokens_eq_takeWhile (tokens : List Token) (endLine : Nat) :
    TokenStream.tokens (Listed.mk tokens endLine) =
      tokens.takeWhile (·.kind ≠ .eof) := by
  induction tokens with
  | nil =>
      simp [TokenStream.tokens, TokenStream.collect, TokenStream.next, next,
        Token.eof]
  | cons token rest ih =>
      rw [TokenStream.tokens, TokenStream.collect]
      simp only [TokenStream.next, next, List.takeWhile_cons]
      by_cases h : token.kind = .eof
      · simp [h]
      · simpa [h, TokenStream.tokens] using ih

theorem length_tokens_le (stream : Listed) :
    (TokenStream.tokens stream).length ≤ stream.tokens.length := by
  rw [tokens_eq_takeWhile stream.tokens stream.endLine]
  exact (List.takeWhile_sublist _).length_le

end Listed

/-! ## Returned tokens -/

structure PushBack (σ : Type) where
  pending : List Token
  stream : σ

namespace PushBack

variable {σ : Type}

def ofStream (stream : σ) : PushBack σ := ⟨[], stream⟩

/-- Returned tokens come out again before everything else, in the order given. -/
def push (tokens : List Token) (source : PushBack σ) : PushBack σ :=
  { source with pending := tokens ++ source.pending }

variable [TokenStream σ]

def next (source : PushBack σ) : Token × PushBack σ :=
  match source.pending with
  | token :: pending => (token, { source with pending := pending })
  | [] =>
      let step := TokenStream.next source.stream
      (step.1, { source with stream := step.2 })

instance : TokenStream (PushBack σ) where
  next := next
  remaining source := source.pending.length + TokenStream.remaining source.stream
  remaining_next source h := by
    cases source with
    | mk pending stream =>
        cases pending with
        | nil => simpa [next] using TokenStream.remaining_next stream h
        | cons token pending => simp [next]

end PushBack

end ExprLang
