import ExprLang.Proofs.Token.Shape
import ExprLang.Tree.Parser

/-!
# Streams in lock step

A reader of a source asks for tokens and returns tokens.  Two streams are in lock
step when they hand out the same token and are in lock step after it; then no reader
can tell them apart, and they give the same program.

The tokens of a text that are read while the text is scanned are in lock step with
the list of all its tokens.
-/

namespace ExprLang

open TokenStream

inductive Request where
  | next
  | push (tokens : List Token)

/-- What a plain list answers to requests: tokens are taken from its head and
returned to its head, and once it is empty the end token is handed out. -/
def Request.replay (endLine : Nat) : List Request → List Token → List Token
  | [], _ => []
  | .next :: requests, [] => .eof endLine :: replay endLine requests []
  | .next :: requests, token :: tokens => token :: replay endLine requests tokens
  | .push returned :: requests, tokens =>
      replay endLine requests (returned ++ tokens)

namespace PushBack

variable {σ : Type} [TokenStream σ]

def serve (source : PushBack σ) : Request → PushBack σ
  | .next => source.next.2
  | .push tokens => source.push tokens

def serveAll (source : PushBack σ) (requests : List Request) : PushBack σ :=
  requests.foldl serve source

def answers (source : PushBack σ) : List Request → List Token
  | [] => []
  | .next :: requests => source.next.1 :: answers source.next.2 requests
  | .push tokens :: requests => answers (source.push tokens) requests

private theorem answers_listed (endLine : Nat) (requests : List Request)
    (pending tokens : List Token) :
    answers ⟨pending, Listed.mk tokens endLine⟩ requests =
      Request.replay endLine requests (pending ++ tokens) := by
  induction requests generalizing pending tokens with
  | nil => rfl
  | cons request requests ih =>
      cases request with
      | push returned =>
          rw [answers, Request.replay, ← List.append_assoc]
          exact ih (returned ++ pending) tokens
      | next =>
          cases pending with
          | cons token pending => exact congrArg (token :: ·) (ih pending tokens)
          | nil =>
              cases tokens with
              | nil => exact congrArg (Token.eof endLine :: ·) (ih [] [])
              | cons token tokens => exact congrArg (token :: ·) (ih [] tokens)

end PushBack

/-! ## Lock step -/

/-- Related streams hand out the same token and stay related. -/
structure Lockstep {σ τ : Type} [TokenStream σ] [TokenStream τ]
    (related : σ → τ → Prop) : Prop where
  token_eq {left : σ} {right : τ} (h : related left right) :
    (next left).1 = (next right).1
  advance {left : σ} {right : τ} (h : related left right) :
    related (next left).2 (next right).2

namespace Lockstep

variable {σ τ : Type} [TokenStream σ] [TokenStream τ] {related : σ → τ → Prop}

theorem collect_eq (hlockstep : Lockstep related) {left : σ} {right : τ}
    (h : related left right) :
    collect left = collect right := by
  induction left using collect.induct generalizing right with
  | case1 left hend =>
      have htoken := hlockstep.token_eq h
      rw [collect_of_eof hend, collect_of_eof (htoken ▸ hend), htoken]
  | case2 left hend ih =>
      have htoken := hlockstep.token_eq h
      rw [collect_of_ne_eof hend, collect_of_ne_eof (htoken ▸ hend), htoken, tokens,
        tokens, endLine, endLine, ih (hlockstep.advance h)]

theorem drafts_eq (hlockstep : Lockstep related) {left : σ} {right : τ}
    (h : related left right) :
    Drafts.ofStream left = Drafts.ofStream right := by
  rw [Drafts.ofStream, Drafts.ofStream, tokens, tokens, endLine, endLine,
    hlockstep.collect_eq h]

theorem ofStream_eq (hlockstep : Lockstep related) {left : σ} {right : τ}
    (h : related left right) :
    Program.ofStream left = Program.ofStream right := by
  rw [Program.ofStream, Program.ofStream, hlockstep.drafts_eq h]

end Lockstep

namespace PushBack

variable {σ τ : Type}

structure Related (related : σ → τ → Prop) (left : PushBack σ)
    (right : PushBack τ) : Prop where
  pending_eq : left.pending = right.pending
  stream : related left.stream right.stream

variable {related : σ → τ → Prop}

private theorem Related.push {left : PushBack σ} {right : PushBack τ}
    (h : left.Related related right) (tokens : List Token) :
    (left.push tokens).Related related (right.push tokens) :=
  ⟨congrArg (tokens ++ ·) h.pending_eq, h.stream⟩

variable [TokenStream σ] [TokenStream τ]

theorem lockstep_related (hlockstep : Lockstep related) :
    Lockstep (Related related) where
  token_eq {left right} h := by
    obtain ⟨pending, left⟩ := left
    obtain ⟨_, right⟩ := right
    obtain ⟨rfl, hstream⟩ := h
    cases pending with
    | nil => exact hlockstep.token_eq hstream
    | cons token pending => rfl
  advance {left right} h := by
    obtain ⟨pending, left⟩ := left
    obtain ⟨_, right⟩ := right
    obtain ⟨rfl, hstream⟩ := h
    cases pending with
    | nil => exact ⟨rfl, hlockstep.advance hstream⟩
    | cons token pending => exact ⟨rfl, hstream⟩

theorem Related.serve (hlockstep : Lockstep related) {left : PushBack σ}
    {right : PushBack τ} (h : left.Related related right) (request : Request) :
    (left.serve request).Related related (right.serve request) := by
  cases request with
  | next => exact (lockstep_related hlockstep).advance h
  | push tokens => exact h.push tokens

private theorem Related.serveAll (hlockstep : Lockstep related) {left : PushBack σ}
    {right : PushBack τ} (h : left.Related related right)
    (requests : List Request) :
    (left.serveAll requests).Related related (right.serveAll requests) := by
  induction requests generalizing left right with
  | nil => exact h
  | cons request requests ih => exact ih (h.serve hlockstep request)

private theorem Related.answers_eq (hlockstep : Lockstep related)
    {left : PushBack σ} {right : PushBack τ} (h : left.Related related right)
    (requests : List Request) :
    left.answers requests = right.answers requests := by
  induction requests generalizing left right with
  | nil => rfl
  | cons request requests ih =>
      have hserved := ih (h.serve hlockstep request)
      cases request with
      | next =>
          have htoken : left.next.1 = right.next.1 :=
            (lockstep_related hlockstep).token_eq h
          rw [answers, answers, htoken]
          exact congrArg (right.next.1 :: ·) hserved
      | push tokens => exact hserved

theorem lockstep_ofStream :
    Lockstep fun (source : PushBack σ) (stream : σ) =>
      source = .ofStream stream where
  token_eq h := by rw [h]; rfl
  advance h := by rw [h]; rfl

private theorem ofStream_ofStream (stream : σ) :
    Program.ofStream (PushBack.ofStream stream) = Program.ofStream stream :=
  lockstep_ofStream.ofStream_eq rfl

end PushBack

/-! ## Texts -/

namespace Cursor

private theorem nextFrom_of_eof {line : Nat} {characters : List Char}
    (h : (nextFrom line characters).1.kind = .eof) :
    ∃ last, nextFrom line characters = (.eof last, ⟨[], last⟩) := by
  fun_induction nextFrom line characters with
  | case1 line => exact ⟨line, rfl⟩
  | case2 line character characters lexeme raw after hkind ih => exact ih h
  | case3 line character characters lexeme raw after kind hkind hcomment ih =>
      exact ih h
  | case4 line character characters lexeme raw after kind hkind hcomment =>
      -- no lexeme is an end token
      have hshape := Lexeme.shape_first character characters
      rw [show (Lexeme.first character characters).kind? = some kind from
        hkind] at hshape
      exact absurd h hshape.kind_ne_eof

def listed (cursor : Cursor) : Listed := ⟨tokens cursor, endLine cursor⟩

private theorem listed_of_eof {cursor : Cursor} (h : (next cursor).1.kind = .eof) :
    cursor.listed = ⟨[], (next cursor).1.line⟩ := by
  have hcollect : collect cursor = ([], (next cursor).1.line) := collect_of_eof h
  rw [listed, tokens, endLine, hcollect]

private theorem listed_of_ne_eof {cursor : Cursor}
    (h : (next cursor).1.kind ≠ .eof) :
    cursor.listed = ⟨(next cursor).1 :: (next cursor).2.listed.tokens,
        (next cursor).2.listed.endLine⟩ := by
  have hcollect : collect cursor =
      ((next cursor).1 :: tokens (next cursor).2, endLine (next cursor).2) :=
    collect_of_ne_eof h
  rw [listed, tokens, endLine, hcollect]
  rfl

private theorem lockstep_listed :
    Lockstep fun (cursor : Cursor) (stream : Listed) => stream = cursor.listed where
  token_eq {cursor stream} h := by
    subst h
    by_cases hend : (next cursor).1.kind = .eof
    · obtain ⟨last, hlast⟩ := nextFrom_of_eof hend
      rw [listed_of_eof hend]
      show (next cursor).1 = Token.eof (next cursor).1.line
      rw [show next cursor = _ from hlast]
      rfl
    · rw [listed_of_ne_eof hend]
      rfl
  advance {cursor stream} h := by
    subst h
    by_cases hend : (next cursor).1.kind = .eof
    · obtain ⟨last, hlast⟩ := nextFrom_of_eof hend
      have hnext : next cursor = (Token.eof last, Cursor.mk [] last) := hlast
      have hagain :
          next (Cursor.mk [] last) = (Token.eof last, Cursor.mk [] last) := by
        rw [next, nextFrom]
      show (TokenStream.next cursor.listed).2 = (next cursor).2.listed
      rw [listed_of_eof hend, hnext, listed_of_eof (by rw [hagain]; rfl), hagain]
      rfl
    · show (TokenStream.next cursor.listed).2 = (next cursor).2.listed
      rw [listed_of_ne_eof hend]
      rfl

end Cursor

/-- A source that scans a text and a source that has all its tokens answer every
sequence of requests alike: with the tokens that were returned last, then those of
the text, then the end token for ever.  A program read from either of them is the
same, and so is an error. -/
theorem sources_in_lockstep (text : String) :
    ∃ body endLine, tokenize text = body ++ [.eof endLine] ∧
      (∀ requests, (PushBack.ofStream (Cursor.ofString text)).answers requests =
          Request.replay endLine requests body ∧
        (PushBack.ofStream (Listed.mk body endLine)).answers requests =
          Request.replay endLine requests body ∧
        Program.ofStream
            ((PushBack.ofStream (Cursor.ofString text)).serveAll requests) =
          Program.ofStream
            ((PushBack.ofStream (Listed.mk body endLine)).serveAll requests)) ∧
      Program.ofString text = Program.ofTokens body endLine ∧
      Program.ofTokens body endLine =
        Program.ofStream (PushBack.ofStream (Listed.mk body endLine)) := by
  have hrelated : (PushBack.ofStream (Cursor.ofString text)).Related
      (fun cursor stream => stream = cursor.listed)
      (PushBack.ofStream (Cursor.ofString text).listed) := ⟨rfl, rfl⟩
  have hlisted := PushBack.answers_listed (endLine (Cursor.ofString text))
  refine ⟨tokens (Cursor.ofString text), endLine (Cursor.ofString text), rfl,
    fun requests => ⟨?_, ?_, ?_⟩, ?_, ?_⟩
  · rw [hrelated.answers_eq Cursor.lockstep_listed]
    exact hlisted requests [] _
  · exact hlisted requests [] _
  · exact (PushBack.lockstep_related Cursor.lockstep_listed).ofStream_eq
      (hrelated.serveAll Cursor.lockstep_listed requests)
  · exact Cursor.lockstep_listed.ofStream_eq rfl
  · exact (PushBack.ofStream_ofStream _).symm

end ExprLang
