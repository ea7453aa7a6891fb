import ExprLang.Token.Lexeme
import ExprLang.Token.Stream

/-!
# Tokens of a text

A cursor is the text still unread and the line it begins on.  `Cursor.next` skips
blanks and comments and hands out the next token; `tokenize` lists all tokens of a
text, the end token last.
-/

namespace ExprLang

structure Cursor where
  rest : List Char
  line : Nat
  deriving DecidableEq, Repr

namespace Cursor

def ofString (text : String) : Cursor := ⟨text.toList, 1⟩

def nextFrom (line : Nat) : List Char → Token × Cursor
  | [] => (.eof line, ⟨[], line⟩)
  | character :: characters =>
      let lexeme := Lexeme.first character characters
      let raw := character :: characters.take lexeme.extra
      let after := line + raw.count '\n'
      match lexeme.kind? with
      | none => nextFrom after (characters.drop lexeme.extra)
      | some kind =>
          if kind.isComment then nextFrom after (characters.drop lexeme.extra)
          else (⟨kind, Lexeme.text kind raw, line⟩,
            ⟨characters.drop lexeme.extra, after⟩)
termination_by characters => characters.length
decreasing_by all_goals simp only [List.length_drop, List.length_cons]; omega

/-- The next token, on the line where its raw text begins, and what is left after
it. -/
def next (cursor : Cursor) : Token × Cursor := nextFrom cursor.line cursor.rest

private theorem length_nextFrom_lt (line : Nat) (characters : List Char)
    (h : (nextFrom line characters).1.kind ≠ .eof) :
    (nextFrom line characters).2.rest.length < characters.length := by
  fun_induction nextFrom line characters with
  | case1 line => exact absurd rfl h
  | case2 line character characters lexeme raw after hkind ih =>
      have := ih h
      simp only [List.length_drop, List.length_cons] at this ⊢
      omega
  | case3 line character characters lexeme raw after kind hkind hcomment ih =>
      have := ih h
      simp only [List.length_drop, List.length_cons] at this ⊢
      omega
  | case4 line character characters lexeme raw after kind hkind hcomment =>
      simp only [List.length_drop, List.length_cons]
      omega

instance : TokenStream Cursor where
  next := next
  remaining cursor := cursor.rest.length
  remaining_next cursor h := length_nextFrom_lt cursor.line cursor.rest h

end Cursor

def tokenize (text : String) : List Token :=
  let stream := Cursor.ofString text
  TokenStream.tokens stream ++ [.eof (TokenStream.endLine stream)]

/-! ## Reading token by token -/

/-- A reader stops once it has handed out the end token; its cursor may also be read
directly, which goes on handing out the end token and does not stop the reader. -/
structure TokenReader where
  cursor : Cursor
  stopped : Bool
  deriving DecidableEq, Repr

namespace TokenReader

def ofString (text : String) : TokenReader := ⟨.ofString text, false⟩

def next? (reader : TokenReader) : Option Token × TokenReader :=
  if reader.stopped then (none, reader)
  else
    let step := reader.cursor.next
    (some step.1, ⟨step.2, step.1.kind = .eof⟩)

def nextToken (reader : TokenReader) : Token × TokenReader :=
  let step := reader.cursor.next
  (step.1, { reader with cursor := step.2 })

end TokenReader

end ExprLang
