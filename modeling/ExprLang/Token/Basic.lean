import ExprLang.Text.Escape
import ExprLang.Token.Kind

/-!
# Tokens

A token is a kind, its text and the line on which it begins.  The text of a string
literal is its content, without quotes and with escapes resolved.
-/

namespace ExprLang

structure Token where
  kind : Kind
  text : String
  line : Nat
  deriving DecidableEq, Repr

namespace Token

/-- A token that stands in no source text takes the spelling of its kind. -/
def ofKind (kind : Kind) (line : Nat) : Token := ⟨kind, kind.spelling, line⟩

def eof (line : Nat) : Token := ⟨.eof, "", line⟩

def describe (token : Token) : String :=
  match token.kind with
  | .eof => "end of file"
  | .newline => "end of line"
  | .string => "string \"" ++ Text.escape token.text ++ "\""
  | _ => "'" ++ token.text ++ "'"

def listing (token : Token) : String :=
  token.kind.name ++ ":" ++ Text.escape token.text ++ ":" ++ Nat.repr token.line

end Token

end ExprLang
