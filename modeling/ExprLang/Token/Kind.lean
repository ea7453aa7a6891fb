import ExprLang.Operator

/-!
# Kinds of tokens

A kind is a punctuation mark, a keyword, an operator, one side of a bracket pair, a
class of literals or names, or one of the two marks that no lexeme carries: the end
of the text and a character that begins no token.
-/

namespace ExprLang

inductive Bracket where
  | paren
  | brace
  | square
  deriving DecidableEq, Repr

namespace Bracket

def opener : Bracket → String
  | .paren => "("
  | .brace => "\x7b"
  | .square => "["

def closer : Bracket → String
  | .paren => ")"
  | .brace => "\x7d"
  | .square => "]"

end Bracket

inductive Kind where
  | lineComment
  | blockComment
  | newline
  | typeName
  | arrayMark
  | returnWord
  | ifWord
  | elseWord
  | assign
  | arrow
  | bang
  | comma
  | colon
  | operator (op : Operator)
  | opening (bracket : Bracket)
  | closing (bracket : Bracket)
  | bool
  | int
  | float
  | string
  | identifier
  | eof
  | illegal
  deriving DecidableEq, Repr

namespace Kind

def spelling? : Kind → Option String
  | .newline => some "\n"
  | .arrayMark => some "[]"
  | .returnWord => some "return"
  | .ifWord => some "if"
  | .elseWord => some "else"
  | .assign => some "="
  | .arrow => some "->"
  | .bang => some "!"
  | .comma => some ","
  | .colon => some ":"
  | .operator op => some op.symbol
  | .opening bracket => some bracket.opener
  | .closing bracket => some bracket.closer
  | _ => none

def spelling (kind : Kind) : String := kind.spelling?.getD ""

def operator? : Kind → Option Operator
  | .operator op => some op
  | _ => none

def isOperator (kind : Kind) : Bool := kind.operator?.isSome

def isBracket : Kind → Bool
  | .opening _ | .closing _ => true
  | _ => false

def isComment : Kind → Bool
  | .lineComment | .blockComment => true
  | _ => false

/-- An application or a conditional takes every token that follows it in its
window. -/
def takesRest : Kind → Bool
  | .bang | .ifWord => true
  | _ => false

def name : Kind → String
  | .lineComment => "LINE_COMMENT"
  | .blockComment => "BLOCK_COMMENT"
  | .newline => "NEWLINE"
  | .typeName => "TYPE"
  | .arrayMark => "ARRAY_TYPE"
  | .returnWord => "RETURN"
  | .ifWord => "IF"
  | .elseWord => "ELSE"
  | .assign => "ASSIGN"
  | .arrow => "ARROW"
  | .bang => "BANG"
  | .comma => "COMMA"
  | .colon => "COLON"
  | .operator .add => "PLUS"
  | .operator .sub => "MINUS"
  | .operator .mul => "STAR"
  | .operator .div => "SLASH"
  | .operator .eq => "EQUAL"
  | .operator .notEq => "NOT_EQUAL"
  | .operator .or => "OR"
  | .operator .and => "AND"
  | .operator .greater => "GREATER"
  | .operator .greaterEq => "GREATER_EQUAL"
  | .operator .less => "LESS"
  | .operator .lessEq => "LESS_EQUAL"
  | .opening .brace => "LBRACE"
  | .closing .brace => "RBRACE"
  | .opening .paren => "LPAREN"
  | .closing .paren => "RPAREN"
  | .opening .square => "LBRACKET"
  | .closing .square => "RBRACKET"
  | .bool => "BOOL"
  | .int => "INT"
  | .float => "FLOAT"
  | .string => "STRING"
  | .identifier => "VARIABLE"
  | .eof => "EOF"
  | .illegal => "ILLEGAL"

end Kind

end ExprLang
