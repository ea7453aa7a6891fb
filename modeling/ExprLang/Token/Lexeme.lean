import ExprLang.Text.Letter
import ExprLang.Text.Digit
import ExprLang.Token.Kind

/-!
# Lexemes

A text is cut from the left into lexemes: runs of blanks, comments and the raw texts
of tokens.  `Lexeme.first` says what the lexeme at the head of a nonempty text is
and how many characters it takes after its first one.  The longest lexeme wins.
-/

namespace ExprLang

structure Lexeme where
  /-- `none` for a run of blanks. -/
  kind? : Option Kind
  /-- How many characters follow the first. -/
  extra : Nat
  deriving DecidableEq, Repr

namespace Lexeme

def isBlank (character : Char) : Bool :=
  character = ' ' || character = '\t' || character = '\r' || character = '\x0c'

/-! ## Words -/

def startsWord (character : Char) : Bool :=
  Text.isLetter character || character = '_'

def continuesWord (character : Char) : Bool :=
  Text.isLetter character || Text.isDecimalDigit character || character = '_'

def keyword? (word : List Char) : Option Kind :=
  if word = "return".toList then some .returnWord
  else if word = "if".toList then some .ifWord
  else if word = "else".toList then some .elseWord
  else if word = "true".toList ∨ word = "false".toList then some .bool
  else if word = "int".toList ∨ word = "float".toList ∨ word = "string".toList
      ∨ word = "bool".toList then some .typeName
  else none

/-- Characters outside ASCII whose first UTF-8 byte is also the first byte of a
letter or digit.  A word directly before such a character is never a keyword. -/
def blursWord (character : Char) : Bool :=
  0x80 ≤ character.toNat && character.toNat < 0x40000 &&
    !(0x300 ≤ character.toNat && character.toNat < 0x340) &&
    !(0xe000 ≤ character.toNat && character.toNat < 0xf000)

def word (first : Char) (rest : List Char) : Lexeme :=
  let tail := rest.takeWhile continuesWord
  let blurred := (rest.drop tail.length).head?.any blursWord
  let kind :=
    if blurred then .identifier else (keyword? (first :: tail)).getD .identifier
  ⟨some kind, tail.length⟩

/-! ## Numbers -/

/-- Digits, and after them at most one point with digits that may be missing. -/
def number (rest : List Char) : Lexeme :=
  let whole := (rest.takeWhile Char.isDigit).length
  match rest.drop whole with
  | '.' :: after => ⟨some .float, whole + 1 + (after.takeWhile Char.isDigit).length⟩
  | _ => ⟨some .int, whole⟩

/-! ## Strings -/

/-- The length of a string literal after its opening quote, closing quote included.
A backslash hides the next character; without a closing quote the literal takes all
that is left. -/
def stringLength : List Char → Nat
  | [] => 0
  | '"' :: _ => 1
  | '\\' :: _ :: rest => stringLength rest + 2
  | _ :: rest => stringLength rest + 1

def unescapeChar (character : Char) : Char :=
  if character = 'n' then '\n'
  else if character = 't' then '\t'
  else if character = 'r' then '\r'
  else if character = '0' then '\x00'
  else character

def unescape : List Char → List Char
  | [] => []
  | '"' :: _ => []
  | ['\\'] => []
  | '\\' :: character :: rest => unescapeChar character :: unescape rest
  | character :: rest => character :: unescape rest

/-! ## Comments -/

/-- The length of a block comment after its opening mark, with `depth` comments open
inside it.  Without its closing mark a comment takes all that is left. -/
def blockLength : Nat → List Char → Nat
  | _, [] => 0
  | depth, '/' :: '*' :: rest => blockLength (depth + 1) rest + 2
  | 0, '*' :: '/' :: _ => 2
  | depth + 1, '*' :: '/' :: rest => blockLength depth rest + 2
  | depth, _ :: rest => blockLength depth rest + 1

/-! ## Marks -/

def markKinds : List Kind := [
  .arrow, .arrayMark, .operator .eq, .operator .notEq, .operator .or,
    .operator .and,
  .operator .greaterEq, .operator .lessEq,
  .newline, .assign, .bang, .comma, .colon,
  .operator .add, .operator .sub, .operator .mul, .operator .div,
  .operator .greater, .operator .less,
  .opening .brace, .closing .brace, .opening .paren, .closing .paren,
  .opening .square, .closing .square]

def mark (first : Char) (rest : List Char) : Lexeme :=
  match markKinds.find?
      (fun kind => kind.spelling.toList.isPrefixOf (first :: rest)) with
  | some kind => ⟨some kind, kind.spelling.length - 1⟩
  | none => ⟨some .illegal, 0⟩

/-! ## The first lexeme of a text -/

def first (character : Char) (rest : List Char) : Lexeme :=
  if isBlank character then ⟨none, (rest.takeWhile isBlank).length⟩
  else if character = '/' ∧ rest.head? = some '/' then
    ⟨some .lineComment, (rest.takeWhile (· ≠ '\n')).length⟩
  else if character = '/' ∧ rest.head? = some '*' then
    ⟨some .blockComment, blockLength 0 rest.tail + 1⟩
  else if character = '"' then ⟨some .string, stringLength rest⟩
  else if character.isDigit then number rest
  else if startsWord character then word character rest
  else mark character rest

def text (kind : Kind) (raw : List Char) : String :=
  String.ofList (if kind = .string then unescape raw.tail else raw)

end Lexeme

end ExprLang
