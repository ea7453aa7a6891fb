/-!
# Escaped text

Printable ASCII stands for itself, tab, line breaks, quotes and the backslash take a
backslash, every other character is written by its code point in braces.
-/

namespace ExprLang.Text

def hexadecimal (number : Nat) : List Char := Nat.toDigits 16 number

def isPrintable (character : Char) : Bool :=
  0x20 ≤ character.toNat && character.toNat ≤ 0x7e

def escapeChar (character : Char) : List Char :=
  if character = '\t' then ['\\', 't']
  else if character = '\r' then ['\\', 'r']
  else if character = '\n' then ['\\', 'n']
  else if character = '\'' ∨ character = '"' ∨ character = '\\' then
    ['\\', character]
  else if isPrintable character then [character]
  else ['\\', 'u', '\x7b'] ++ hexadecimal character.toNat ++ ['\x7d']

def escape (text : String) : String :=
  String.ofList (text.toList.flatMap escapeChar)

end ExprLang.Text
