import ExprLang.Json.Basic
import ExprLang.Number.Layout
import ExprLang.Text.Escape

/-!
# Printed JSON

One item or field a line, indented by two blanks a level; empty arrays and objects
stay on one line.
-/

namespace ExprLang.Json

/-- Floating-point numbers are positional from `0.00001` up to sixteen digits before
the point. -/
def printedNumber : NumberLayout := ⟨-5, 15, "+", .toEven⟩

def escapeChar (character : Char) : List Char :=
  if character = '"' ∨ character = '\\' then ['\\', character]
  else if character = '\n' then ['\\', 'n']
  else if character = '\r' then ['\\', 'r']
  else if character = '\t' then ['\\', 't']
  else if character = '\x08' then ['\\', 'b']
  else if character = '\x0c' then ['\\', 'f']
  else if character.toNat < 0x20 then
    let digits := Text.hexadecimal character.toNat
    ['\\', 'u'] ++ List.replicate (4 - digits.length) '0' ++ digits
  else [character]

def quote (text : String) : String :=
  "\"" ++ String.ofList (text.toList.flatMap escapeChar) ++ "\""

def newline (depth : Nat) : String :=
  "\n" ++ String.ofList (List.replicate (2 * depth) ' ')

def enclose (opener closer : String) (depth : Nat) (lines : List String) : String :=
  if lines.isEmpty then opener ++ closer
  else
    opener ++ newline (depth + 1) ++
      String.intercalate ("," ++ newline (depth + 1)) lines ++ newline depth ++
      closer

def printInteger (value : Int) : String :=
  if value < 0 then "-" ++ Nat.repr value.natAbs else Nat.repr value.natAbs

mutual

def printAt (depth : Nat) : Json → String
  | .null => "null"
  | .bool value => if value then "true" else "false"
  | .integer value => printInteger value
  | .real value => if value.isFinite then printedNumber.render value else "null"
  | .string value => quote value
  | .array items => enclose "[" "]" depth (printItems (depth + 1) items)
  | .object fields => enclose "\x7b" "\x7d" depth (printFields (depth + 1) fields)

def printItems (depth : Nat) : List Json → List String
  | [] => []
  | item :: items => printAt depth item :: printItems depth items

def printFields (depth : Nat) : List (String × Json) → List String
  | [] => []
  | (name, value) :: fields =>
      (quote name ++ ": " ++ printAt depth value) :: printFields depth fields

end

def print (json : Json) : String := printAt 0 json

end ExprLang.Json
