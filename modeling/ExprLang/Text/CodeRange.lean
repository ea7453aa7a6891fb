/-!
# Ranges of code points

A character class outside ASCII is a table of closed ranges.
-/

namespace ExprLang.Text

structure CodeRange where
  first : Nat
  last : Nat
  deriving DecidableEq, Repr

namespace CodeRange

def contains (range : CodeRange) (codePoint : Nat) : Bool :=
  range.first ≤ codePoint && codePoint ≤ range.last

/-- A table speaks about characters outside ASCII only. -/
def covers (ranges : List CodeRange) (character : Char) : Bool :=
  128 ≤ character.toNat && ranges.any (·.contains character.toNat)

end CodeRange

end ExprLang.Text
