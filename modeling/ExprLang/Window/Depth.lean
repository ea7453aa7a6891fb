import ExprLang.Token.Basic

/-!
# Bracket depth

A scan of a window counts each pair of brackets on its own.  The counts may become
negative; a position is at top level when all three are zero.
-/

namespace ExprLang

structure Depth where
  paren : Int
  brace : Int
  square : Int
  deriving DecidableEq, Repr

namespace Depth

def zero : Depth := ⟨0, 0, 0⟩

def add (depth : Depth) (bracket : Bracket) (amount : Int) : Depth :=
  match bracket with
  | .paren => { depth with paren := depth.paren + amount }
  | .brace => { depth with brace := depth.brace + amount }
  | .square => { depth with square := depth.square + amount }

def step (depth : Depth) : Kind → Depth
  | .opening bracket => depth.add bracket 1
  | .closing bracket => depth.add bracket (-1)
  | _ => depth

def atTop (depth : Depth) : Bool :=
  depth.paren = 0 && depth.brace = 0 && depth.square = 0

def after (depth : Depth) (tokens : List Token) : Depth :=
  tokens.foldl (fun depth token => depth.step token.kind) depth

/-- The first pair whose count is off: parentheses, then braces, then square
brackets. -/
def uneven? (depth : Depth) : Option Bracket :=
  if depth.paren ≠ 0 then some .paren
  else if depth.brace ≠ 0 then some .brace
  else if depth.square ≠ 0 then some .square
  else none

end Depth

end ExprLang
