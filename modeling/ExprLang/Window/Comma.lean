import ExprLang.Window.Depth

/-!
# Comma-separated pieces

A window is cut at the commas that stand at top level.  There is always at least one
piece, and pieces may be empty.
-/

namespace ExprLang.Comma

def consHead (token : Token) : List (List Token) → List (List Token)
  | [] => [[token]]
  | piece :: pieces => (token :: piece) :: pieces

def piecesFrom (depth : Depth) : List Token → List (List Token)
  | [] => [[]]
  | token :: rest =>
      let depth := depth.step token.kind
      if token.kind = .comma ∧ depth.atTop then [] :: piecesFrom depth rest
      else consHead token (piecesFrom depth rest)

def pieces (tokens : List Token) : List (List Token) := piecesFrom .zero tokens

/-- The expressions of a list that may be empty: no tokens make no piece. -/
def items (tokens : List Token) : List (List Token) :=
  if tokens.isEmpty then [] else pieces tokens

private theorem length_le_of_mem_piecesFrom {depth : Depth}
    {tokens piece : List Token} (h : piece ∈ piecesFrom depth tokens) :
    piece.length ≤ tokens.length := by
  induction tokens generalizing depth piece with
  | nil => simp_all [piecesFrom]
  | cons token rest ih =>
      simp only [piecesFrom] at h
      split at h
      · rcases List.mem_cons.1 h with rfl | h
        · simp
        · exact Nat.le_succ_of_le (ih h)
      · generalize hpieces : piecesFrom (depth.step token.kind) rest = tail at h
        cases tail with
        | nil =>
            simp only [consHead, List.mem_singleton] at h
            subst h
            simp
        | cons head tail =>
            rcases List.mem_cons.1 h with rfl | h
            · have : head.length ≤ rest.length := ih (hpieces ▸ List.mem_cons_self)
              simpa using this
            · exact Nat.le_succ_of_le (ih (hpieces ▸ List.mem_cons_of_mem _ h))

private theorem length_le_of_mem_pieces {tokens piece : List Token}
    (h : piece ∈ pieces tokens) :
    piece.length ≤ tokens.length :=
  length_le_of_mem_piecesFrom h

theorem length_le_of_mem_items {tokens piece : List Token}
    (h : piece ∈ items tokens) :
    piece.length ≤ tokens.length := by
  unfold items at h
  split at h
  · cases h
  · exact length_le_of_mem_pieces h

def weight : List (List Token) → Nat
  | [] => 0
  | piece :: pieces => piece.length + 1 + weight pieces

private theorem weight_consHead (token : Token) (pieces : List (List Token))
    (h : pieces ≠ []) :
    weight (consHead token pieces) = weight pieces + 1 := by
  cases pieces with
  | nil => exact absurd rfl h
  | cons piece pieces =>
      simp [weight, consHead]
      omega

theorem piecesFrom_ne_nil (depth : Depth) (tokens : List Token) :
    piecesFrom depth tokens ≠ [] := by
  cases tokens with
  | nil => simp [piecesFrom]
  | cons token rest =>
      simp only [piecesFrom]
      split
      · simp
      · cases piecesFrom (depth.step token.kind) rest <;> simp [consHead]

private theorem weight_piecesFrom (depth : Depth) (tokens : List Token) :
    weight (piecesFrom depth tokens) = tokens.length + 1 := by
  induction tokens generalizing depth with
  | nil => simp [weight, piecesFrom]
  | cons token rest ih =>
      simp only [piecesFrom]
      split
      · have := ih (depth.step token.kind)
        simp [weight] at this ⊢
        omega
      · rw [weight_consHead token _ (piecesFrom_ne_nil _ _), ih]
        simp

theorem weight_pieces (tokens : List Token) :
    weight (pieces tokens) = tokens.length + 1 :=
  weight_piecesFrom .zero tokens

end ExprLang.Comma
