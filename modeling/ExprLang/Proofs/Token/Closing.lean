import ExprLang.Proofs.Token.Shape

/-!
# Closing quotes

A string literal is read twice: once for its length, once for its content.  A reader
that goes from character to character and remembers whether a backslash hides the
next one comes to the same closing quote as one that takes a backslash together with
the character after it.  It is the first quote before which an even number of
backslashes stand in a row.
-/

namespace ExprLang.Lexeme

/-! ## Hidden characters -/

def hides (hidden : Bool) (character : Char) : Bool := !hidden && character = '\\'

def hiddenAfter (hidden : Bool) (text : List Char) : Bool := text.foldl hides hidden

def backslashes (text : List Char) : Nat :=
  (text.reverse.takeWhile (· = '\\')).length

/-- A character is hidden exactly if an odd number of backslashes stands before
it. -/
theorem hiddenAfter_eq (text : List Char) :
    hiddenAfter false text = decide (backslashes text % 2 = 1) := by
  rw [hiddenAfter, backslashes, List.foldl_eq_foldr_reverse]
  -- The flag after a text depends on its end, so the induction is on the reversed
  -- text.
  induction text.reverse with
  | nil => rfl
  | cons character text ih =>
      rw [List.foldr_cons, ih, hides]
      by_cases hbackslash : character = '\\'
      · rw [List.takeWhile_cons_of_pos (by simpa using hbackslash),
          List.length_cons]
        simp only [hbackslash, decide_true, Bool.and_true]
        rw [← decide_not, decide_eq_decide]
        omega
      · simp [hbackslash]

def ClosesFrom (hidden : Bool) (text : List Char) (position : Nat) : Prop :=
  text[position]? = some '"' ∧ hiddenAfter hidden (text.take position) = false

/-- A quote before which no odd number of backslashes stands in a row. -/
def ClosesAt (text : List Char) (position : Nat) : Prop :=
  text[position]? = some '"' ∧ ¬ backslashes (text.take position) % 2 = 1

private theorem closesFrom_false (text : List Char) :
    ClosesFrom false text = ClosesAt text := by
  funext position
  rw [ClosesFrom, ClosesAt, hiddenAfter_eq, decide_eq_false_iff_not]

private theorem closesFrom_zero_iff {hidden : Bool} {character : Char}
    {rest : List Char} :
    ClosesFrom hidden (character :: rest) 0 ↔ hidden = false ∧ character = '"' := by
  simp [ClosesFrom, hiddenAfter, and_comm]

private theorem closesFrom_succ_iff {hidden : Bool} {character : Char}
    {rest : List Char} {position : Nat} :
    ClosesFrom hidden (character :: rest) (position + 1) ↔
      ClosesFrom (hides hidden character) rest position := by
  simp [ClosesFrom, hiddenAfter]

/-! ## The length -/

/-- The length of a string literal after its opening quote, read from character to
character. -/
def flaggedLength (hidden : Bool) : List Char → Nat
  | [] => 0
  | character :: rest =>
      if !hidden && character = '"' then 1
      else flaggedLength (hides hidden character) rest + 1

private theorem flaggedLength_eq_stringLength (characters : List Char) :
    flaggedLength false characters = stringLength characters := by
  fun_induction stringLength characters with
  | case1 => rfl
  | case2 rest => rfl
  | case3 character rest ih => simp [flaggedLength, hides, ih]
  | case4 character rest hquote hescaped ih =>
      by_cases hbackslash : character = '\\'
      · subst hbackslash
        cases rest with
        | nil => rfl
        | cons next rest => exact absurd rfl (hescaped next rest rfl)
      · have hplain : character ≠ '"' := hquote
        simp [flaggedLength, hides, hplain, hbackslash, ih]

def EndsAtFirst (closes : Nat → Prop) (text : List Char) (length : Nat) : Prop :=
  (∃ position, length = position + 1 ∧ closes position ∧
      ∀ earlier < position, ¬ closes earlier) ∨
    (∀ position, ¬ closes position) ∧ length = text.length

private theorem EndsAtFirst.cons {closes : Nat → Prop} {character : Char}
    {rest : List Char} {length : Nat} (hfirst : ¬ closes 0)
    (h : EndsAtFirst (fun position => closes (position + 1)) rest length) :
    EndsAtFirst closes (character :: rest) (length + 1) := by
  rcases h with ⟨position, hlength, hcloses, hbefore⟩ | ⟨hnone, hlength⟩
  · refine .inl ⟨position + 1, by rw [hlength], hcloses, fun earlier hearlier => ?_⟩
    cases earlier with
    | zero => exact hfirst
    | succ earlier => exact hbefore earlier (by omega)
  · refine .inr ⟨fun position => ?_, by rw [hlength, List.length_cons]⟩
    cases position with
    | zero => exact hfirst
    | succ position => exact hnone position

private theorem flaggedLength_endsAtFirst (hidden : Bool) (text : List Char) :
    EndsAtFirst (ClosesFrom hidden text) text (flaggedLength hidden text) := by
  induction text generalizing hidden with
  | nil => exact .inr ⟨by simp [ClosesFrom], rfl⟩
  | cons character rest ih =>
      rw [flaggedLength]
      split
      · rename_i hcloses
        refine .inl ⟨0, rfl, closesFrom_zero_iff.2 (by simpa using hcloses),
            fun earlier hearlier => ?_⟩
        omega
      · rename_i hcloses
        refine .cons
          (fun hzero => hcloses (by simpa using closesFrom_zero_iff.1 hzero)) ?_
        simpa only [closesFrom_succ_iff] using ih (hides hidden character)

/-! ## The content -/

private theorem StringTail.unescape_append {tail rest : List Char}
    (h : StringTail tail rest) :
    unescape (tail ++ rest) = unescape tail := by
  induction h with
  | closed rest => simp [unescape]
  | unclosed => rfl
  | lone => rfl
  | escaped character _ ih => simp [unescape, ih]
  | plain hquote hbackslash _ ih =>
      rw [List.cons_append, unescape_cons hquote hbackslash,
        unescape_cons hquote hbackslash, ih]

/-- The two readers of a string literal come to the same closing quote. -/
theorem readers_find_same_quote (characters : List Char) :
    Lexeme.first '"' characters = ⟨some .string, stringLength characters⟩ ∧
    Lexeme.text .string ('"' :: characters) =
      Lexeme.text .string ('"' :: characters.take (stringLength characters)) ∧
    flaggedLength false characters = stringLength characters ∧
    EndsAtFirst (ClosesAt characters) characters (stringLength characters) := by
  refine ⟨rfl, ?_, flaggedLength_eq_stringLength characters, ?_⟩
  · have hcontent := (stringTail_stringLength characters).unescape_append
    rw [List.take_append_drop] at hcontent
    simp [Lexeme.text, hcontent]
  · have hends := flaggedLength_endsAtFirst false characters
    rwa [closesFrom_false, flaggedLength_eq_stringLength] at hends

-- Three backslashes hide the first quote, two do not hide the second.
example :
    stringLength
      ['a', '\\', '\\', '\\', '"', 'b', '\\', '\\', '"', 'c', '"'] = 9 := by
  decide

end ExprLang.Lexeme
