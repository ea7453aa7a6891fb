import ExprLang.Token.Stream
import ExprLang.Tree.VariableList

/-!
# Drafts

A draft is a statement whose expressions are still windows of tokens.  The tokens of
a program or of a function body are cut into drafts line by line; a line break
inside braces does not end a line.
-/

namespace ExprLang

/-- The tokens of one expression, and the line to blame if there are none. -/
structure Window where
  tokens : List Token
  line : Nat
  deriving DecidableEq, Repr

inductive Draft where
  | assign (targets : List Variable) (value : Window) (line : Nat)
  | result (expressions : List Window) (line : Nat)

namespace Draft

def windows : Draft → List Window
  | .assign _ value _ => [value]
  | .result expressions _ => expressions

def leftSide (endLine : Nat) :
    List Token → Except ParseError (List Token × List Token)
  | [] => .error (.unexpected endLine "end of file" .assignment)
  | token :: rest =>
      if token.kind = .illegal then .error (.illegalCharacter token.line token.text)
      else if token.kind = .assign then .ok ([], rest)
      else if token.kind = .newline then
        .error (.unexpected token.line token.describe .assignment)
      else (leftSide endLine rest).map fun sides => (token :: sides.1, sides.2)

/-- The tokens up to the end of a logical line with `braces` open braces, and those
after it. -/
def logicalLine (endLine : Nat) :
    Nat → List Token → Except ParseError (List Token × List Token)
  | 0, [] => .ok ([], [])
  | _ + 1, [] => .error (.unexpected endLine "end of file" .functionEnd)
  | braces, token :: rest =>
      let continued (braces : Nat) :=
        (logicalLine endLine braces rest).map fun sides =>
          (token :: sides.1, sides.2)
      if token.kind = .illegal then .error (.illegalCharacter token.line token.text)
      else if token.kind = .newline then
        if braces = 0 then .ok ([], rest) else continued braces
      else if token.kind = .opening .brace then continued (braces + 1)
      else if token.kind = .closing .brace then
        if braces = 0 then .error (.ofToken token) else continued (braces - 1)
      else continued braces

def read (endLine : Nat) (first : Token) (rest : List Token) :
    Except ParseError (Draft × List Token) :=
  match first.kind with
  | .identifier => do
      let (left, right) ← leftSide endLine rest
      let targets ← VariableList.read (first :: left)
      let (value, after) ← logicalLine endLine 0 right
      return (.assign targets ⟨value, first.line⟩ first.line, after)
  | .returnWord => do
      let (values, after) ← logicalLine endLine 0 rest
      return (.result ((Comma.items values).map (⟨·, first.line⟩)) first.line,
          after)
  | .illegal => .error (.illegalCharacter first.line first.text)
  | _ => .error (.unexpected first.line first.describe .statement)

private theorem length_of_leftSide {endLine : Nat} {tokens : List Token}
    {sides : List Token × List Token} (h : leftSide endLine tokens = .ok sides) :
    sides.1.length + sides.2.length < tokens.length := by
  induction tokens generalizing sides with
  | nil => cases h
  | cons token rest ih =>
      rw [leftSide] at h
      split at h
      · cases h
      · split at h
        · cases h
          simp
        · split at h
          · cases h
          · cases htail : leftSide endLine rest with
            | error error => simp [htail, Except.map] at h
            | ok tail =>
                simp only [htail, Except.map] at h
                cases h
                have := ih htail
                simp
                omega

private theorem length_of_logicalLine {endLine braces : Nat} {tokens : List Token}
    {sides : List Token × List Token}
    (h : logicalLine endLine braces tokens = .ok sides) :
    sides.1.length + sides.2.length ≤ tokens.length := by
  induction tokens generalizing braces sides with
  | nil =>
      cases braces with
      | zero =>
          cases h
          simp
      | succ braces => cases h
  | cons token rest ih =>
      have continued {braces : Nat}
          (h : (logicalLine endLine braces rest).map (fun sides =>
              (token :: sides.1, sides.2)) = .ok sides) :
          sides.1.length + sides.2.length ≤ (token :: rest).length := by
        cases htail : logicalLine endLine braces rest with
        | error error => simp [htail, Except.map] at h
        | ok tail =>
            simp only [htail, Except.map] at h
            cases h
            have := ih htail
            simp
            omega
      simp only [logicalLine] at h
      split at h
      · cases h
      · split at h
        · split at h
          · cases h
            simp
          · exact continued h
        · split at h
          · exact continued h
          · split at h
            · split at h
              · cases h
              · exact continued h
            · exact continued h

theorem length_of_read {endLine : Nat} {first : Token} {rest after : List Token}
    {draft : Draft} (h : read endLine first rest = .ok (draft, after)) :
    after.length ≤ rest.length ∧
      ∀ window ∈ draft.windows, window.tokens.length ≤ rest.length := by
  unfold read at h
  split at h
  · cases hleft : leftSide endLine rest with
    | error error => simp [hleft, bind, Except.bind] at h
    | ok sides =>
        have := length_of_leftSide hleft
        cases htargets : VariableList.read (first :: sides.1) with
        | error error => simp [hleft, htargets, bind, Except.bind] at h
        | ok targets =>
            cases hline : logicalLine endLine 0 sides.2 with
            | error error => simp [hleft, htargets, hline, bind, Except.bind] at h
            | ok line =>
                have := length_of_logicalLine hline
                simp only [hleft, htargets, hline, bind, Except.bind, pure,
                  Except.pure] at h
                cases h
                simp [windows]
                omega
  · cases hline : logicalLine endLine 0 rest with
    | error error => simp [hline, bind, Except.bind] at h
    | ok line =>
        have := length_of_logicalLine hline
        simp only [hline, bind, Except.bind, pure, Except.pure] at h
        cases h
        refine ⟨by omega, ?_⟩
        intro window hwindow
        obtain ⟨piece, hpiece, rfl⟩ := List.mem_map.1 hwindow
        have := Comma.length_le_of_mem_items hpiece
        simp
        omega
  · cases h
  · cases h

end Draft

/-! ## All drafts of a stream -/

/-- The drafts up to the first one that can not be read, and why that one can
not. -/
structure Drafts where
  statements : List Draft
  failure? : Option ParseError

namespace Drafts

def windows (drafts : Drafts) : List Window :=
  drafts.statements.flatMap Draft.windows

def ofTokens (endLine : Nat) (tokens : List Token) : Drafts :=
  match tokens with
  | [] => ⟨[], none⟩
  | token :: rest =>
      if token.kind = .newline then ofTokens endLine rest
      else
        match _h : Draft.read endLine token rest with
        | .error error => ⟨[], some error⟩
        | .ok (draft, after) =>
            let later := ofTokens endLine after
            { later with statements := draft :: later.statements }
termination_by tokens.length
decreasing_by
  · simp
  · have := (Draft.length_of_read ‹_›).1
    simp
    omega

def ofStream {σ : Type} [TokenStream σ] (stream : σ) : Drafts :=
  ofTokens (TokenStream.endLine stream) (TokenStream.tokens stream)

theorem length_of_mem_ofTokens {endLine : Nat} {tokens : List Token}
    {window : Window} (h : window ∈ (ofTokens endLine tokens).windows) :
    window.tokens.length < tokens.length := by
  fun_induction ofTokens endLine tokens with
  | case1 => simp [windows] at h
  | case2 token rest _ ih =>
      have := ih h
      simp
      omega
  | case3 => simp [windows] at h
  | case4 token rest _ draft after hread later ih =>
      have lengths := Draft.length_of_read hread
      simp only [windows, List.flatMap_cons, List.mem_append] at h
      rcases h with h | h
      · have := lengths.2 window h
        simp
        omega
      · have := ih (by simpa [windows] using h)
        simp
        omega

end Drafts

end ExprLang
