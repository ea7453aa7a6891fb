import ExprLang.Proofs.Token.Scan

/-!
# Printed string literals

Printing escapes the characters of a string literal, and reading resolves escapes by
rules of its own.  A plain character is read back as it was.  Any other character is
printed by its code point and read back as the letter `u` with the braces after it,
so that a text in which one character is not plain is read back longer than it was.
-/

namespace ExprLang

/-! ## Escaped characters -/

namespace Text

private theorem exists_of_mem_hexadecimal {digit : Char} {number : Nat}
    (h : digit ∈ hexadecimal number) :
    ∃ value, digit = Nat.digitChar value := by
  unfold hexadecimal at h
  induction number using Nat.strongRecOn with
  | ind number ih =>
      rw [Nat.toDigits_eq_if (by decide)] at h
      split at h
      · exact ⟨number, List.mem_singleton.1 h⟩
      · rename_i hbase
        rcases List.mem_append.1 h with h | h
        · exact ih (number / 16) (Nat.div_lt_self (by omega) (by decide)) h
        · exact ⟨number % 16, List.mem_singleton.1 h⟩

private theorem hexadecimal_clean (number : Nat) :
    ∀ digit ∈ hexadecimal number, digit ∉ ['"', '\\', '\n'] := by
  intro digit hdigit
  obtain ⟨value, rfl⟩ := exists_of_mem_hexadecimal hdigit
  simp [Nat.digitChar_ne]

def braced (character : Char) : List Char :=
  '\x7b' :: (hexadecimal character.toNat ++ ['\x7d'])

theorem braced_clean (character : Char) :
    ∀ other ∈ braced character, other ∉ ['"', '\\', '\n'] := by
  intro other hother
  simp only [braced, List.mem_cons, List.mem_append, List.not_mem_nil,
    or_false] at hother
  rcases hother with rfl | hdigit | rfl
  · decide
  · exact hexadecimal_clean _ other hdigit
  · decide

theorem escapeChar_of_not_isPlain {character : Char}
    (h : isPlain character = false) :
    escapeChar character = '\\' :: 'u' :: braced character := by
  have hspecial : character ∉ ['\t', '\r', '\n', '\'', '"', '\\'] := by
    intro hmember
    have hplain : ['\t', '\r', '\n', '\'', '"', '\\'].all isPlain = true := by
      decide
    rw [List.all_eq_true.1 hplain character hmember] at h
    cases h
  have hprintable : isPrintable character = false := by
    simp only [isPlain, Bool.or_eq_false_iff] at h
    exact h.1.1.1
  simp only [List.mem_cons, List.not_mem_nil, or_false, not_or] at hspecial
  simp [escapeChar, hspecial, hprintable, braced]

/-- What an escaped character is read back as. -/
def reread (character : Char) : List Char :=
  if isPlain character then [character] else 'u' :: braced character

private theorem stringBody_escapeChar (character : Char) :
    Lexeme.StringBody (escapeChar character) (reread character) := by
  unfold reread
  split
  · rename_i hplain
    exact (Lexeme.shows_escapeChar hplain).stringBody
  · rename_i hplain
    rw [escapeChar_of_not_isPlain (by simpa using hplain)]
    refine .escaped 'u' (.verbatim fun other hother => ?_)
    have hclean := braced_clean character other hother
    simp only [List.mem_cons, not_or] at hclean
    exact ⟨hclean.1, hclean.2.1⟩

private theorem newline_notMem_escapeChar (character : Char) :
    '\n' ∉ escapeChar character := by
  cases hplain : isPlain character with
  | true =>
      rcases Lexeme.escapeChar_cases hplain with ⟨hescape, -, -, hline⟩ |
        ⟨letter, hescape, hline, -⟩
      · simpa [hescape] using hline.symm
      · simpa [hescape] using hline.symm
  | false =>
      rw [escapeChar_of_not_isPlain hplain]
      have hclean : '\n' ∉ braced character :=
        fun hline => absurd (braced_clean character _ hline) (by decide)
      simpa using hclean

/-! ## Contents read back -/

private theorem length_le_flatMap_reread (text : List Char) :
    text.length ≤ (text.flatMap reread).length := by
  induction text with
  | nil => exact Nat.le_refl 0
  | cons character text ih =>
      have hpositive : 0 < (reread character).length := by
        unfold reread
        split <;> simp
      rw [List.flatMap_cons, List.length_append, List.length_cons]
      omega

private theorem length_lt_flatMap_reread {text : List Char} {character : Char}
    (hmember : character ∈ text) (h : isPlain character = false) :
    text.length < (text.flatMap reread).length := by
  obtain ⟨before, after, rfl⟩ := List.append_of_mem hmember
  have hbefore := length_le_flatMap_reread before
  have hafter := length_le_flatMap_reread after
  have hlonger : 1 < (reread character).length := by simp [reread, h, braced]
  simp only [List.flatMap_append, List.flatMap_cons, List.length_append,
    List.length_cons]
  omega

private theorem flatMap_reread_eq_iff {text : List Char} :
    text.flatMap reread = text ↔ ∀ character ∈ text, isPlain character = true := by
  constructor
  · intro h character hmember
    cases hplain : isPlain character with
    | true => rfl
    | false =>
        have hlonger := length_lt_flatMap_reread hmember hplain
        rw [h] at hlonger
        exact absurd hlonger (Nat.lt_irrefl _)
  · intro h
    induction text with
    | nil => rfl
    | cons character text ih =>
        obtain ⟨hfirst, hothers⟩ := List.forall_mem_cons.1 h
        rw [List.flatMap_cons, ih hothers, reread, if_pos hfirst]
        rfl

private theorem isPlain_iff {character : Char} :
    isPlain character = true ↔
      (0x20 ≤ character.toNat ∧ character.toNat ≤ 0x7e) ∨
        character = '\t' ∨ character = '\r' ∨ character = '\n' := by
  simp [isPlain, isPrintable, or_assoc]

end Text

/-! ## Printed strings -/

private theorem Expr.tokenize_print_string (value : String) :
    tokenize (Expr.string value).print =
      [⟨.string, String.ofList (value.toList.flatMap Text.reread), 1⟩, .eof 1] := by
  have hbody : Lexeme.StringBody (value.toList.flatMap Text.escapeChar)
      (value.toList.flatMap Text.reread) :=
    .flatMap fun character _ => Text.stringBody_escapeChar character
  have hline : '\n' ∉ value.toList.flatMap Text.escapeChar := by
    intro hmember
    obtain ⟨character, -, hnewline⟩ := List.mem_flatMap.1 hmember
    exact Text.newline_notMem_escapeChar character hnewline
  have htext : (Expr.string value).print.toList =
      '"' :: (value.toList.flatMap Text.escapeChar ++ ['"']) := by
    simp [Expr.print, Text.escape]
  exact (Reads.quoted hbody hline htext 1 []).tokenize_eq

/-- The text of a string literal is one string token.  Its content is the literal
exactly if every character is printable ASCII, a tab or a line break. -/
theorem Expr.printed_string_read_back (value : String) :
    (tokenize (Expr.string value).print = [⟨.string, value, 1⟩, .eof 1] ↔
        ∀ character ∈ value.toList,
          (0x20 ≤ character.toNat ∧ character.toNat ≤ 0x7e) ∨
          character = '\t' ∨ character = '\r' ∨ character = '\n') ∧
      ∃ content,
        tokenize (Expr.string value).print = [⟨.string, content, 1⟩, .eof 1] := by
  have htokens := Expr.tokenize_print_string value
  refine ⟨?_, _, htokens⟩
  have hsame : String.ofList (value.toList.flatMap Text.reread) = value ↔
      value.toList.flatMap Text.reread = value.toList := by
    rw [← String.toList_inj, String.toList_ofList]
  rw [htokens]
  simp only [List.cons.injEq, Token.mk.injEq, true_and, and_true, hsame,
    Text.flatMap_reread_eq_iff, Text.isPlain_iff]

example :
    tokenize (Expr.string "\"é\"\n").print =
      [⟨.string, "\"u\x7be9\x7d\"\n", 1⟩, .eof 1] := by
  decide +kernel

end ExprLang
