import ExprLang.Proofs.Token.Shape

/-!
# Slices of a text

A text is a chain of slices, each of them a run of blanks, a comment or the raw text
of one token, as the lexical grammar has it.  `tokenize_slices` says that nothing of
a text is lost: its tokens are those of its slices, each on the line where its slice
begins.
-/

namespace ExprLang

structure Slice where
  /-- `none` for a run of blanks. -/
  kind? : Option Kind
  raw : List Char
  deriving DecidableEq, Repr

namespace Slice

/-- The token that a slice is the raw text of.  Blanks and comments give none; the
text of a string literal is its content, that of every other token the slice
itself. -/
def token? (line : Nat) (slice : Slice) : Option Token :=
  slice.kind?.bind fun kind =>
    if kind.isComment then none
    else some ⟨kind,
        String.ofList (if kind = .string then Lexeme.unescape slice.raw.tail
          else slice.raw),
        line⟩

/-- The tokens of slices that stand after the text `before`.  A token is on the line
where its slice begins. -/
def tokensAfter (before : List Char) : List Slice → List Token
  | [] => []
  | slice :: slices =>
      (slice.token? (1 + before.count '\n')).toList ++
        tokensAfter (before ++ slice.raw) slices

/-- Each slice is a lexeme of the text that begins with it. -/
inductive Chain : List Slice → Prop
  | nil : Chain []
  | cons {slice : Slice} {slices : List Slice}
      (hshape : Lexeme.Shape slice.kind? slice.raw (slices.flatMap raw))
      (h : Chain slices) :
      Chain (slice :: slices)

theorem exists_chain :
    (characters : List Char) →
      ∃ slices, Chain slices ∧ slices.flatMap raw = characters
  | [] => ⟨[], .nil, rfl⟩
  | character :: characters => by
      obtain ⟨slices, hchain, htext⟩ :=
        exists_chain (characters.drop (Lexeme.first character characters).extra)
      have hshape := Lexeme.shape_first character characters
      rw [← htext] at hshape
      refine ⟨⟨_, _⟩ :: slices, .cons hshape hchain, ?_⟩
      rw [List.flatMap_cons, htext, List.cons_append, List.take_append_drop]
termination_by characters => characters.length
decreasing_by simp only [List.length_drop, List.length_cons]; omega

theorem Chain.of_append {earlier later : List Slice}
    (h : Chain (earlier ++ later)) : Chain later := by
  induction earlier with
  | nil => exact h
  | cons slice earlier ih =>
      cases h with
      | cons hshape h => exact ih h

private theorem Chain.raw_ne_nil {slices : List Slice} (h : Chain slices) :
    ∀ slice ∈ slices, slice.raw ≠ [] := by
  intro slice hslice
  obtain ⟨earlier, later, rfl⟩ := List.append_of_mem hslice
  cases h.of_append with
  | cons hshape h =>
      obtain ⟨character, tail, hraw, -⟩ := hshape.first_eq
      simp [hraw]

/-! ## Tokens of slices -/

theorem token?_eq_some_iff {line : Nat} {slice : Slice} {token : Token} :
    slice.token? line = some token ↔
      ∃ kind, slice.kind? = some kind ∧ kind.isComment = false ∧
        token = ⟨kind, Lexeme.text kind slice.raw, line⟩ := by
  cases hkind : slice.kind? with
  | none => simp [token?, hkind]
  | some kind =>
      cases hcomment : kind.isComment with
      | true => simp [token?, hkind, hcomment]
      | false =>
          rw [token?, hkind, Option.bind_some, hcomment]
          simp [Lexeme.text, hcomment, @eq_comm _ token]

theorem mem_tokensAfter_iff {before : List Char} {slices : List Slice}
    {token : Token} :
    token ∈ tokensAfter before slices ↔
      ∃ earlier slice later, slices = earlier ++ slice :: later ∧
        slice.token? (1 + (before ++ earlier.flatMap raw).count '\n') =
          some token := by
  induction slices generalizing before with
  | nil => simp [tokensAfter]
  | cons slice slices ih =>
      rw [tokensAfter, List.mem_append, ih, Option.mem_toList]
      constructor
      · rintro (hfirst | ⟨earlier, owner, later, rfl, howner⟩)
        · exact ⟨[], slice, slices, rfl, by simpa using hfirst⟩
        · exact ⟨slice :: earlier, owner, later, rfl, by simpa using howner⟩
      · rintro ⟨earlier, owner, later, hslices, howner⟩
        cases earlier with
        | nil =>
            cases hslices
            exact .inl (by simpa using howner)
        | cons first earlier =>
            cases hslices
            exact .inr ⟨earlier, owner, later, rfl, by simpa using howner⟩

theorem scan_append (slice : Slice) {rest : List Char}
    (h : Lexeme.Shape slice.kind? slice.raw rest) (line : Nat) :
    scan line (slice.raw ++ rest) =
      ((slice.token? line).toList ++ (scan (line + slice.raw.count '\n') rest).1,
        (scan (line + slice.raw.count '\n') rest).2) := by
  obtain ⟨kind?, raw⟩ := slice
  obtain ⟨character, tail, rfl, hfirst⟩ := h.first_eq
  cases kind? with
  | none =>
      rw [List.cons_append, scan_skip (by rw [hfirst]; rfl), hfirst, List.take_left,
        List.drop_left]
      rfl
  | some kind =>
      cases hcomment : kind.isComment with
      | true =>
          have htoken : token? line ⟨some kind, character :: tail⟩ = none := by
            simp [token?, hcomment]
          rw [List.cons_append, scan_skip (by rw [hfirst]; exact hcomment), hfirst,
            List.take_left, List.drop_left, htoken]
          rfl
      | false =>
          rw [scan_lexeme hfirst hcomment h.kind_ne_eof]
          simp [token?, hcomment, Lexeme.text]

theorem Chain.scan_eq {slices : List Slice} (h : Chain slices)
    (before : List Char) :
    scan (1 + before.count '\n') (slices.flatMap raw) =
      (tokensAfter before slices,
        1 + (before ++ slices.flatMap raw).count '\n') := by
  induction h generalizing before with
  | nil =>
      rw [List.flatMap_nil, scan_nil, List.append_nil]
      rfl
  | @cons slice slices hshape h ih =>
      have hline : 1 + before.count '\n' + slice.raw.count '\n' =
          1 + (before ++ slice.raw).count '\n' := by
        rw [List.count_append, Nat.add_assoc]
      rw [List.flatMap_cons, scan_append slice hshape, hline, ih, List.append_assoc]
      rfl

theorem Chain.kind_ne_eof {slices : List Slice} (h : Chain slices)
    (before : List Char) :
    ∀ token ∈ tokensAfter before slices, token.kind ≠ .eof := by
  intro token htoken
  obtain ⟨earlier, slice, later, rfl, howner⟩ := mem_tokensAfter_iff.1 htoken
  obtain ⟨kind, hkind, -, rfl⟩ := token?_eq_some_iff.1 howner
  cases h.of_append with
  | cons hshape h =>
      rw [hkind] at hshape
      exact hshape.kind_ne_eof

end Slice

theorem tokenize_of_chain {text : String} {slices : List Slice}
    (h : Slice.Chain slices) (htext : slices.flatMap Slice.raw = text.toList) :
    tokenize text =
      Slice.tokensAfter [] slices ++ [.eof (1 + text.toList.count '\n')] := by
  have hscan := h.scan_eq []
  rw [List.nil_append, htext] at hscan
  show (scan 1 text.toList).1 ++ [Token.eof (scan 1 text.toList).2] = _
  rw [show scan 1 text.toList = _ from hscan]

theorem filter_tokenize (text : String) :
    (tokenize text).filter (·.kind ≠ .eof) = (scan 1 text.toList).1 := by
  obtain ⟨slices, hchain, htext⟩ := Slice.exists_chain text.toList
  have hscan := hchain.scan_eq []
  rw [List.nil_append, htext] at hscan
  rw [tokenize_of_chain hchain htext, List.filter_append,
    List.filter_eq_self.2 fun token htoken =>
    decide_eq_true (hchain.kind_ne_eof [] token htoken),
      show scan 1 text.toList = _ from hscan]
  exact List.append_nil _

/-- A text is the concatenation of its slices.  Every token but the end token owns
one of them, which is not empty, and the slices without a token are blanks and
comments.  Lines are counted by the line breaks before a slice. -/
theorem tokenize_slices (text : String) :
    ∃ slices : List Slice, slices.flatMap Slice.raw = text.toList ∧
      Slice.Chain slices ∧ (∀ slice ∈ slices, slice.raw ≠ []) ∧
      tokenize text =
        Slice.tokensAfter [] slices ++ [.eof (1 + text.toList.count '\n')] ∧
      ∀ token ∈ Slice.tokensAfter [] slices, token.kind ≠ .eof := by
  obtain ⟨slices, hchain, htext⟩ := Slice.exists_chain text.toList
  exact ⟨slices, htext, hchain, hchain.raw_ne_nil, tokenize_of_chain hchain htext,
    hchain.kind_ne_eof []⟩

end ExprLang
