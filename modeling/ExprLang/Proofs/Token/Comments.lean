import ExprLang.Proofs.Token.Slices

/-!
# Nested comments

Block comments as a grammar of their own, without a counter: what stands between two
marks is made of plain characters and of whole comments.  A comment ends at the
closing mark of its own opening mark, whatever follows it, and takes all of a text
in which closing marks are missing.
-/

namespace ExprLang

/-- What stands between the marks of a comment. -/
inductive CommentBody : List Char → Prop
  | nil : CommentBody []
  | plain {character : Char} {body : List Char} (hslash : character ≠ '/')
      (hstar : character ≠ '*') (h : CommentBody body) :
      CommentBody (character :: body)
  | nested {inner body : List Char} (hinner : CommentBody inner)
      (h : CommentBody body) :
      CommentBody ('/' :: '*' :: inner ++ '*' :: '/' :: body)

def IsComment (text : List Char) : Prop :=
  ∃ body, CommentBody body ∧ text = '/' :: '*' :: body ++ ['*', '/']

def closingMarks : Nat → List Char
  | 0 => []
  | count + 1 => '*' :: '/' :: closingMarks count

/-- A comment but for closing marks at its end, of which one is missing at least. -/
def IsUnclosed (text : List Char) : Prop :=
  ∃ missing, 0 < missing ∧ IsComment (text ++ closingMarks missing)

def Token.below (lines : Nat) (token : Token) : Token :=
  { token with line := lines + token.line }

/-! ## The end of a comment -/

theorem CommentBody.blockTail {body : List Char} (h : CommentBody body)
    {depth : Nat} {tail rest : List Char}
    (htail : Lexeme.BlockTail depth tail rest) :
    Lexeme.BlockTail depth (body ++ tail) rest := by
  induction h generalizing depth tail with
  | nil => exact htail
  | plain hslash hstar h ih =>
      refine .plain ?_ ?_ (ih htail)
      · exact fun hopener => hslash (List.cons_prefix_cons.1 hopener).1.symm
      · exact fun hcloser => hstar (List.cons_prefix_cons.1 hcloser).1.symm
  | @nested inner body hinner h ihinner ih =>
      have hnested := Lexeme.BlockTail.enter (ihinner (.leave (ih htail)))
      simpa using hnested

private theorem Lexeme.BlockTail.append {depth : Nat} {tail rest : List Char}
    (h : BlockTail depth tail rest) (hrest : rest ≠ []) (more : List Char) :
    BlockTail depth tail (rest ++ more) := by
  induction h with
  | closed rest => exact .closed _
  | unclosed depth => exact absurd rfl hrest
  | enter h ih => exact .enter (ih hrest)
  | leave h ih => exact .leave (ih hrest)
  | @plain depth character tail rest hopener hcloser h ih =>
      -- A mark has two characters, so it does not reach into what is added.
      have hwithin {first second : Char}
          (hmark : [first, second] <+: character :: (tail ++ (rest ++ more))) :
          [first, second] <+: character :: (tail ++ rest) := by
        have hwhole :
            character :: (tail ++ rest) <+: character :: (tail ++ (rest ++ more)) :=
          ⟨more, by simp⟩
        have hpos := List.length_pos_iff.2 hrest
        refine List.prefix_of_prefix_length_le hmark hwhole ?_
        simp only [List.length_cons, List.length_nil, List.length_append]
        omega
      exact .plain (fun hmark => hopener (hwithin hmark))
        (fun hmark => hcloser (hwithin hmark)) (ih hrest)

private theorem IsComment.shape {text : List Char} (h : IsComment text)
    (rest : List Char) :
    Lexeme.Shape (some .blockComment) text rest := by
  obtain ⟨body, hbody, rfl⟩ := h
  exact .blockComment (hbody.blockTail (.closed rest))

/-! ## Missing marks -/

private theorem CommentBody.count_eq {body : List Char} (h : CommentBody body) :
    body.count '/' = body.count '*' := by
  induction h with
  | nil => rfl
  | plain hslash hstar h ih =>
      rw [List.count_cons_of_ne hslash, List.count_cons_of_ne hstar, ih]
  | nested hinner h ihinner ih => simp [List.count_append, ihinner, ih]

private theorem count_closingMarks (count : Nat) :
    (closingMarks count).count '/' = (closingMarks count).count '*' := by
  induction count with
  | zero => rfl
  | succ count ih => simp [closingMarks, ih]

private theorem IsUnclosed.exists_cons {text : List Char} (h : IsUnclosed text) :
    ∃ tail missing, text = '/' :: '*' :: tail ∧ 0 < missing ∧
      Lexeme.BlockTail 0 (tail ++ closingMarks missing) [] := by
  obtain ⟨missing, hmissing, body, hbody, htext⟩ := h
  obtain ⟨count, rfl⟩ := Nat.exists_eq_add_one.2 hmissing
  -- As many slashes as stars: the opening mark does not end in the first of the
  -- missing marks.
  have hcount : text.count '/' = text.count '*' := by
    have hwhole : (text ++ closingMarks (count + 1)).count '/' =
        (text ++ closingMarks (count + 1)).count '*' := by
      rw [htext]
      simp [List.count_append, hbody.count_eq]
    rw [List.count_append, List.count_append, count_closingMarks] at hwhole
    omega
  cases text with
  | nil => cases htext
  | cons first text =>
      obtain ⟨rfl, hothers⟩ := List.cons.inj htext
      cases text with
      | nil => simp at hcount
      | cons second tail =>
          obtain ⟨rfl, htail⟩ := List.cons.inj hothers
          refine ⟨tail, count + 1, rfl, hmissing, ?_⟩
          rw [show tail ++ closingMarks (count + 1) = body ++ ['*', '/'] from htail]
          exact hbody.blockTail (.closed [])

private theorem IsUnclosed.shape {text : List Char} (h : IsUnclosed text) :
    Lexeme.Shape (some .blockComment) text [] := by
  obtain ⟨tail, missing, rfl, hmissing, hwhole⟩ := h.exists_cons
  have hscan := Lexeme.blockTail_blockLength 0 tail
  by_cases hrest : tail.drop (Lexeme.blockLength 0 tail) = []
  · have htail : tail.take (Lexeme.blockLength 0 tail) = tail := by
      simpa [hrest] using List.take_append_drop (Lexeme.blockLength 0 tail) tail
    rw [hrest, htail] at hscan
    exact .blockComment hscan
  · -- A comment that ends inside the text would end there with the missing marks
    -- added as well.
    have hearly := (hscan.append hrest (closingMarks missing)).blockLength_eq
    have hlate := hwhole.blockLength_eq
    rw [← List.append_assoc, List.take_append_drop] at hearly
    rw [List.append_nil, hearly, List.length_take, List.length_append] at hlate
    have hmarks : 0 < (closingMarks missing).length := by
      cases missing with
      | zero => cases hmissing
      | succ missing => simp [closingMarks]
    omega

/-! ## Tokens after a comment -/

namespace Slice

private theorem token?_below (lines line : Nat) (slice : Slice) :
    slice.token? (lines + line) = (slice.token? line).map (Token.below lines) := by
  unfold token?
  cases slice.kind? with
  | none => rfl
  | some kind =>
      rw [Option.bind_some, Option.bind_some]
      split
      · rfl
      · rfl

private theorem tokensAfter_append (before text : List Char) (slices : List Slice) :
    tokensAfter (before ++ text) slices =
      (tokensAfter text slices).map (Token.below (before.count '\n')) := by
  induction slices generalizing text with
  | nil => rfl
  | cons slice slices ih =>
      have hline : 1 + (before ++ text).count '\n' =
          before.count '\n' + (1 + text.count '\n') := by
        rw [List.count_append]
        omega
      rw [tokensAfter, tokensAfter, hline, token?_below, List.append_assoc, ih,
        List.map_append]
      cases slice.token? (1 + text.count '\n') <;> rfl

end Slice

/-- A comment in front of a text moves its tokens down by the line breaks of the
comment, and changes nothing else.  A text that lacks closing marks of its comment
has no tokens but the end token, which is on its last line. -/
theorem tokenize_nested_comments :
    (∀ comment rest : String, IsComment comment.toList →
        tokenize (comment ++ rest) =
          (tokenize rest).map (Token.below (comment.toList.count '\n'))) ∧
      ∀ text : String, IsUnclosed text.toList →
        tokenize text = [.eof (1 + text.toList.count '\n')] := by
  constructor
  · intro comment rest hcomment
    obtain ⟨slices, hchain, hrest⟩ := Slice.exists_chain rest.toList
    have hwhole : Slice.Chain (⟨some .blockComment, comment.toList⟩ :: slices) :=
      .cons (hcomment.shape _) hchain
    have htext :
        (⟨some .blockComment, comment.toList⟩ :: slices).flatMap Slice.raw =
          (comment ++ rest).toList := by
      rw [List.flatMap_cons, hrest, String.toList_append]
    have htokens :
        Slice.tokensAfter [] (⟨some .blockComment, comment.toList⟩ :: slices) =
          (Slice.tokensAfter [] slices).map
            (Token.below (comment.toList.count '\n')) := by
      rw [← Slice.tokensAfter_append, List.append_nil]
      rfl
    have hlines : 1 + (comment ++ rest).toList.count '\n' =
        comment.toList.count '\n' + (1 + rest.toList.count '\n') := by
      rw [String.toList_append, List.count_append]
      omega
    rw [tokenize_of_chain hwhole htext, tokenize_of_chain hchain hrest, htokens,
      hlines, List.map_append]
    rfl
  · intro text hunclosed
    have hchain : Slice.Chain [⟨some .blockComment, text.toList⟩] :=
      .cons hunclosed.shape .nil
    rw [tokenize_of_chain hchain (List.append_nil _)]
    rfl

theorem threefold_nested_comments :
    IsComment "/*a\n/*/**/é*/*/".toList ∧
      tokenize ("/*a\n/*/**/é*/*/" ++ "x */") =
        [⟨.identifier, "x", 2⟩, ⟨.operator .mul, "*", 2⟩, ⟨.operator .div, "/", 2⟩,
          .eof 2] ∧
      IsUnclosed "/*a\n/*/**/é".toList ∧ tokenize "/*a\n/*/**/é" = [.eof 2] := by
  have hinner : CommentBody ['/', '*', '*', '/', 'é'] :=
    @CommentBody.nested [] ['é'] .nil (.plain (by decide) (by decide) .nil)
  have hbody : CommentBody ['a', '\n', '/', '*', '/', '*', '*', '/', 'é', '*',
      '/'] :=
    .plain (by decide) (by decide) (.plain (by decide) (by decide)
      (@CommentBody.nested ['/', '*', '*', '/', 'é'] [] hinner .nil))
  have hcomment : IsComment "/*a\n/*/**/é*/*/".toList := ⟨_, hbody, rfl⟩
  have hunclosed : IsUnclosed "/*a\n/*/**/é".toList := ⟨2, by decide, hcomment⟩
  refine ⟨hcomment, ?_, hunclosed, tokenize_nested_comments.2 _ hunclosed⟩
  rw [tokenize_nested_comments.1 _ "x */" hcomment]
  decide +kernel

end ExprLang
