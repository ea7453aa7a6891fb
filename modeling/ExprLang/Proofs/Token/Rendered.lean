import ExprLang.Proofs.Token.Slices

/-!
# Tokens written out again

`Token.rendered` writes a token as a text.  Tokens of a text without illegal
characters, written out with single blanks between them, are read back as the same
kinds and texts: a lexeme that may stand before what followed it in the text may
also stand before a blank.
-/

namespace ExprLang

/-! ## Renderings -/

namespace Token

def quoteChar (character : Char) : List Char :=
  if character = '\\' ∨ character = '"' then ['\\', character] else [character]

def rendered (token : Token) : String :=
  if token.kind = .string then
    "\"" ++ String.ofList (token.text.toList.flatMap quoteChar) ++ "\""
  else token.text

def entry (token : Token) : Kind × String := (token.kind, token.text)

end Token

def Spaced (rest : List Char) : Prop := ∀ next ∈ rest.head?, next = ' '

private theorem Spaced.stops {rest : List Char} (h : Spaced rest)
    {accepts : Char → Bool} (haccepts : accepts ' ' = false) :
    Stops accepts rest :=
  fun next hnext => h next hnext ▸ haccepts

private theorem Spaced.prefix_of_append {rest : List Char} (h : Spaced rest)
    {word body : List Char} (hword : ' ' ∉ word)
    (hinitial : word <+: body ++ rest) :
    word <+: body := by
  induction body generalizing word with
  | nil =>
      cases word with
      | nil => exact List.nil_prefix
      | cons character word =>
          obtain ⟨after, rfl⟩ := hinitial
          exact absurd (h character rfl ▸ List.mem_cons_self) hword
  | cons other body ih =>
      cases word with
      | nil => exact List.nil_prefix
      | cons character word =>
          obtain ⟨rfl, htail⟩ := List.cons_prefix_cons.1 hinitial
          exact List.cons_prefix_cons.2
            ⟨rfl, ih (fun hblank => hword (List.mem_cons_of_mem _ hblank)) htail⟩

namespace Lexeme

private theorem shows_quoteChar (character : Char) :
    Shows (Token.quoteChar character) character := by
  unfold Token.quoteChar
  split
  · rename_i hspecial
    refine .inr ⟨character, rfl, ?_⟩
    rcases hspecial with rfl | rfl <;> rfl
  · rename_i hspecial
    rw [not_or] at hspecial
    exact .inl ⟨rfl, hspecial.2, hspecial.1⟩

/-- A lexeme keeps its shape when a blank comes to follow it, unless it is a keyword
that was blurred. -/
theorem Shape.before_blank {kind : Kind} {raw rest after : List Char}
    (h : Shape (some kind) raw rest)
    (hplain : kind.isComment = false ∧ kind ≠ .string ∧ kind ≠ .illegal)
    (hname : kind = .identifier → keyword? raw = none) (hafter : Spaced after) :
    Shape (some kind) raw after := by
  cases h with
  | lineComment | blockComment => exact absurd hplain.1 (by decide)
  | string => exact absurd rfl hplain.2.1
  | int hne hdigits =>
      exact .int hne hdigits (hafter.stops rfl) fun hpoint =>
        absurd (hafter _ hpoint) (by decide)
  | float hne hwhole hfraction =>
      exact .float hne hwhole hfraction (hafter.stops rfl)
  | keyword hkeyword =>
      exact .keyword hkeyword (hafter.stops rfl) (hafter.stops rfl)
  | identifier hword =>
      exact .identifier hword (hafter.stops rfl) fun _ => hname rfl
  | mark hkind hlongest hcomment =>
      have hblank : ∀ kind ∈ markKinds, ' ' ∉ kind.spelling.toList := by decide
      refine .mark hkind ?_ ?_
      · intro other hother hspelled
        have hle :=
          (hafter.prefix_of_append (hblank other hother) hspelled).length_le
        rwa [String.length_toList, String.length_toList] at hle
      · intro next hnext hspelled
        have hopener : ' ' ∉ ['/', next] := by
          simp only [List.mem_cons, List.not_mem_nil, or_false] at hnext
          rcases hnext with rfl | rfl <;> simp
        have hinitial := hafter.prefix_of_append hopener hspelled
        exact hcomment next hnext (hinitial.trans (List.prefix_append _ _))
  | illegal => exact absurd rfl hplain.2.2

private theorem Shape.keyword?_eq_none {raw rest : List Char}
    (h : Shape (some .identifier) raw rest)
    (hclear : Stops continuesWord rest → Stops blursWord rest) :
    keyword? raw = none := by
  cases h with
  | keyword hkeyword => exact absurd (mem_of_keyword? hkeyword) (by decide)
  | identifier hword hstops hkeyword => exact hkeyword (hclear hstops)
  | mark hkind => exact absurd hkind (by decide)

private theorem Shape.illegal_of_blursWord {kind? : Option Kind} {next : Char}
    {tail rest : List Char} (h : Shape kind? (next :: tail) rest)
    (hblurs : blursWord next = true) (hcontinues : continuesWord next = false) :
    kind? = some .illegal := by
  have hdigit : next.isDigit = false := by
    refine Bool.eq_false_iff.2 fun hdigit => ?_
    simp only [blursWord, Bool.and_eq_true, decide_eq_true_eq] at hblurs
    simp only [Char.isDigit, Bool.and_eq_true, decide_eq_true_eq] at hdigit
    have hle := UInt32.le_iff_toNat_le.1 hdigit.2
    have hascii : next.toNat ≤ 57 := hle
    omega
  have hstarts : startsWord next = false := by
    simp only [continuesWord, Bool.or_eq_false_iff] at hcontinues
    simp [startsWord, hcontinues]
  have hbegins : ∀ kind ∈ markKinds,
      kind.spelling.toList.head?.any (!blursWord ·) = true := by decide
  have hfind : markKinds.find? (·.spelling.toList.isPrefixOf (next ::
        (tail ++ rest))) = none := by
    refine List.find?_eq_none.2 fun kind hkind hspelled => ?_
    have hhead := hbegins kind hkind
    cases hspelling : kind.spelling.toList with
    | nil => simp [hspelling] at hhead
    | cons character spelling =>
        rw [hspelling] at hspelled hhead
        obtain ⟨rfl, -⟩ :=
          List.cons_prefix_cons.1 (List.isPrefixOf_iff_prefix.1 hspelled)
        simp [hblurs] at hhead
  obtain ⟨character, tail, heq, hfirst⟩ := h.first_eq
  cases heq
  rw [first_of_accepts hblurs rfl, hdigit, hstarts] at hfirst
  simp only [Lexeme.mark, hfind] at hfirst
  exact (congrArg Lexeme.kind? hfirst).symm

end Lexeme

/-! ## Tokens that are read back -/

/-- The rendering of a token is its lexeme wherever a blank or the end follows. -/
structure Token.Relexes (token : Token) : Prop where
  comment : token.kind.isComment = false
  shape {after : List Char} (hafter : Spaced after) :
    Lexeme.Shape (some token.kind) token.rendered.toList after
  text : Lexeme.text token.kind token.rendered.toList = token.text

open Lexeme in
private theorem Token.relexes_string (text : String) (line : Nat) :
    Token.Relexes ⟨.string, text, line⟩ := by
  have hbody : StringBody (text.toList.flatMap quoteChar) text.toList :=
    .of_shows fun character _ => shows_quoteChar character
  have hrendered : (Token.mk .string text line).rendered.toList =
      '"' :: (text.toList.flatMap quoteChar ++ ['"']) := by
    simp [rendered]
  refine ⟨rfl, fun _ => ?_, ?_⟩
  · rw [hrendered]
    exact .string (hbody.stringTail _)
  · rw [hrendered, Lexeme.text, if_pos rfl, List.tail_cons, hbody.unescape_eq,
      String.ofList_toList]

open Lexeme in
private theorem Lexeme.Shape.relexes {kind : Kind} {raw rest : List Char}
    (h : Shape (some kind) raw rest) (hcomment : kind.isComment = false)
    (hlegal : kind ≠ .illegal) (hname : kind = .identifier → keyword? raw = none)
    (line : Nat) :
    Token.Relexes ⟨kind, Lexeme.text kind raw, line⟩ := by
  by_cases hstring : kind = .string
  · subst hstring
    exact Token.relexes_string _ line
  · have htext : Lexeme.text kind raw = String.ofList raw := by
      rw [Lexeme.text, if_neg hstring]
    have hrendered :
        (Token.mk kind (Lexeme.text kind raw) line).rendered.toList = raw := by
      rw [Token.rendered, if_neg hstring, htext, String.toList_ofList]
    refine ⟨hcomment, fun hafter => ?_, ?_⟩
    · rw [hrendered]
      exact h.before_blank ⟨hcomment, hstring, hlegal⟩ hname hafter
    · rw [hrendered]

private theorem Token.Relexes.entries_scan {token : Token} (h : token.Relexes)
    {after : List Char} (hafter : Spaced after) (line : Nat) :
    (scan line (token.rendered.toList ++ after)).1.map Token.entry =
      token.entry :: (scan (line + token.rendered.toList.count '\n') after).1.map
          Token.entry := by
  have hslice : Slice.token? line ⟨some token.kind, token.rendered.toList⟩ =
      some ⟨token.kind, token.text, line⟩ :=
    Slice.token?_eq_some_iff.2 ⟨token.kind, rfl, h.comment, by rw [h.text]⟩
  rw [Slice.scan_append ⟨some token.kind, token.rendered.toList⟩ (h.shape hafter),
    hslice]
  rfl

private theorem entries_scan_intercalate {tokens : List Token}
    (h : ∀ token ∈ tokens, token.Relexes) (line : Nat) :
    (scan line (" ".intercalate (tokens.map Token.rendered)).toList).1.map
        Token.entry = tokens.map Token.entry := by
  induction tokens generalizing line with
  | nil => simp [scan_nil]
  | cons token tokens ih =>
      have htoken := h token List.mem_cons_self
      have ih := ih fun other hother => h other (List.mem_cons_of_mem _ hother)
      cases tokens with
      | nil =>
          have hend : Spaced [] := by simp [Spaced]
          simpa [scan_nil] using htoken.entries_scan hend line
      | cons other others =>
          have hblank : Spaced (' ' ::
              (" ".intercalate ((other :: others).map Token.rendered)).toList) := by
            rintro _ ⟨⟩
            rfl
          rw [List.map_cons, List.map_cons, String.intercalate_cons_cons,
            ← List.map_cons, String.toList_append, String.toList_append,
            List.append_assoc]
          rw [show " ".toList = [' '] from rfl, List.singleton_append,
            htoken.entries_scan hblank, scan_blanks rfl, scan_dropWhile_isBlank, ih]
          rfl

/-! ## Tokens of a text -/

private theorem Slice.Chain.stops_blursWord {slices : List Slice} (h : Chain slices)
    (hlegal : ∀ slice ∈ slices, slice.kind? ≠ some .illegal)
    (hstops : Stops Lexeme.continuesWord (slices.flatMap raw)) :
    Stops Lexeme.blursWord (slices.flatMap raw) := by
  cases h with
  | nil => simp [Stops]
  | @cons slice slices hshape h =>
      obtain ⟨character, tail, hraw, -⟩ := hshape.first_eq
      rw [List.flatMap_cons, hraw] at hstops ⊢
      rw [hraw] at hshape
      rintro next ⟨⟩
      refine Bool.eq_false_iff.2 fun hblurs => ?_
      exact hlegal slice List.mem_cons_self
        (hshape.illegal_of_blursWord hblurs (hstops character rfl))

private theorem Slice.Chain.relexes {slices : List Slice} (h : Chain slices)
    {before : List Char}
    (hlegal : ∀ token ∈ tokensAfter before slices, token.kind ≠ .illegal) :
    ∀ token ∈ tokensAfter before slices, token.Relexes := by
  have hslices : ∀ slice ∈ slices, slice.kind? ≠ some .illegal := by
    intro slice hslice hkind
    obtain ⟨earlier, later, rfl⟩ := List.append_of_mem hslice
    have htoken (line : Nat) :
        slice.token? line = some ⟨.illegal, Lexeme.text .illegal slice.raw, line⟩ :=
      token?_eq_some_iff.2 ⟨.illegal, hkind, rfl, rfl⟩
    exact hlegal _
      (mem_tokensAfter_iff.2 ⟨earlier, slice, later, rfl, htoken _⟩) rfl
  intro token htoken
  have hkind := hlegal token htoken
  obtain ⟨earlier, slice, later, rfl, howner⟩ := mem_tokensAfter_iff.1 htoken
  obtain ⟨kind, hsome, hcomment, rfl⟩ := token?_eq_some_iff.1 howner
  cases h.of_append with
  | cons hshape hlater =>
      rw [hsome] at hshape
      refine hshape.relexes hcomment hkind ?_ _
      -- A keyword that was read as a name would become a keyword before a blank, so
      -- the next slice has to be legal.
      rintro rfl
      refine hshape.keyword?_eq_none
        (hlater.stops_blursWord fun other hother => hslices other ?_)
      exact List.mem_append_right _ (List.mem_cons_of_mem _ hother)

/-- Writing out the tokens of a text and reading them again changes neither their
kinds nor their texts. -/
theorem tokenize_rendered (text : String)
    (h : ∀ token ∈ tokenize text, token.kind ≠ .illegal) :
    (tokenize (" ".intercalate (((tokenize text).filter (·.kind ≠ .eof)).map
        Token.rendered))).map Token.entry =
      (tokenize text).map Token.entry := by
  obtain ⟨slices, hchain, htext⟩ := Slice.exists_chain text.toList
  have htokens := tokenize_of_chain hchain htext
  have hfilter :
      (tokenize text).filter (·.kind ≠ .eof) = Slice.tokensAfter [] slices := by
    rw [htokens, List.filter_append, List.filter_eq_self.2 fun token htoken =>
      decide_eq_true (hchain.kind_ne_eof [] token htoken)]
    exact List.append_nil _
  have hrelexes : ∀ token ∈ Slice.tokensAfter [] slices, token.Relexes :=
    hchain.relexes fun token htoken =>
      h token (htokens ▸ List.mem_append_left _ htoken)
  rw [hfilter, htokens, List.map_append, ← entries_scan_intercalate hrelexes 1]
  exact List.map_append

def remarked : String := "if_x=[]int/* a\n*/\"say \\\"\n\\\\\" 1.->é // end"

theorem remarked_tokenize_rendered :
    (∀ token ∈ tokenize remarked, token.kind ≠ .illegal) ∧
      (tokenize (" ".intercalate (((tokenize remarked).filter (·.kind ≠ .eof)).map
          Token.rendered))).map Token.entry =
        (tokenize remarked).map Token.entry :=
  have hlegal : ∀ token ∈ tokenize remarked, token.kind ≠ .illegal := by
    decide +kernel
  ⟨hlegal, tokenize_rendered remarked hlegal⟩

end ExprLang
