import ExprLang.Proofs.Token.Scan

/-!
# Shapes of lexemes

The lexical grammar, with one rule for each family of lexemes: what the raw text of
a lexeme looks like, and which texts may follow it.  A lexeme takes as much of the
text as it can.  `Lexeme.shape_first` says that the first lexeme of a text always
has the shape of its kind, `Lexeme.Shape.first_eq` that no other shape fits.
-/

namespace ExprLang.Lexeme

/-! ## Strings and comments -/

/-- What follows the opening quote of a string literal: all up to the first quote
that no backslash hides, or up to the end of the text. -/
inductive StringTail : List Char → List Char → Prop
  | closed (rest : List Char) : StringTail ['"'] rest
  | unclosed : StringTail [] []
  | lone : StringTail ['\\'] []
  | escaped (character : Char) {tail rest : List Char} (h : StringTail tail rest) :
      StringTail ('\\' :: character :: tail) rest
  | plain {character : Char} {tail rest : List Char} (hquote : character ≠ '"')
      (hbackslash : character ≠ '\\') (h : StringTail tail rest) :
      StringTail (character :: tail) rest

theorem stringTail_stringLength (characters : List Char) :
    StringTail (characters.take (stringLength characters))
      (characters.drop (stringLength characters)) := by
  fun_induction stringLength characters with
  | case1 => exact .unclosed
  | case2 rest => exact .closed rest
  | case3 character rest ih => exact .escaped character ih
  | case4 character rest hquote hescaped ih =>
      by_cases hbackslash : character = '\\'
      · subst hbackslash
        cases rest with
        | nil => exact .lone
        | cons next rest => exact absurd rfl (hescaped next rest rfl)
      · exact .plain hquote hbackslash ih

private theorem StringTail.stringLength_eq {tail rest : List Char}
    (h : StringTail tail rest) :
    stringLength (tail ++ rest) = tail.length := by
  induction h with
  | closed rest => rfl
  | unclosed => rfl
  | lone => rfl
  | escaped character h ih => simp [stringLength, ih]
  | plain hquote hbackslash h ih =>
      rw [List.cons_append, stringLength_cons hquote hbackslash, ih,
        List.length_cons]

theorem StringBody.stringTail {body content : List Char}
    (h : StringBody body content) (rest : List Char) :
    StringTail (body ++ ['"']) rest := by
  induction h with
  | nil => exact .closed rest
  | plain hquote hbackslash _ ih => exact .plain hquote hbackslash ih
  | escaped letter _ ih => exact .escaped letter ih

/-- What follows the opening mark of a block comment with `depth` comments open
inside it: all up to its closing mark or up to the end of the text. -/
inductive BlockTail : Nat → List Char → List Char → Prop
  | closed (rest : List Char) : BlockTail 0 ['*', '/'] rest
  | unclosed (depth : Nat) : BlockTail depth [] []
  | enter {depth : Nat} {tail rest : List Char}
      (h : BlockTail (depth + 1) tail rest) :
      BlockTail depth ('/' :: '*' :: tail) rest
  | leave {depth : Nat} {tail rest : List Char} (h : BlockTail depth tail rest) :
      BlockTail (depth + 1) ('*' :: '/' :: tail) rest
  | plain {depth : Nat} {character : Char} {tail rest : List Char}
      (hopener : ¬ ['/', '*'] <+: character :: (tail ++ rest))
      (hcloser : ¬ ['*', '/'] <+: character :: (tail ++ rest))
      (h : BlockTail depth tail rest) :
      BlockTail depth (character :: tail) rest

theorem blockTail_blockLength (depth : Nat) (characters : List Char) :
    BlockTail depth (characters.take (blockLength depth characters))
      (characters.drop (blockLength depth characters)) := by
  fun_induction blockLength depth characters with
  | case1 depth => exact .unclosed depth
  | case2 depth rest ih => exact .enter ih
  | case3 rest => exact .closed rest
  | case4 depth rest ih => exact .leave ih
  | case5 depth character rest hopener hclosed hcloser ih =>
      have hwhole : rest.take (blockLength depth rest) ++
            rest.drop (blockLength depth rest) = rest :=
        List.take_append_drop _ _
      refine .plain ?_ ?_ ih
      · rintro ⟨after, hafter⟩
        rw [List.drop_succ_cons, hwhole] at hafter
        cases hafter
        exact hopener after rfl rfl
      · rintro ⟨after, hafter⟩
        rw [List.drop_succ_cons, hwhole] at hafter
        cases hafter
        cases depth with
        | zero => exact hclosed after rfl rfl rfl
        | succ depth => exact hcloser depth after rfl rfl rfl

theorem BlockTail.blockLength_eq {depth : Nat} {tail rest : List Char}
    (h : BlockTail depth tail rest) :
    blockLength depth (tail ++ rest) = tail.length := by
  induction h with
  | closed rest => rfl
  | unclosed depth => rfl
  | enter h ih => simp [blockLength, ih]
  | leave h ih => simp [blockLength, ih]
  | plain hopener hcloser h ih =>
      rw [List.cons_append, blockLength, ih, List.length_cons]
      · rintro after rfl hafter
        exact hopener ⟨after, by rw [hafter]; rfl⟩
      · rintro after rfl rfl hafter
        exact hcloser ⟨after, by rw [hafter]; rfl⟩
      · rintro depth after rfl rfl hafter
        exact hcloser ⟨after, by rw [hafter]; rfl⟩

/-! ## Marks -/

private theorem pairwise_markKinds : markKinds.Pairwise fun kind later =>
    later.spelling.length ≤ kind.spelling.length ∧
      later.spelling ≠ kind.spelling := by
  decide

theorem eq_or_length_le_of_find? {text : List Char} {kind other : Kind}
    (hfind : markKinds.find? (·.spelling.toList.isPrefixOf text) = some kind)
    (hother : other ∈ markKinds) (hspelled : other.spelling.toList <+: text) :
    other = kind ∨ other.spelling.length ≤ kind.spelling.length ∧
        other.spelling ≠ kind.spelling := by
  obtain ⟨-, earlier, later, hkinds, hearlier⟩ :=
    List.find?_eq_some_iff_append.1 hfind
  have hpairwise := pairwise_markKinds
  rw [hkinds] at hother hpairwise
  rcases List.mem_append.1 hother with hmember | hmember
  · simpa [List.isPrefixOf_iff_prefix.2 hspelled] using hearlier other hmember
  · rcases List.mem_cons.1 hmember with rfl | hmember
    · exact .inl rfl
    · exact .inr ((List.pairwise_cons.1 (List.pairwise_append.1 hpairwise).2.1).1
          other hmember)

def Longest (kind : Kind) (text : List Char) : Prop :=
  ∀ other ∈ markKinds,
    other.spelling.toList <+: text → other.spelling.length ≤ kind.spelling.length

private theorem longest_of_find? {text : List Char} {kind : Kind}
    (h : markKinds.find? (·.spelling.toList.isPrefixOf text) = some kind) :
    Longest kind text := by
  intro other hother hspelled
  rcases eq_or_length_le_of_find? h hother hspelled with rfl | ⟨hle, -⟩
  · exact Nat.le_refl _
  · exact hle

private theorem Longest.find?_eq {text : List Char} {kind : Kind}
    (h : Longest kind text) (hkind : kind ∈ markKinds)
    (hspelled : kind.spelling.toList <+: text) :
    markKinds.find? (·.spelling.toList.isPrefixOf text) = some kind := by
  cases hfind : markKinds.find? (·.spelling.toList.isPrefixOf text) with
  | none =>
      exact absurd (List.isPrefixOf_iff_prefix.2 hspelled)
        (List.find?_eq_none.1 hfind kind hkind)
  | some found =>
      have hfound := List.find?_some hfind
      have hinitial : found.spelling.toList <+: text :=
        List.isPrefixOf_iff_prefix.1 hfound
      have hle := h found (List.mem_of_find?_eq_some hfind) hinitial
      rcases eq_or_length_le_of_find? hfind hkind hspelled with rfl | ⟨hge, hne⟩
      · rfl
      · rw [← String.length_toList, ← String.length_toList] at hle hge
        have hsame := List.prefix_of_prefix_length_le hspelled hinitial hge
        exact absurd
          (String.toList_inj.1 (hsame.eq_of_length (Nat.le_antisymm hge hle))) hne

/-! ## The grammar -/

/-- A lexeme of a kind, blanks having none: its raw text and what follows it. -/
inductive Shape : Option Kind → List Char → List Char → Prop
  | blanks {raw rest : List Char} (hne : raw ≠ [])
      (hblank : ∀ character ∈ raw, isBlank character = true)
      (hstops : Stops isBlank rest) :
      Shape none raw rest
  | lineComment {tail rest : List Char} (hline : '\n' ∉ tail)
      (hstops : Stops (· ≠ '\n') rest) :
      Shape (some .lineComment) ('/' :: '/' :: tail) rest
  | blockComment {tail rest : List Char} (htail : BlockTail 0 tail rest) :
      Shape (some .blockComment) ('/' :: '*' :: tail) rest
  | string {tail rest : List Char} (htail : StringTail tail rest) :
      Shape (some .string) ('"' :: tail) rest
  | int {raw rest : List Char} (hne : raw ≠ [])
      (hdigits : ∀ character ∈ raw, character.isDigit = true)
      (hstops : Stops Char.isDigit rest) (hpoint : rest.head? ≠ some '.') :
      Shape (some .int) raw rest
  | float {whole fraction rest : List Char} (hne : whole ≠ [])
      (hwhole : ∀ character ∈ whole, character.isDigit = true)
      (hfraction : ∀ character ∈ fraction, character.isDigit = true)
      (hstops : Stops Char.isDigit rest) :
      Shape (some .float) (whole ++ '.' :: fraction) rest
  | keyword {kind : Kind} {raw rest : List Char}
      (hkeyword : keyword? raw = some kind) (hstops : Stops continuesWord rest)
      (hclear : Stops blursWord rest) :
      Shape (some kind) raw rest
  /-- A keyword counts as a name before a character that blurs it. -/
  | identifier {raw rest : List Char} (hword : isWord raw = true)
      (hstops : Stops continuesWord rest)
      (hkeyword : Stops blursWord rest → keyword? raw = none) :
      Shape (some .identifier) raw rest
  | mark {kind : Kind} {rest : List Char} (hkind : kind ∈ markKinds)
      (hlongest : Longest kind (kind.spelling.toList ++ rest))
      (hcomment : ∀ next ∈ ['/', '*'],
        ¬ ['/', next] <+: kind.spelling.toList ++ rest) :
      Shape (some kind) kind.spelling.toList rest
  | illegal {character : Char} {rest : List Char}
      (hbegins : isBlank character = false ∧ character ≠ '"' ∧
        character.isDigit = false ∧ startsWord character = false)
      (hmarks : ∀ kind ∈ markKinds, ¬ kind.spelling.toList <+: character :: rest) :
      Shape (some .illegal) [character] rest

theorem Shape.kind_ne_eof {kind : Kind} {raw rest : List Char}
    (h : Shape (some kind) raw rest) : kind ≠ .eof := by
  cases h with
  | keyword hkeyword =>
      rintro rfl
      exact absurd (mem_of_keyword? hkeyword) (by decide)
  | mark hkind =>
      rintro rfl
      exact absurd hkind (by decide)
  | _ => simp

/-! ## The first lexeme -/

private theorem shape_number {character : Char} (hdigit : character.isDigit = true)
    (characters : List Char) :
    Shape (number characters).kind?
      (character :: characters.take (number characters).extra)
      (characters.drop (number characters).extra) := by
  have hall (text : List Char) : ∀ other ∈ text.takeWhile Char.isDigit,
      other.isDigit = true :=
    List.all_eq_true.1 List.all_takeWhile
  have hwhole : ∀ other ∈ character :: characters.takeWhile Char.isDigit,
      other.isDigit = true := by
    intro other hother
    rcases List.mem_cons.1 hother with rfl | hother
    · exact hdigit
    · exact hall characters other hother
  simp only [number, drop_length_takeWhile]
  split
  · rename_i after hafter
    have hsplit : characters = (characters.takeWhile Char.isDigit ++
            '.' :: after.takeWhile Char.isDigit) ++
          after.dropWhile Char.isDigit := by
      rw [List.append_assoc, List.cons_append, List.takeWhile_append_dropWhile,
        ← hafter, List.takeWhile_append_dropWhile]
    have hlength : (characters.takeWhile Char.isDigit).length + 1 +
          (after.takeWhile Char.isDigit).length =
        (characters.takeWhile Char.isDigit ++
          '.' :: after.takeWhile Char.isDigit).length := by
      simp only [List.length_append, List.length_cons]
      omega
    have htake : characters.take (characters.takeWhile Char.isDigit ++
          '.' :: after.takeWhile Char.isDigit).length =
        characters.takeWhile Char.isDigit ++ '.' :: after.takeWhile Char.isDigit :=
      (congrArg (List.take _) hsplit).trans List.take_left
    have hdrop : characters.drop (characters.takeWhile Char.isDigit ++
          '.' :: after.takeWhile Char.isDigit).length =
        after.dropWhile Char.isDigit :=
      (congrArg (List.drop _) hsplit).trans List.drop_left
    rw [hlength, htake, hdrop]
    exact .float (List.cons_ne_nil _ _) hwhole (hall after)
      (stops_dropWhile _ after)
  · rename_i hpoint
    rw [take_length_takeWhile, drop_length_takeWhile]
    refine .int (List.cons_ne_nil _ _) hwhole (stops_dropWhile _ characters) ?_
    intro hhead
    obtain ⟨after, hafter⟩ := List.head?_eq_some_iff.1 hhead
    exact hpoint after hafter

private theorem shape_word {character : Char}
    (hstarts : startsWord character = true) (hdigit : character.isDigit = false)
    (characters : List Char) :
    Shape (word character characters).kind?
      (character :: characters.take (word character characters).extra)
      (characters.drop (word character characters).extra) := by
  have hword : isWord (character :: characters.takeWhile continuesWord) = true := by
    simp [isWord, hstarts, hdigit]
  have hstops := stops_dropWhile continuesWord characters
  simp only [word, take_length_takeWhile, drop_length_takeWhile]
  split
  · rename_i hblurred
    exact .identifier hword hstops fun hclear =>
      absurd hblurred (by simp [stops_iff.1 hclear])
  · rename_i hclear
    cases hkeyword : keyword? (character :: characters.takeWhile continuesWord) with
    | none => exact .identifier hword hstops fun _ => hkeyword
    | some kind =>
        exact .keyword hkeyword hstops (stops_iff.2 (by simpa using hclear))

private theorem shape_mark {character : Char} {characters : List Char}
    (hbegins : isBlank character = false ∧ character ≠ '"' ∧
      character.isDigit = false ∧ startsWord character = false)
    (hcomment : ∀ next ∈ ['/', '*'], ¬ ['/', next] <+: character :: characters) :
    Shape (mark character characters).kind?
      (character :: characters.take (mark character characters).extra)
      (characters.drop (mark character characters).extra) := by
  have hnonempty : ∀ kind ∈ markKinds, kind.spelling.length ≠ 0 := by decide
  unfold mark
  split
  · rename_i kind hfind
    have hkind := List.mem_of_find?_eq_some hfind
    have hfound := List.find?_some hfind
    obtain ⟨rest, hrest⟩ := List.isPrefixOf_iff_prefix.1 hfound
    have hlength : kind.spelling.length - 1 + 1 = kind.spelling.toList.length := by
      rw [String.length_toList,
        Nat.sub_add_cancel (Nat.pos_of_ne_zero (hnonempty kind hkind))]
    have htake : character :: characters.take (kind.spelling.length - 1) =
        kind.spelling.toList := by
      rw [← List.take_succ_cons, hlength, ← hrest, List.take_left]
    have hdrop : characters.drop (kind.spelling.length - 1) = rest := by
      rw [← List.drop_succ_cons (a := character), hlength, ← hrest, List.drop_left]
    rw [htake, hdrop]
    rw [← hrest] at hfind hcomment
    exact .mark hkind (longest_of_find? hfind) hcomment
  · rename_i hfind
    refine .illegal hbegins fun kind hkind hspelled => ?_
    exact List.find?_eq_none.1 hfind kind hkind
      (List.isPrefixOf_iff_prefix.2 hspelled)

private theorem head?_eq_of_initial {first second character : Char}
    {characters : List Char} (h : [first, second] <+: character :: characters) :
    character = first ∧ characters.head? = some second := by
  obtain ⟨rest, hrest⟩ := h
  cases hrest
  exact ⟨rfl, rfl⟩

/-- The first lexeme of a text has the shape of its kind. -/
theorem shape_first (character : Char) (characters : List Char) :
    Shape (first character characters).kind?
      (character :: characters.take (first character characters).extra)
      (characters.drop (first character characters).extra) := by
  unfold first
  split
  · rename_i hblank
    simp only [take_length_takeWhile, drop_length_takeWhile]
    refine .blanks (List.cons_ne_nil _ _) ?_ (stops_dropWhile _ characters)
    intro other hother
    rcases List.mem_cons.1 hother with rfl | hother
    · exact hblank
    · exact List.all_eq_true.1 List.all_takeWhile other hother
  split
  · rename_i hslashes
    obtain ⟨rfl, hnext⟩ := hslashes
    obtain ⟨after, rfl⟩ := List.head?_eq_some_iff.1 hnext
    simp only [take_length_takeWhile, drop_length_takeWhile]
    refine .lineComment (fun hline => ?_) (stops_dropWhile _ after)
    simpa using List.all_eq_true.1 List.all_takeWhile _ hline
  split
  · rename_i hopens
    obtain ⟨rfl, hnext⟩ := hopens
    obtain ⟨after, rfl⟩ := List.head?_eq_some_iff.1 hnext
    exact .blockComment (blockTail_blockLength 0 after)
  split
  · rename_i hquote
    subst hquote
    exact .string (stringTail_stringLength characters)
  split
  · rename_i hdigit
    exact shape_number hdigit characters
  split
  · rename_i hdigit hstarts
    exact shape_word hstarts (by simpa using hdigit) characters
  · rename_i hblank hslashes hopens hquote hdigit hstarts
    refine shape_mark
      ⟨by simpa using hblank, hquote, by simpa using hdigit,
        by simpa using hstarts⟩ ?_
    intro next hnext hspelled
    have hhead := head?_eq_of_initial hspelled
    rcases List.mem_cons.1 hnext with rfl | hnext
    · exact hslashes hhead
    · exact hopens (List.mem_singleton.1 hnext ▸ hhead)

/-! ## Unambiguity -/

private theorem isWord_of_keyword? {raw : List Char} {kind : Kind}
    (h : keyword? raw = some kind) :
    isWord raw = true := by
  unfold keyword? at h
  split at h
  · rename_i hraw
    exact hraw ▸ rfl
  split at h
  · rename_i hraw
    exact hraw ▸ rfl
  split at h
  · rename_i hraw
    exact hraw ▸ rfl
  split at h
  · rename_i hraw
    rcases hraw with rfl | rfl <;> rfl
  split at h
  · rename_i hraw
    rcases hraw with rfl | rfl | rfl | rfl <;> rfl
  · cases h

private theorem first_mark {character : Char} {tail rest : List Char} {kind : Kind}
    (hkind : kind ∈ markKinds)
    (hspelling : kind.spelling.toList = character :: tail)
    (hlongest : Longest kind (character :: tail ++ rest))
    (hcomment : ∀ next ∈ ['/', '*'], ¬ ['/', next] <+: character :: tail ++ rest) :
    first character (tail ++ rest) = ⟨some kind, tail.length⟩ := by
  have hbegins : ∀ kind ∈ markKinds, kind.spelling.toList.head?.any (fun other =>
        !isBlank other && other ≠ '"' && !other.isDigit && !startsWord other) =
      true := by decide
  have hhead := hbegins kind hkind
  rw [hspelling] at hhead
  simp only [List.head?_cons, Option.any_some, Bool.and_eq_true, Bool.not_eq_true',
    decide_eq_true_eq] at hhead
  obtain ⟨⟨⟨hblank, hquote⟩, hdigit⟩, hstarts⟩ := hhead
  have hslash (next : Char) (hnext : next ∈ ['/', '*']) :
      ¬ (character = '/' ∧ (tail ++ rest).head? = some next) := by
    rintro ⟨rfl, hhead⟩
    obtain ⟨after, hafter⟩ := List.head?_eq_some_iff.1 hhead
    exact hcomment next hnext ⟨after, (congrArg (List.cons '/') hafter).symm⟩
  have hfind := hlongest.find?_eq hkind ⟨rest, by rw [hspelling]⟩
  have hlength : kind.spelling.length - 1 = tail.length := by
    rw [← String.length_toList, hspelling]
    rfl
  rw [first, if_neg (by simp [hblank]), if_neg (hslash '/' (by simp)),
    if_neg (hslash '*' (by simp)), if_neg hquote, if_neg (by simp [hdigit]),
    if_neg (by simp [hstarts]), mark, ← List.cons_append, hfind]
  simp [hlength]

/-- A text that has the shape of a lexeme before the rest of the text is cut off as
that lexeme. -/
theorem Shape.first_eq {kind? : Option Kind} {raw rest : List Char}
    (h : Shape kind? raw rest) :
    ∃ character tail, raw = character :: tail ∧
      first character (tail ++ rest) = ⟨kind?, tail.length⟩ := by
  cases h with
  | blanks hne hblank hstops =>
      obtain ⟨character, tail, rfl⟩ := List.exists_cons_of_ne_nil hne
      refine ⟨character, tail, rfl, ?_⟩
      have htail :=
        fun other hother => hblank other (List.mem_cons_of_mem character hother)
      rw [first, if_pos (hblank character List.mem_cons_self),
        takeWhile_append_of_stops htail hstops]
  | @lineComment tail _ hline hstops =>
      refine ⟨'/', '/' :: tail, rfl, ?_⟩
      have htail : ∀ other ∈ '/' :: tail, decide (other ≠ '\n') = true := by
        rintro other hother
        rcases List.mem_cons.1 hother with rfl | hother
        · rfl
        · exact decide_eq_true fun heq => hline (heq ▸ hother)
      rw [first, if_neg (by decide), if_pos ⟨rfl, rfl⟩,
        takeWhile_append_of_stops htail hstops]
  | @blockComment tail _ htail =>
      refine ⟨'/', '*' :: tail, rfl, ?_⟩
      rw [first, if_neg (by decide), if_neg (by simp), if_pos ⟨rfl, rfl⟩,
        List.cons_append, List.tail_cons, htail.blockLength_eq, List.length_cons]
  | @string tail _ htail =>
      refine ⟨'"', tail, rfl, ?_⟩
      rw [first, if_neg (by decide), if_neg (by simp), if_neg (by simp), if_pos rfl,
        htail.stringLength_eq]
  | int hne hdigits hstops hpoint =>
      obtain ⟨character, tail, rfl⟩ := List.exists_cons_of_ne_nil hne
      exact ⟨character, tail, rfl,
        first_number (hdigits character List.mem_cons_self)
          (fun other hother => hdigits other (List.mem_cons_of_mem _ hother)) hstops
          hpoint⟩
  | @float whole fraction _ hne hwhole hfraction hstops =>
      obtain ⟨character, tail, rfl⟩ := List.exists_cons_of_ne_nil hne
      exact ⟨character, tail ++ '.' :: fraction, rfl,
        first_float (hwhole character List.mem_cons_self)
          (fun other hother => hwhole other (List.mem_cons_of_mem _ hother))
          hfraction hstops⟩
  | keyword hkeyword hstops hclear =>
      have hword := isWord_of_keyword? hkeyword
      cases raw with
      | nil => exact absurd hword (by decide)
      | cons character tail =>
          refine ⟨character, tail, rfl, ?_⟩
          rw [first_word hword hstops, stops_iff.1 hclear, hkeyword]
          rfl
  | identifier hword hstops hkeyword =>
      cases raw with
      | nil => exact absurd hword (by decide)
      | cons character tail =>
          refine ⟨character, tail, rfl, ?_⟩
          rw [first_word hword hstops]
          split
          · rfl
          · rename_i hclear
            rw [hkeyword (stops_iff.2 (by simpa using hclear))]
            rfl
  | mark hkind hlongest hcomment =>
      have hnonempty : ∀ kind ∈ markKinds, kind.spelling.toList ≠ [] := by decide
      obtain ⟨character, tail, hspelling⟩ :=
        List.exists_cons_of_ne_nil (hnonempty _ hkind)
      rw [hspelling] at hlongest hcomment
      exact ⟨character, tail, hspelling,
        first_mark hkind hspelling hlongest hcomment⟩
  | @illegal character _ hbegins hmarks =>
      refine ⟨character, [], rfl, ?_⟩
      obtain ⟨hblank, hquote, hdigit, hstarts⟩ := hbegins
      have hslash : character ≠ '/' := by
        rintro rfl
        exact hmarks (.operator .div) (by decide) ⟨rest, rfl⟩
      have hfind : markKinds.find? (·.spelling.toList.isPrefixOf (character ::
            rest)) = none :=
        List.find?_eq_none.2 fun kind hkind hspelled =>
          hmarks kind hkind (List.isPrefixOf_iff_prefix.1 hspelled)
      simp [first, hblank, hslash, hquote, hdigit, hstarts, Lexeme.mark, hfind]

end ExprLang.Lexeme
