import ExprLang.Proofs.Number.Literal
import ExprLang.Token.Lexer

/-!
# Scanning a text

`scan` lists the tokens of a text that begins on a given line, and the line where
the text ends.  `Reads line text tokens rest` says that `text`, where `rest`
follows, gives the tokens `tokens`, all on one line.  Texts that are read one after
the other are read together.
-/

namespace ExprLang

def scan (line : Nat) (characters : List Char) : List Token × Nat :=
  TokenStream.collect (Cursor.mk characters line)

theorem scan_eq (line : Nat) (characters : List Char) :
    scan line characters =
      if (Cursor.nextFrom line characters).1.kind = .eof then ([],
          (Cursor.nextFrom line characters).1.line)
      else 
        ((Cursor.nextFrom line characters).1 ::
          (scan (Cursor.nextFrom line characters).2.line
            (Cursor.nextFrom line characters).2.rest).1,
          (scan (Cursor.nextFrom line characters).2.line
            (Cursor.nextFrom line characters).2.rest).2) := by
  rw [scan, TokenStream.collect]
  rfl

theorem scan_nil (line : Nat) : scan line [] = ([], line) := by
  rw [scan_eq, Cursor.nextFrom]
  rfl

theorem scan_skip {character : Char} {characters : List Char}
    (h : (Lexeme.first character characters).kind?.all Kind.isComment = true)
    (line : Nat) :
    scan line (character :: characters) =
      scan
        (line + (character ::
            characters.take (Lexeme.first character characters).extra).count '\n')
        (characters.drop (Lexeme.first character characters).extra) := by
  have hnext : Cursor.nextFrom line (character :: characters) =
      Cursor.nextFrom
        (line + (character ::
            characters.take (Lexeme.first character characters).extra).count '\n')
        (characters.drop (Lexeme.first character characters).extra) := by
    rw [Cursor.nextFrom]
    cases hkind : (Lexeme.first character characters).kind? with
    | none => rfl
    | some kind =>
        rw [hkind] at h
        exact if_pos h
  rw [scan_eq line, hnext, ← scan_eq]

private theorem scan_token {character : Char} {characters : List Char} {kind : Kind}
    (h : (Lexeme.first character characters).kind? = some kind)
    (hcomment : kind.isComment = false) (hend : kind ≠ .eof) (line : Nat) :
    scan line (character :: characters) =
      let raw :=
        character :: characters.take (Lexeme.first character characters).extra
      let rest := scan (line + raw.count '\n')
        (characters.drop (Lexeme.first character characters).extra)
      (⟨kind, Lexeme.text kind raw, line⟩ :: rest.1, rest.2) := by
  have hnext : Cursor.nextFrom line (character :: characters) =
      let raw :=
        character :: characters.take (Lexeme.first character characters).extra
      (⟨kind, Lexeme.text kind raw, line⟩,
        ⟨characters.drop (Lexeme.first character characters).extra,
          line + raw.count '\n'⟩) := by
    rw [Cursor.nextFrom]
    simp [h, hcomment]
  rw [scan_eq, hnext, if_neg hend]

theorem scan_lexeme {character : Char} {tail rest : List Char} {kind : Kind}
    (h : Lexeme.first character (tail ++ rest) = ⟨some kind, tail.length⟩)
    (hcomment : kind.isComment = false) (hend : kind ≠ .eof) (line : Nat) :
    scan line (character :: tail ++ rest) =
      (⟨kind, Lexeme.text kind (character :: tail), line⟩ ::
        (scan (line + (character :: tail).count '\n') rest).1,
        (scan (line + (character :: tail).count '\n') rest).2) := by
  rw [List.cons_append, scan_token (congrArg Lexeme.kind? h) hcomment hend]
  simp [h]

/-! ## Texts of one line -/

def Reads (line : Nat) (text : String) (tokens : List Token) (rest : List Char) :
    Prop :=
  scan line (text.toList ++ rest) =
    (tokens ++ (scan line rest).1, (scan line rest).2)

namespace Reads

variable {line : Nat} {text other : String} {rest : List Char}
    {tokens others : List Token}

theorem empty (line : Nat) (rest : List Char) : Reads line "" [] rest := by
  simp [Reads]

theorem append (h : Reads line text tokens (other.toList ++ rest))
    (hother : Reads line other others rest) :
    Reads line (text ++ other) (tokens ++ others) rest := by
  rw [Reads] at h hother ⊢
  rw [String.toList_append, List.append_assoc, h, hother, List.append_assoc]

theorem of_eq (h : Reads line text tokens rest) (heq : tokens = others) :
    Reads line text others rest :=
  heq ▸ h

theorem tokenize_eq (h : Reads 1 text tokens []) :
    tokenize text = tokens ++ [.eof 1] := by
  rw [Reads, scan_nil, List.append_nil, List.append_nil] at h
  show (scan 1 text.toList).1 ++ [Token.eof (scan 1 text.toList).2] = _
  rw [h]

theorem lexeme {character : Char} {tail : List Char} {kind : Kind}
    (htext : text.toList = character :: tail)
    (h : Lexeme.first character (tail ++ rest) = ⟨some kind, tail.length⟩)
    (hcomment : kind.isComment = false) (hend : kind ≠ .eof)
    (hline : '\n' ∉ text.toList) (line : Nat) :
    Reads line text [⟨kind, Lexeme.text kind text.toList, line⟩] rest := by
  rw [htext] at hline
  rw [Reads, htext, scan_lexeme h hcomment hend, List.count_eq_zero.2 hline]
  rfl

theorem verbatim {character : Char} {tail : List Char} {kind : Kind}
    (htext : text.toList = character :: tail)
    (h : Lexeme.first character (tail ++ rest) = ⟨some kind, tail.length⟩)
    (hcomment : kind.isComment = false) (hend : kind ≠ .eof)
    (hstring : kind ≠ .string) (hline : '\n' ∉ text.toList) (line : Nat) :
    Reads line text [⟨kind, text, line⟩] rest := by
  have hreads := lexeme htext h hcomment hend hline line
  rwa [Lexeme.text, if_neg hstring, String.ofList_toList] at hreads

end Reads

/-! ## Blanks -/

theorem drop_length_takeWhile (accepts : Char → Bool) (characters : List Char) :
    characters.drop (characters.takeWhile accepts).length =
      characters.dropWhile accepts := by
  have hsplit := List.takeWhile_append_dropWhile (p := accepts) (l := characters)
  calc characters.drop (characters.takeWhile accepts).length
      = (characters.takeWhile accepts ++ characters.dropWhile accepts).drop
          (characters.takeWhile accepts).length := by rw [hsplit]
    _ = characters.dropWhile accepts := List.drop_left

theorem take_length_takeWhile (accepts : Char → Bool) (characters : List Char) :
    characters.take (characters.takeWhile accepts).length =
      characters.takeWhile accepts := by
  have hsplit := List.takeWhile_append_dropWhile (p := accepts) (l := characters)
  calc characters.take (characters.takeWhile accepts).length
      = (characters.takeWhile accepts ++ characters.dropWhile accepts).take
          (characters.takeWhile accepts).length := by rw [hsplit]
    _ = characters.takeWhile accepts := List.take_left

/-- What follows a run of accepted characters does not continue it. -/
def Stops (accepts : Char → Bool) (rest : List Char) : Prop :=
  ∀ next ∈ rest.head?, accepts next = false

theorem stops_iff {accepts : Char → Bool} {rest : List Char} :
    Stops accepts rest ↔ rest.head?.any accepts = false := by
  cases rest <;> simp [Stops]

theorem stops_dropWhile (accepts : Char → Bool) (characters : List Char) :
    Stops accepts (characters.dropWhile accepts) := by
  intro next hnext
  have hstops := List.head?_dropWhile_not accepts characters
  rw [hnext] at hstops
  simpa using hstops

theorem takeWhile_append_of_stops {accepts : Char → Bool} {body rest : List Char}
    (hbody : ∀ character ∈ body, accepts character = true)
    (hrest : Stops accepts rest) :
    (body ++ rest).takeWhile accepts = body := by
  rw [List.takeWhile_append_of_pos hbody]
  cases rest with
  | nil => simp
  | cons next rest =>
      rw [List.takeWhile_cons_of_neg (by simp [hrest next rfl]), List.append_nil]

theorem scan_blanks {character : Char} (h : Lexeme.isBlank character = true)
    (line : Nat) (characters : List Char) :
    scan line (character :: characters) =
      scan line (characters.dropWhile Lexeme.isBlank) := by
  have hfirst : Lexeme.first character characters =
      ⟨none, (characters.takeWhile Lexeme.isBlank).length⟩ := by
    rw [Lexeme.first, if_pos h]
  have hline : '\n' ∉ character :: characters.takeWhile Lexeme.isBlank := by
    intro hmember
    have hblank : Lexeme.isBlank '\n' = true := by
      rcases List.mem_cons.1 hmember with rfl | htail
      · exact h
      · exact List.all_eq_true.1 List.all_takeWhile _ htail
    exact absurd hblank (by decide)
  rw [scan_skip (by rw [hfirst]; rfl), hfirst]
  simp only [take_length_takeWhile, drop_length_takeWhile,
    List.count_eq_zero.2 hline]
  rfl

theorem scan_dropWhile_isBlank (line : Nat) (characters : List Char) :
    scan line (characters.dropWhile Lexeme.isBlank) = scan line characters := by
  cases characters with
  | nil => rfl
  | cons character characters =>
      by_cases hblank : Lexeme.isBlank character = true
      · rw [scan_blanks hblank, List.dropWhile_cons_of_pos hblank]
      · rw [List.dropWhile_cons_of_neg hblank]

theorem Reads.blank (line : Nat) (rest : List Char) : Reads line " " [] rest := by
  show scan line (' ' :: rest) = _
  rw [scan_blanks rfl, scan_dropWhile_isBlank]
  rfl

/-! ## Marks -/

theorem Reads.spelled (kind : Kind) {character : Char} {tail rest : List Char}
    (hspelling : kind.spelling.toList = character :: tail)
    (h : Lexeme.first character (tail ++ rest) = ⟨some kind, tail.length⟩)
    (hline : '\n' ∉ kind.spelling.toList) (line : Nat) :
    Reads line kind.spelling [.ofKind kind line] rest := by
  refine .verbatim hspelling h ?_ ?_ ?_ hline line
  · cases kind <;> first | rfl | simp [Kind.spelling, Kind.spelling?] at hspelling
  · rintro rfl
    simp [Kind.spelling, Kind.spelling?] at hspelling
  · rintro rfl
    simp [Kind.spelling, Kind.spelling?] at hspelling

def Kind.isSolitary : Kind → Bool
  | .arrow | .arrayMark | .comma | .opening .paren | .opening .brace | .closing _ =>
      true
  | _ => false

theorem Reads.solitary (kind : Kind) (h : kind.isSolitary = true) (line : Nat)
    (rest : List Char) :
    Reads line kind.spelling [.ofKind kind line] rest := by
  cases kind with
  | arrow | arrayMark | comma => exact .spelled _ rfl rfl (by decide) line
  | opening bracket =>
      cases bracket with
      | paren | brace => exact .spelled _ rfl rfl (by decide) line
      | square => exact absurd h (by decide)
  | closing bracket => cases bracket <;> exact .spelled _ rfl rfl (by decide) line
  | _ => exact absurd h (by simp [Kind.isSolitary])

theorem Reads.operator (op : Operator) (line : Nat) (rest : List Char) :
    Reads line op.symbol [.ofKind (.operator op) line] (' ' :: rest) := by
  change Reads line (Kind.operator op).spelling _ _
  cases op <;> exact .spelled _ rfl rfl (by decide) line

theorem Reads.assign (line : Nat) (rest : List Char) :
    Reads line "=" [.ofKind .assign line] (' ' :: rest) :=
  .spelled .assign rfl rfl (by decide) line

theorem Reads.bang {rest : List Char} (h : rest.head? ≠ some '=') (line : Nat) :
    Reads line "!" [.ofKind .bang line] rest := by
  refine .spelled .bang rfl ?_ (by decide) line
  show Lexeme.mark '!' rest = _
  cases rest with
  | nil => rfl
  | cons character rest =>
      have hne : '=' ≠ character := fun heq => h (heq ▸ rfl)
      have hfind : Lexeme.markKinds.find? (·.spelling.toList.isPrefixOf ('!' ::
            character :: rest)) = some .bang := by
        simp [Lexeme.markKinds, Kind.spelling, Kind.spelling?, Operator.symbol, hne]
      rw [Lexeme.mark, hfind]
      rfl

theorem Reads.openingSquare {rest : List Char} (h : rest.head? ≠ some ']')
    (line : Nat) :
    Reads line "[" [.ofKind (.opening .square) line] rest := by
  refine .spelled (.opening .square) rfl ?_ (by decide) line
  show Lexeme.mark '[' rest = _
  cases rest with
  | nil => rfl
  | cons character rest =>
      have hne : ']' ≠ character := fun heq => h (heq ▸ rfl)
      have hfind : Lexeme.markKinds.find? (·.spelling.toList.isPrefixOf ('[' ::
            character :: rest)) = some (.opening .square) := by
        simp [Lexeme.markKinds, Kind.spelling, Kind.spelling?, Operator.symbol,
          Bracket.opener, Bracket.closer, hne]
      rw [Lexeme.mark, hfind]
      rfl

/-! ## Words and numbers -/

def wordEnds : List Char := [' ', ',', ')', ']', '\n']

/-- Nothing that may continue a word or a number follows. -/
def Ends (rest : List Char) : Prop := ∀ character ∈ rest.head?, character ∈ wordEnds

theorem ends_nil : Ends [] := by
  simp [Ends]

theorem ends_append (text : String)
    (h : text.toList.head?.any wordEnds.contains = true) (rest : List Char) :
    Ends (text.toList ++ rest) := by
  cases htext : text.toList with
  | nil => simp [htext] at h
  | cons character tail =>
      intro other hother
      cases hother
      simpa [htext] using h

theorem Ends.stops {accepts : Char → Bool} {rest : List Char} (h : Ends rest)
    (haccepts : wordEnds.any accepts = false) : Stops accepts rest :=
  fun character hcharacter =>
    by simpa using List.any_eq_false.1 haccepts character (h character hcharacter)

namespace Lexeme

theorem first_of_accepts {accepts : Char → Bool} {character : Char}
    (h : accepts character = true)
    (hexcluded : [' ', '\t', '\r', '\x0c', '/', '"'].any accepts = false)
    (rest : List Char) :
    first character rest = if character.isDigit then number rest
        else if startsWord character then word character rest
          else mark character rest := by
  have hmember : character ∉ [' ', '\t', '\r', '\x0c', '/', '"'] := fun hmember =>
    List.any_eq_false.1 hexcluded character hmember h
  simp only [List.mem_cons, List.not_mem_nil, or_false, not_or] at hmember
  simp [first, isBlank, hmember]

def isWord : List Char → Bool
  | [] => false
  | character :: tail =>
      startsWord character && !character.isDigit && tail.all continuesWord

theorem first_word {character : Char} {tail rest : List Char}
    (h : isWord (character :: tail) = true) (hrest : Stops continuesWord rest) :
    first character (tail ++ rest) =
      ⟨some (if rest.head?.any blursWord then .identifier
        else (keyword? (character :: tail)).getD .identifier),
        tail.length⟩ := by
  simp only [isWord, Bool.and_eq_true, Bool.not_eq_true', List.all_eq_true] at h
  obtain ⟨⟨hstarts, hdigit⟩, htail⟩ := h
  have htake : (tail ++ rest).takeWhile continuesWord = tail :=
    takeWhile_append_of_stops htail hrest
  rw [first_of_accepts hstarts rfl, hdigit, hstarts]
  simp [word, htake]

theorem first_number {character : Char} {tail rest : List Char}
    (hdigit : character.isDigit = true)
    (htail : ∀ other ∈ tail, other.isDigit = true) (hrest : Stops Char.isDigit rest)
    (hpoint : rest.head? ≠ some '.') :
    first character (tail ++ rest) = ⟨some .int, tail.length⟩ := by
  have htake : (tail ++ rest).takeWhile Char.isDigit = tail :=
    takeWhile_append_of_stops htail hrest
  have hnumber : number (tail ++ rest) = ⟨some .int, tail.length⟩ := by
    rw [number, htake]
    simp only [List.drop_left]
    split
    · exact absurd rfl hpoint
    · rfl
  rw [first_of_accepts hdigit rfl, hdigit, hnumber]
  rfl

theorem first_float {character : Char} {whole fraction rest : List Char}
    (hdigit : character.isDigit = true)
    (hwhole : ∀ other ∈ whole, other.isDigit = true)
    (hfraction : ∀ other ∈ fraction, other.isDigit = true)
    (hrest : Stops Char.isDigit rest) :
    first character ((whole ++ '.' :: fraction) ++ rest) =
      ⟨some .float, (whole ++ '.' :: fraction).length⟩ := by
  have hpoint : Stops Char.isDigit ('.' :: (fraction ++ rest)) := by
    rintro _ ⟨⟩
    rfl
  have htake := takeWhile_append_of_stops hwhole hpoint
  have hafter := takeWhile_append_of_stops hfraction hrest
  rw [List.append_assoc, List.cons_append, first_of_accepts hdigit rfl, hdigit,
    if_pos rfl, number, htake]
  simp only [List.drop_left, hafter, List.length_append, List.length_cons]
  rw [Nat.add_assoc, Nat.add_comm 1]

/-- A name is a text that is one lexeme, and that lexeme an identifier. -/
def IsName (name : String) : Prop :=
  ∃ character tail, name.toList = character :: tail ∧
    first character tail = ⟨some .identifier, tail.length⟩

instance (name : String) : Decidable (IsName name) :=
  match h : name.toList with
  | [] => isFalse (by simp [IsName, h])
  | character :: tail =>
      decidable_of_iff (first character tail = ⟨some .identifier, tail.length⟩)
        (by simp [IsName, h, and_assoc])

private theorem kind?_mark_ne_identifier (character : Char) (rest : List Char) :
    (mark character rest).kind? ≠ some .identifier := by
  have hmarks : ∀ kind ∈ markKinds, kind ≠ .identifier := by decide
  unfold mark
  split
  · rename_i kind hfind
    simpa using hmarks kind (List.mem_of_find?_eq_some hfind)
  · simp

private theorem kind?_number_ne_identifier (rest : List Char) :
    (number rest).kind? ≠ some .identifier := by
  simp only [number]
  split <;> simp

private theorem first_eq_word_of_identifier {character : Char} {tail : List Char}
    {extra : Nat} (h : first character tail = ⟨some .identifier, extra⟩) :
    startsWord character = true ∧ character.isDigit = false ∧
      word character tail = ⟨some .identifier, extra⟩ := by
  unfold first at h
  split at h
  · cases h
  split at h
  · cases h
  split at h
  · cases h
  split at h
  · cases h
  split at h
  · exact absurd (congrArg Lexeme.kind? h) (kind?_number_ne_identifier tail)
  split at h
  · rename_i hdigit hstarts
    exact ⟨hstarts, by simpa using hdigit, h⟩
  · exact absurd (congrArg Lexeme.kind? h) (kind?_mark_ne_identifier character tail)

theorem mem_of_keyword? {text : List Char} {kind : Kind}
    (h : keyword? text = some kind) :
    kind ∈ [.returnWord, .ifWord, .elseWord, .bool, .typeName] := by
  unfold keyword? at h
  split at h
  · simp [← Option.some.inj h]
  split at h
  · simp [← Option.some.inj h]
  split at h
  · simp [← Option.some.inj h]
  split at h
  · simp [← Option.some.inj h]
  split at h
  · simp [← Option.some.inj h]
  · cases h

theorem IsName.isWord {name : String} (h : IsName name) :
    Lexeme.isWord name.toList = true ∧ keyword? name.toList = none := by
  obtain ⟨character, tail, hname, hfirst⟩ := h
  obtain ⟨hstarts, hdigit, hword⟩ := first_eq_word_of_identifier hfirst
  have hlength : (tail.takeWhile continuesWord).length = tail.length :=
    congrArg Lexeme.extra hword
  have htake : tail.takeWhile continuesWord = tail :=
    (List.takeWhile_prefix _).eq_of_length hlength
  have hkind := congrArg Lexeme.kind? hword
  simp only [word, htake, List.drop_length, List.head?_nil, Option.any_none,
    Bool.false_eq_true, if_false, Option.some.injEq] at hkind
  have hall : tail.all continuesWord = true := by
    rw [← htake]
    exact List.all_takeWhile
  rw [hname]
  refine ⟨by simp [Lexeme.isWord, hstarts, hdigit, hall], ?_⟩
  cases hkeyword : keyword? (character :: tail) with
  | none => rfl
  | some kind =>
      rw [hkeyword, Option.getD_some] at hkind
      exact absurd (hkind ▸ mem_of_keyword? hkeyword) (by decide)

private theorem newline_notMem_of_isWord {text : List Char}
    (h : isWord text = true) : '\n' ∉ text := by
  cases text with
  | nil => simp
  | cons character tail =>
      simp only [isWord, Bool.and_eq_true, List.all_eq_true] at h
      intro hmember
      rcases List.mem_cons.1 hmember with rfl | htail
      · exact absurd h.1.1 (by decide)
      · exact absurd (h.2 _ htail) (by decide)

end Lexeme

open Lexeme

theorem Reads.word {text : String} {rest : List Char}
    (h : isWord text.toList = true) (hrest : Ends rest) (line : Nat) :
    Reads line text
      [⟨(keyword? text.toList).getD .identifier, text, line⟩] rest := by
  have hkind : (keyword? text.toList).getD .identifier ∈
      [.returnWord, .ifWord, .elseWord, .bool, .typeName, .identifier] := by
    cases hkeyword : keyword? text.toList with
    | none => simp
    | some kind =>
        exact List.mem_append_left [.identifier] (mem_of_keyword? hkeyword)
  have hclass :
      ∀ kind ∈ [Kind.returnWord, .ifWord, .elseWord, .bool, .typeName, .identifier],
        kind.isComment = false ∧ kind ≠ .eof ∧ kind ≠ .string := by decide
  obtain ⟨hcomment, hend, hstring⟩ := hclass _ hkind
  cases htext : text.toList with
  | nil =>
      rw [htext] at h
      exact absurd h (by decide)
  | cons character tail =>
      rw [htext] at h hcomment hend hstring
      have hblurred : Stops blursWord rest := hrest.stops rfl
      have hfirst := first_word h (hrest.stops rfl)
      rw [stops_iff.1 hblurred] at hfirst
      exact .verbatim htext hfirst hcomment hend hstring
        (htext ▸ newline_notMem_of_isWord h) line

theorem Reads.name {name : String} {rest : List Char} (h : IsName name)
    (hrest : Ends rest) (line : Nat) :
    Reads line name [⟨.identifier, name, line⟩] rest := by
  have hreads := Reads.word h.isWord.1 hrest line
  rwa [h.isWord.2] at hreads

theorem Reads.natural (number : Nat) {rest : List Char} (hrest : Ends rest)
    (line : Nat) :
    Reads line (Nat.repr number) [⟨.int, Nat.repr number, line⟩] rest := by
  have hdigits := Number.all_isDigit_toDigits number
  have hline : '\n' ∉ Nat.toDigits 10 number :=
    fun hmember => absurd (hdigits _ hmember) (by decide)
  cases htext : Nat.toDigits 10 number with
  | nil => exact absurd htext Nat.toDigits_ne_nil
  | cons digit digits =>
      rw [htext] at hdigits
      have hfirst := first_number (hdigits digit List.mem_cons_self)
        (fun other hother => hdigits other (List.mem_cons_of_mem _ hother))
        (hrest.stops rfl) (fun hpoint => absurd (hrest _ hpoint) (by decide))
      have hrepr := Nat.toList_repr (n := number)
      exact .verbatim (hrepr.trans htext) hfirst rfl (by decide) (by decide)
        (hrepr ▸ hline) line

/-! ## Strings -/

/-- Characters that an escaped text shows in a way that is read back. -/
def Text.isPlain (character : Char) : Bool :=
  isPrintable character || character = '\t' || character = '\r' || character = '\n'

namespace Lexeme

open Text

theorem escapeChar_cases {character : Char} (h : isPlain character = true) :
    (escapeChar character = [character] ∧ character ≠ '"' ∧ character ≠ '\\' ∧
        character ≠ '\n') ∨
      ∃ letter, escapeChar character = ['\\', letter] ∧ letter ≠ '\n' ∧
        unescapeChar letter = character := by
  unfold escapeChar
  split
  · exact .inr ⟨'t', rfl, by decide, by simp [unescapeChar, *]⟩
  split
  · exact .inr ⟨'r', rfl, by decide, by simp [unescapeChar, *]⟩
  split
  · exact .inr ⟨'n', rfl, by decide, by simp [unescapeChar, *]⟩
  split
  · rename_i hline hspecial
    refine .inr ⟨character, rfl, hline, ?_⟩
    rcases hspecial with rfl | rfl | rfl <;> rfl
  · rename_i htab hreturn hline hspecial
    simp only [not_or] at hspecial
    have hprintable : isPrintable character = true := by
      simpa [isPlain, htab, hreturn, hline] using h
    rw [if_pos hprintable]
    exact .inl ⟨rfl, hspecial.2.1, hspecial.2.2, hline⟩

theorem stringLength_cons {character : Char} (hquote : character ≠ '"')
    (hbackslash : character ≠ '\\') (rest : List Char) :
    stringLength (character :: rest) = stringLength rest + 1 := by
  rw [stringLength]
  · exact hquote
  · exact fun _ _ heq => absurd heq hbackslash

theorem unescape_cons {character : Char} (hquote : character ≠ '"')
    (hbackslash : character ≠ '\\') (rest : List Char) :
    unescape (character :: rest) = character :: unescape rest := by
  rw [unescape]
  · exact hquote
  · exact fun heq => absurd heq hbackslash
  · exact fun _ _ heq => absurd heq hbackslash

/-- What stands for a character in a string literal: the character itself, or a
letter after a backslash. -/
def Shows (shown : List Char) (character : Char) : Prop :=
  (shown = [character] ∧ character ≠ '"' ∧ character ≠ '\\') ∨
    ∃ letter, shown = ['\\', letter] ∧ unescapeChar letter = character

theorem shows_escapeChar {character : Char} (h : isPlain character = true) :
    Shows (escapeChar character) character := by
  rcases escapeChar_cases h with ⟨hescape, hquote, hbackslash, -⟩ |
    ⟨letter, hescape, -, hletter⟩
  · exact .inl ⟨hescape, hquote, hbackslash⟩
  · exact .inr ⟨letter, hescape, hletter⟩

/-- What stands between the quotes of a string literal, and the content that is read
from it. -/
inductive StringBody : List Char → List Char → Prop
  | nil : StringBody [] []
  | plain {character : Char} {body content : List Char} (hquote : character ≠ '"')
      (hbackslash : character ≠ '\\') (h : StringBody body content) :
      StringBody (character :: body) (character :: content)
  | escaped (letter : Char) {body content : List Char}
      (h : StringBody body content) :
      StringBody ('\\' :: letter :: body) (unescapeChar letter :: content)

theorem Shows.stringBody {shown : List Char} {character : Char}
    (h : Shows shown character) :
    StringBody shown [character] := by
  rcases h with ⟨rfl, hquote, hbackslash⟩ | ⟨letter, rfl, rfl⟩
  · exact .plain hquote hbackslash .nil
  · exact .escaped letter .nil

namespace StringBody

variable {body content : List Char}

private theorem append {others more : List Char} (h : StringBody body content)
    (hothers : StringBody others more) :
    StringBody (body ++ others) (content ++ more) := by
  induction h with
  | nil => exact hothers
  | plain hquote hbackslash _ ih => exact .plain hquote hbackslash ih
  | escaped letter _ ih => exact .escaped letter ih

theorem flatMap {shown read : Char → List Char} {text : List Char}
    (h : ∀ character ∈ text, StringBody (shown character) (read character)) :
    StringBody (text.flatMap shown) (text.flatMap read) := by
  induction text with
  | nil => exact .nil
  | cons character text ih =>
      obtain ⟨hfirst, hothers⟩ := List.forall_mem_cons.1 h
      exact hfirst.append (ih hothers)

theorem of_shows {shown : Char → List Char} {text : List Char}
    (h : ∀ character ∈ text, Shows (shown character) character) :
    StringBody (text.flatMap shown) text := by
  have hbody :
      StringBody (text.flatMap shown) (text.flatMap fun character => [character]) :=
    .flatMap fun character hcharacter => (h character hcharacter).stringBody
  rwa [List.flatMap_singleton'] at hbody

theorem verbatim (h : ∀ character ∈ body, character ≠ '"' ∧ character ≠ '\\') :
    StringBody body body := by
  have hbody : StringBody (body.flatMap fun character => [character]) body :=
    .of_shows fun character hcharacter => .inl ⟨rfl, h character hcharacter⟩
  rwa [List.flatMap_singleton'] at hbody

private theorem stringLength_eq (h : StringBody body content) (rest : List Char) :
    stringLength (body ++ '"' :: rest) = body.length + 1 := by
  induction h with
  | nil => rfl
  | plain hquote hbackslash _ ih =>
      rw [List.cons_append, stringLength_cons hquote hbackslash, ih,
        List.length_cons]
  | escaped letter _ ih => simp [stringLength, ih]

theorem unescape_eq (h : StringBody body content) :
    unescape (body ++ ['"']) = content := by
  induction h with
  | nil => rfl
  | plain hquote hbackslash _ ih =>
      rw [List.cons_append, unescape_cons hquote hbackslash, ih]
  | escaped letter _ ih => simp [unescape, ih]

end StringBody

private theorem newline_notMem_escape {text : List Char}
    (h : ∀ character ∈ text, isPlain character = true) :
    '\n' ∉ text.flatMap escapeChar := by
  intro hmember
  obtain ⟨character, hcharacter, hnewline⟩ := List.mem_flatMap.1 hmember
  rcases escapeChar_cases (h character hcharacter) with ⟨hescape, -, -, hline⟩ |
    ⟨letter, hescape, hline, -⟩
  · rw [hescape] at hnewline
    exact hline (List.mem_singleton.1 hnewline).symm
  · rw [hescape] at hnewline
    simp [hline.symm] at hnewline

end Lexeme

theorem Reads.quoted {text : String} {body content : List Char}
    (h : StringBody body content) (hline : '\n' ∉ body)
    (htext : text.toList = '"' :: (body ++ ['"'])) (line : Nat) (rest : List Char) :
    Reads line text [⟨.string, String.ofList content, line⟩] rest := by
  have hfirst : first '"' ((body ++ ['"']) ++ rest) =
      ⟨some .string, (body ++ ['"']).length⟩ := by
    rw [List.append_assoc, List.singleton_append]
    show (⟨some .string, stringLength _⟩ : Lexeme) = _
    rw [h.stringLength_eq, List.length_append]
    rfl
  have hlines : '\n' ∉ text.toList := by
    rw [htext]
    simp [hline]
  have hreads := Reads.lexeme htext hfirst rfl (by decide) hlines line
  rwa [htext, Lexeme.text, if_pos rfl, List.tail_cons, h.unescape_eq] at hreads

theorem Reads.string {value : String}
    (h : ∀ character ∈ value.toList, Text.isPlain character = true) (line : Nat)
    (rest : List Char) :
    Reads line ("\"" ++ Text.escape value ++ "\"")
      [⟨.string, value, line⟩] rest := by
  have hbody : StringBody (value.toList.flatMap Text.escapeChar) value.toList :=
    .of_shows fun character hcharacter => shows_escapeChar (h character hcharacter)
  have htext : ("\"" ++ Text.escape value ++ "\"").toList =
      '"' :: (value.toList.flatMap Text.escapeChar ++ ['"']) := by
    simp [Text.escape]
  have hreads := Reads.quoted hbody (newline_notMem_escape h) htext line rest
  rwa [String.ofList_toList] at hreads

/-! ## Texts with a separator -/

theorem Reads.intercalate {α : Type} {line : Nat} {separator : String}
    {between : List Token} {text : α → String} {tokens : α → List Token}
    {items : List α} {rest : List Char}
    (hbetween : ∀ rest, Reads line separator between rest)
    (hends : ∀ rest, Ends (separator.toList ++ rest))
    (h : ∀ item ∈ items,
      ∀ rest, Ends rest → Reads line (text item) (tokens item) rest)
    (hrest : Ends rest) :
    Reads line (separator.intercalate (items.map text))
      (between.intercalate (items.map tokens)) rest := by
  induction items with
  | nil => exact .empty line rest
  | cons item items ih =>
      have hitem := h item List.mem_cons_self
      have ih := ih fun other hother => h other (List.mem_cons_of_mem _ hother)
      cases items with
      | nil => simpa using hitem rest hrest
      | cons other others =>
          simp only [List.map_cons, String.intercalate_cons_cons,
            List.intercalate_cons_cons] at ih ⊢
          refine .append (.append (hitem _ ?_) (hbetween _)) ih
          exact hends _

end ExprLang
