import ExprLang.Window.Comma
import ExprLang.Window.Enclosed
import ExprLang.Window.Split

/-!
# Nested windows

A window is nested when each of its brackets is closed by its partner after a nested
window.  A scan that counts brackets passes over a nested window and is afterwards
where it was; what it could have stopped at inside brackets does not count.
-/

namespace ExprLang

@[simp] theorem Token.kind_ofKind (kind : Kind) (line : Nat) :
    (Token.ofKind kind line).kind = kind :=
  rfl

@[simp] theorem Token.line_ofKind (kind : Kind) (line : Nat) :
    (Token.ofKind kind line).line = line :=
  rfl

/-- Well-nested windows whose tokens outside all brackets are of the kinds `top`. -/
inductive Nested : (Kind → Prop) → List Token → Prop
  | nil {top : Kind → Prop} : Nested top []
  | token {top : Kind → Prop} {token : Token} {rest : List Token}
      (hbracket : token.kind.isBracket = false) (htop : top token.kind)
      (hrest : Nested top rest) :
      Nested top (token :: rest)
  | wrap {top inside : Kind → Prop} {opener closer : Token} {bracket : Bracket}
      {inner rest : List Token} (hopener : opener.kind = .opening bracket)
      (hcloser : closer.kind = .closing bracket) (hinner : Nested inside inner)
      (hrest : Nested top rest) :
      Nested top (opener :: (inner ++ closer :: rest))

namespace Nested

variable {top other : Kind → Prop} {tokens others : List Token}

theorem mono (h : Nested top tokens) (himp : ∀ kind, top kind → other kind) :
    Nested other tokens := by
  induction h with
  | nil => exact .nil
  | token hbracket htop _ ih => exact .token hbracket (himp _ htop) (ih himp)
  | wrap hopener hcloser hinner _ _ ih =>
      exact .wrap hopener hcloser hinner (ih himp)

theorem append (h : Nested top tokens) (hothers : Nested top others) :
    Nested top (tokens ++ others) := by
  induction h with
  | nil => exact hothers
  | token hbracket htop _ ih => exact .token hbracket htop (ih hothers)
  | wrap hopener hcloser hinner _ _ ih =>
      simpa using Nested.wrap hopener hcloser hinner (ih hothers)

theorem single {token : Token} (hbracket : token.kind.isBracket = false)
    (htop : top token.kind) :
    Nested top [token] :=
  .token hbracket htop .nil

theorem enclosed {opener closer : Token} {bracket : Bracket}
    (h : Nested other tokens) (hopener : opener.kind = .opening bracket)
    (hcloser : closer.kind = .closing bracket) :
    Nested top (opener :: (tokens ++ [closer])) :=
  .wrap hopener hcloser h .nil

theorem of_cons {token : Token} (h : Nested top (token :: tokens))
    (hbracket : token.kind.isBracket = false) :
    Nested top tokens := by
  generalize hwhole : token :: tokens = whole at h
  cases h with
  | nil => cases hwhole
  | token _ _ hrest =>
      cases hwhole
      exact hrest
  | wrap hopener =>
      cases hwhole
      rw [hopener] at hbracket
      cases hbracket

end Nested

abbrev WellNested (tokens : List Token) : Prop := Nested (fun _ => True) tokens

theorem WellNested.cons {token : Token} {kind : Kind} {rest : List Token}
    (hkind : token.kind = kind) (hbracket : kind.isBracket = false)
    (h : WellNested rest) :
    WellNested (token :: rest) :=
  .token (hkind ▸ hbracket) trivial h

theorem nested_flatten {top : Kind → Prop} {windows : List (List Token)}
    (h : ∀ window ∈ windows, Nested top window) : Nested top windows.flatten := by
  induction windows with
  | nil => exact .nil
  | cons window windows ih =>
      rw [List.flatten_cons]
      exact (h window List.mem_cons_self).append
        (ih fun other hother => h other (List.mem_cons_of_mem _ hother))

/-! ## Depth -/

namespace Depth

/-- No bracket has been closed that was not open. -/
structure Natural (depth : Depth) : Prop where
  paren : 0 ≤ depth.paren
  brace : 0 ≤ depth.brace
  square : 0 ≤ depth.square

theorem natural_zero : zero.Natural := by
  constructor <;> simp [zero]

theorem Natural.add_one {depth : Depth} (h : depth.Natural) (bracket : Bracket) :
    (depth.add bracket 1).Natural := by
  obtain ⟨hparen, hbrace, hsquare⟩ := h
  cases bracket <;> constructor <;> simp only [add] <;> omega

theorem Natural.atTop_add_one {depth : Depth} (h : depth.Natural)
    (bracket : Bracket) :
    (depth.add bracket 1).atTop = false := by
  obtain ⟨hparen, hbrace, hsquare⟩ := h
  have hne {count : Int} (hcount : 0 ≤ count) : ¬ count + 1 = 0 := by omega
  cases bracket <;> simp [add, atTop, hne, hparen, hbrace, hsquare]

@[simp] theorem add_add_neg (depth : Depth) (bracket : Bracket) :
    (depth.add bracket 1).add bracket (-1) = depth := by
  cases bracket <;> simp only [add, Int.add_neg_cancel_right]

theorem step_of_not_bracket (depth : Depth) {kind : Kind}
    (h : kind.isBracket = false) :
    depth.step kind = depth := by
  cases kind <;> simp_all [step, Kind.isBracket]

@[simp] theorem step_opening (depth : Depth) (bracket : Bracket) :
    depth.step (.opening bracket) = depth.add bracket 1 := rfl

@[simp] theorem step_closing (depth : Depth) (bracket : Bracket) :
    depth.step (.closing bracket) = depth.add bracket (-1) := rfl

@[simp] theorem after_cons (depth : Depth) (token : Token) (tokens : List Token) :
    depth.after (token :: tokens) = (depth.step token.kind).after tokens := rfl

@[simp] theorem after_append (depth : Depth) (tokens others : List Token) :
    depth.after (tokens ++ others) = (depth.after tokens).after others := by
  simp [after]

end Depth

theorem Nested.after_eq {top : Kind → Prop} {tokens : List Token}
    (h : Nested top tokens) (depth : Depth) :
    depth.after tokens = depth := by
  induction h generalizing depth with
  | nil => rfl
  | token hbracket _ _ ih => simp [depth.step_of_not_bracket hbracket, ih]
  | wrap hopener hcloser _ _ ihInner ih => simp [hopener, hcloser, ihInner, ih]

/-! ## Brackets -/

namespace Enclosed

def prepend (tokens : List Token) (enclosed : Enclosed) : Enclosed :=
  { enclosed with inner := tokens ++ enclosed.inner }

@[simp] theorem map_prepend_nil (enclosed? : Option Enclosed) :
    enclosed?.map (prepend []) = enclosed? := by
  cases enclosed? <;> rfl

private theorem map_cons_map_prepend (token : Token) (tokens : List Token)
    (enclosed? : Option Enclosed) :
    (enclosed?.map (prepend tokens)).map (cons token) =
      enclosed?.map (prepend (token :: tokens)) := by
  cases enclosed? <;> rfl

private theorem map_prepend_map_prepend (tokens others : List Token)
    (enclosed? : Option Enclosed) :
    (enclosed?.map (prepend others)).map (prepend tokens) =
      enclosed?.map (prepend (tokens ++ others)) := by
  cases enclosed? <;> simp [prepend]

section Steps

variable {opener closer : Kind} {token : Token} (nested : Nat) (rest : List Token)

theorem until?_cons_of_ne (hopener : token.kind ≠ opener)
    (hcloser : token.kind ≠ closer) :
    until? opener closer nested (token :: rest) =
      (until? opener closer nested rest).map (cons token) := by
  cases nested <;> simp [until?, hopener, hcloser]

theorem until?_cons_opener (h : token.kind = opener) :
    until? opener closer nested (token :: rest) =
      (until? opener closer (nested + 1) rest).map (cons token) := by
  cases nested <;> simp [until?, h]

theorem until?_cons_closer (h : token.kind = closer) (hne : closer ≠ opener) :
    until? opener closer (nested + 1) (token :: rest) =
      (until? opener closer nested rest).map (cons token) := by
  simp [until?, h, hne]

theorem until?_zero_cons_closer (h : token.kind = closer) (hne : closer ≠ opener) :
    until? opener closer 0 (token :: rest) = some ⟨[], token, rest⟩ := by
  simp [until?, h, hne]

end Steps

private theorem until?_append_of_nested {top : Kind → Prop} {tokens : List Token}
    (h : Nested top tokens) (bracket : Bracket) (nested : Nat) (rest : List Token) :
    until? (.opening bracket) (.closing bracket) nested (tokens ++ rest) =
      (until? (.opening bracket) (.closing bracket) nested rest).map
        (prepend tokens) := by
  induction h generalizing nested rest with
  | nil => simp
  | @token top token tail hbracket _ _ ih =>
      have hopener : token.kind ≠ .opening bracket := by
        intro hkind
        simp [hkind, Kind.isBracket] at hbracket
      have hcloser : token.kind ≠ .closing bracket := by
        intro hkind
        simp [hkind, Kind.isBracket] at hbracket
      rw [List.cons_append, until?_cons_of_ne _ _ hopener hcloser, ih,
        map_cons_map_prepend]
  | @wrap top inside opener closer other inner tail hopener hcloser _ _ ihInner
      ih =>
      by_cases hother : other = bracket
      · subst hother
        rw [List.cons_append, List.append_assoc, until?_cons_opener _ _ hopener,
          ihInner, List.cons_append, until?_cons_closer _ _ hcloser (by simp), ih,
          map_cons_map_prepend closer, map_prepend_map_prepend,
          map_cons_map_prepend]
      · rw [List.cons_append, List.append_assoc,
          until?_cons_of_ne _ _ (by simp [hopener, hother]) (by simp [hopener]),
          ihInner, List.cons_append,
          until?_cons_of_ne _ _ (by simp [hcloser]) (by simp [hcloser, hother]), ih,
          map_cons_map_prepend closer, map_prepend_map_prepend,
          map_cons_map_prepend]

theorem ofBracket?_of_nested {top : Kind → Prop} {opener closer : Token}
    {bracket : Bracket} {inner : List Token} (h : Nested top inner)
    (hopener : opener.kind = .opening bracket)
    (hcloser : closer.kind = .closing bracket) (rest : List Token) :
    ofBracket? bracket (opener :: (inner ++ closer :: rest)) =
      some ⟨inner, closer, rest⟩ := by
  rw [ofBracket?, ofTokens?, if_pos hopener, until?_append_of_nested h,
    until?_zero_cons_closer _ hcloser (by simp)]
  simp [prepend]

theorem ofBracket?_ofKind {top : Kind → Prop} {inner : List Token}
    (h : Nested top inner) (bracket : Bracket) (line : Nat) (rest : List Token) :
    ofBracket? bracket
        (.ofKind (.opening bracket) line ::
          (inner ++ .ofKind (.closing bracket) line :: rest)) =
      some ⟨inner, .ofKind (.closing bracket) line, rest⟩ :=
  ofBracket?_of_nested h rfl rfl rest

theorem ofBracket?_of_head_ne {bracket : Bracket} {token : Token}
    (h : token.kind ≠ .opening bracket) (rest : List Token) :
    ofBracket? bracket (token :: rest) = none := by
  rw [ofBracket?, ofTokens?, if_neg h]

end Enclosed

/-! ## Commas -/

namespace Comma

def prepend (tokens : List Token) : List (List Token) → List (List Token)
  | [] => [tokens]
  | piece :: pieces => (tokens ++ piece) :: pieces

private theorem consHead_prepend (token : Token) (tokens : List Token)
    {pieces : List (List Token)} :
    consHead token (prepend tokens pieces) = prepend (token :: tokens) pieces := by
  cases pieces <;> rfl

private theorem prepend_prepend (tokens others : List Token)
    (pieces : List (List Token)) :
    prepend tokens (prepend others pieces) = prepend (tokens ++ others) pieces := by
  cases pieces <;> simp [prepend]

@[simp] theorem prepend_nil {pieces : List (List Token)} (h : pieces ≠ []) :
    prepend [] pieces = pieces := by
  cases pieces with
  | nil => exact absurd rfl h
  | cons piece pieces => rfl

private theorem piecesFrom_cons_of_ne (depth : Depth) {token : Token}
    (rest : List Token)
    (h : (depth.step token.kind).atTop = true → token.kind ≠ .comma) :
    piecesFrom depth (token :: rest) =
      consHead token (piecesFrom (depth.step token.kind) rest) := by
  rw [piecesFrom, if_neg (by
    rintro ⟨hcomma, htop⟩
    exact h htop hcomma)]

private theorem piecesFrom_append_of_nested {top : Kind → Prop}
    {tokens : List Token} (h : Nested top tokens) {depth : Depth}
    (hdepth : depth.Natural)
    (htop : depth.atTop = true → ∀ kind, top kind → kind ≠ .comma)
    (rest : List Token) :
    piecesFrom depth (tokens ++ rest) = prepend tokens (piecesFrom depth rest) := by
  induction h generalizing depth rest with
  | nil => simp [piecesFrom_ne_nil]
  | @token top token tail hbracket hkind _ ih =>
      have hstep := depth.step_of_not_bracket hbracket
      rw [List.cons_append, piecesFrom_cons_of_ne, hstep, ih hdepth htop,
        consHead_prepend]
      rw [hstep]
      exact fun hat => htop hat _ hkind
  | @wrap top inside opener closer bracket inner tail hopener hcloser _ _ ihInner
      ih =>
      have hinside := hdepth.atTop_add_one bracket
      rw [List.cons_append, List.append_assoc,
        piecesFrom_cons_of_ne _ _ (by simp [hopener]), hopener, Depth.step_opening,
        ihInner (hdepth.add_one bracket) (by simp [hinside]), List.cons_append,
        piecesFrom_cons_of_ne _ _ (by simp [hcloser]), hcloser, Depth.step_closing,
        Depth.add_add_neg, ih hdepth htop, consHead_prepend closer, prepend_prepend,
        consHead_prepend]

def join (line : Nat) : List (List Token) → List Token
  | [] => []
  | [window] => window
  | window :: windows => window ++ .ofKind .comma line :: join line windows

theorem join_cons_cons (line : Nat) (window other : List Token)
    (windows : List (List Token)) :
    join line (window :: other :: windows) =
      window ++ .ofKind .comma line :: join line (other :: windows) :=
  rfl

theorem nested_join {top : Kind → Prop} (line : Nat) {windows : List (List Token)}
    (h : ∀ window ∈ windows, Nested top window) (hcomma : top .comma) :
    Nested top (join line windows) := by
  induction windows with
  | nil => exact .nil
  | cons window windows ih =>
      have hfirst := h window List.mem_cons_self
      cases windows with
      | nil => exact hfirst
      | cons other windows =>
          exact hfirst.append (.token rfl hcomma (ih fun another hanother =>
                h another (List.mem_cons_of_mem _ hanother)))

theorem pieces_append_of_nested {window : List Token}
    (h : Nested (· ≠ .comma) window) (rest : List Token) :
    pieces (window ++ rest) = prepend window (pieces rest) :=
  piecesFrom_append_of_nested h Depth.natural_zero (fun _ _ hkind => hkind) rest

theorem pieces_of_nested {window : List Token} (h : Nested (· ≠ .comma) window) :
    pieces window = [window] := by
  have hpieces := pieces_append_of_nested h []
  simpa [pieces, piecesFrom, prepend] using hpieces

theorem pieces_append_comma {window : List Token} (h : Nested (· ≠ .comma) window)
    {comma : Token} (hcomma : comma.kind = .comma) (rest : List Token) :
    pieces (window ++ comma :: rest) = window :: pieces rest := by
  have hstep : Depth.zero.step comma.kind = .zero := by rw [hcomma]; rfl
  have hcut : pieces (comma :: rest) = [] :: pieces rest := by
    rw [pieces, piecesFrom, if_pos ⟨hcomma, by rw [hstep]; rfl⟩, hstep]
    rfl
  rw [pieces_append_of_nested h, hcut]
  simp [prepend]

theorem pieces_join (line : Nat) {windows : List (List Token)}
    (hnonempty : windows ≠ [])
    (h : ∀ window ∈ windows, Nested (· ≠ .comma) window) :
    pieces (join line windows) = windows := by
  induction windows with
  | nil => exact absurd rfl hnonempty
  | cons window windows ih =>
      have hfirst := h window List.mem_cons_self
      cases windows with
      | nil => exact pieces_of_nested hfirst
      | cons other windows =>
          have hothers := ih (by simp) fun another hanother =>
            h another (List.mem_cons_of_mem _ hanother)
          rw [join_cons_cons, pieces_append_comma hfirst rfl, hothers]

end Comma

/-! ## Splits -/

namespace Split

def prepend (tokens : List Token) (split : Split) : Split :=
  { split with left := tokens ++ split.left }

@[simp] theorem prepend_nil (split : Split) : split.prepend [] = split := rfl

@[simp] theorem cons_prepend (token : Token) (tokens : List Token) (split : Split) :
    (split.prepend tokens).cons token = split.prepend (token :: tokens) := rfl

@[simp] theorem prepend_prepend (tokens others : List Token) (split : Split) :
    (split.prepend others).prepend tokens = split.prepend (tokens ++ others) := by
  simp [prepend]

/-- No operator, and nothing that takes the rest of its window. -/
def Passed (kind : Kind) : Prop := kind.isOperator = false ∧ kind.takesRest = false

theorem atElseFrom?_cons (depth : Depth) (claimed : Nat) {token : Token}
    (rest : List Token)
    (h : token.kind.isBracket = true ∨ (depth.step token.kind).atTop = false ∨
      (token.kind ≠ .ifWord ∧ token.kind ≠ .elseWord)) :
    atElseFrom? depth claimed (token :: rest) =
      (atElseFrom? (depth.step token.kind) claimed rest).map (cons token) := by
  simp only [atElseFrom?]
  split
  · rfl
  · rename_i hnot
    obtain ⟨hif, helse⟩ : token.kind ≠ .ifWord ∧ token.kind ≠ .elseWord := by
      rcases h with h | h | h
      · simp [h] at hnot
      · simp [h] at hnot
      · exact h
    split
    · rename_i hkind
      exact absurd hkind hif
    · rename_i hkind
      exact absurd hkind helse
    · rename_i hkind
      exact absurd hkind helse
    · rfl

theorem atElseFrom?_append_of_nested {top : Kind → Prop} {tokens : List Token}
    (h : Nested top tokens) (claimed : Nat) {depth : Depth} (hdepth : depth.Natural)
    (htop : depth.atTop = true →
      ∀ kind, top kind → kind ≠ .ifWord ∧ kind ≠ .elseWord) (rest : List Token) :
    atElseFrom? depth claimed (tokens ++ rest) =
      (atElseFrom? depth claimed rest).map (prepend tokens) := by
  induction h generalizing depth rest with
  | nil =>
      rw [List.nil_append]
      cases atElseFrom? depth claimed rest <;> rfl
  | @token top token tail hbracket hkind _ ih =>
      have hstep := depth.step_of_not_bracket hbracket
      rw [List.cons_append, atElseFrom?_cons, hstep, ih hdepth htop]
      · simp [Function.comp_def]
      · rw [hstep]
        cases hat : depth.atTop with
        | false => exact .inr (.inl rfl)
        | true => exact .inr (.inr (htop hat _ hkind))
  | @wrap top inside opener closer bracket inner tail hopener hcloser _ _ ihInner
      ih =>
      have hinside := hdepth.atTop_add_one bracket
      rw [List.cons_append, List.append_assoc,
        atElseFrom?_cons _ _ _ (.inl (by simp [hopener, Kind.isBracket])), hopener,
        Depth.step_opening, ihInner (hdepth.add_one bracket) (by simp [hinside]),
        List.cons_append,
        atElseFrom?_cons _ _ _ (.inl (by simp [hcloser, Kind.isBracket])), hcloser,
        Depth.step_closing, Depth.add_add_neg, ih hdepth htop]
      simp [Function.comp_def]

end Split

end ExprLang
