import ExprLang.Proofs.Tree.Tokens
import ExprLang.Tree.Draft

/-!
# Statements are cut apart

The tokens of variables are read as those variables, and the tokens of statements,
each on a line of its own, are cut into one draft for each statement.
-/

namespace ExprLang

/-! ## Variables -/

def Variable.plain (target : Variable) : Variable :=
  ⟨target.name, target.type?.map Ty.plain⟩

def Variable.Concrete (target : Variable) : Prop :=
  ∀ type ∈ target.type?, type.hasHole = false

namespace VariableList

def EndsName (rest : List Token) : Prop := ∀ token ∈ rest.head?, token.kind = .comma

private theorem read_of_endsName {rest : List Token} (h : EndsName rest) :
    TypeLiteral.read rest = .ok none := by
  cases rest with
  | nil => rw [TypeLiteral.read]
  | cons token rest =>
      have hcomma : token.kind = .comma := h token rfl
      have hcut : FunctionTypeCut.ofTokens? (token :: rest) = none := by
        rw [FunctionTypeCut.ofTokens?,
          Enclosed.ofBracket?_of_head_ne (by simp [hcomma])]
        rfl
      rw [TypeLiteral.read_eq_cut (by simp [hcomma]) (by simp [hcomma]), hcut]
      rfl

private theorem head?_tokens_ne_colon (line : Nat) (type : Ty) (rest : List Token)
    (h : type.hasHole = false) :
    (type.tokens line ++ rest).head?.any (·.kind = .colon) = false := by
  cases type <;> simp_all [Ty.tokens, Ty.hasHole]

private theorem declaredType_tokens (line : Nat) {target : Variable}
    (h : target.Concrete) (name : Token) {rest : List Token}
    (hrest : EndsName rest) :
    declaredType name (target.type?.elim [] (Ty.tokens line) ++ rest) =
      .ok (target.type?.map Ty.plain, rest) := by
  cases htype : target.type? with
  | none =>
      have hcolon : rest.head?.any (·.kind = .colon) = false := by
        cases rest with
        | nil => rfl
        | cons token rest => simp [hrest token rfl]
      simp [declaredType, hcolon, read_of_endsName hrest]
  | some type =>
      have hconcrete := h type htype
      have hcolon := head?_tokens_ne_colon line type rest hconcrete
      simp only [declaredType, Option.elim_some, hcolon, Bool.false_eq_true,
        if_false, TypeLiteral.read_tokens line type hconcrete rest, Option.map_some]

theorem read_cons {name : Token} {rest after : List Token} {type? : Option Ty}
    (hname : name.kind = .identifier)
    (htype : declaredType name rest = .ok (type?, after)) :
    read (name :: rest) =
      match after with
      | [] => .ok [⟨name.text, type?⟩]
      | comma :: others =>
          if comma.kind ≠ .comma then
            .error (.unexpected comma.line comma.describe .comma)
          else if others.isEmpty then .error
            (.unexpected comma.line "end of list" .identifier)
          else (read others).map (⟨name.text, type?⟩ :: ·) := by
  rw [read, if_neg (by simp [hname])]
  split
  · rename_i herror
    rw [htype] at herror
    cases herror
  · rename_i hok
    rw [htype] at hok
    cases hok
    rfl
  · rename_i hok
    rw [htype] at hok
    cases hok
    rfl

theorem read_tokens (line : Nat) {targets : List Variable}
    (h : ∀ target ∈ targets, target.Concrete) :
    read (Comma.join line (targets.map (Variable.tokens line))) =
      .ok (targets.map Variable.plain) := by
  induction targets with
  | nil =>
      rw [List.map_nil, Comma.join, read]
      rfl
  | cons target targets ih =>
      have hfirst := h target List.mem_cons_self
      have hothers := ih fun other hother => h other (List.mem_cons_of_mem _ hother)
      cases targets with
      | nil =>
          have hends : EndsName [] := by simp [EndsName]
          have htype :=
            declaredType_tokens line hfirst ⟨.identifier, target.name, line⟩ hends
          rw [List.append_nil] at htype
          rw [List.map_singleton, Comma.join, Variable.tokens, read_cons rfl htype]
          rfl
      | cons other targets =>
          have hends : EndsName (.ofKind .comma line ::
              Comma.join line ((other :: targets).map (Variable.tokens line))) := by
            simp [EndsName]
          have htype :=
            declaredType_tokens line hfirst ⟨.identifier, target.name, line⟩ hends
          have hnonempty : (Comma.join line
                ((other :: targets).map (Variable.tokens line))).isEmpty =
              false := by
            cases targets <;> rfl
          rw [List.map_cons, List.map_cons, Comma.join_cons_cons, ← List.map_cons,
            Variable.tokens, List.cons_append, read_cons rfl htype]
          simp only [Token.kind_ofKind, ne_eq, not_true_eq_false, if_false,
            hnonempty, Bool.false_eq_true, hothers]
          rfl

end VariableList

/-! ## Lines -/

namespace Draft

private theorem leftSide_append (endLine : Nat) {tokens : List Token}
    (h : tokens.all Token.isDeclaring = true) {sign : Token}
    (hsign : sign.kind = .assign) (rest : List Token) :
    leftSide endLine (tokens ++ sign :: rest) = .ok (tokens, rest) := by
  induction tokens with
  | nil => simp [leftSide, hsign]
  | cons token tokens ih =>
      simp only [List.all_cons, Bool.and_eq_true] at h
      have hkinds : token.kind ≠ .illegal ∧ token.kind ≠ .assign ∧
          token.kind ≠ .newline := by
        have hdeclaring := h.1
        unfold Token.isDeclaring at hdeclaring
        split at hdeclaring <;> simp_all
      rw [List.cons_append, leftSide, if_neg hkinds.1, if_neg hkinds.2.1,
        if_neg hkinds.2.2, ih h.2]
      rfl

def continueLine (tokens : List Token)
    (outcome : Except ParseError (List Token × List Token)) :
    Except ParseError (List Token × List Token) :=
  outcome.map fun sides => (tokens ++ sides.1, sides.2)

private theorem continueLine_continueLine (tokens others : List Token)
    (outcome : Except ParseError (List Token × List Token)) :
    continueLine tokens (continueLine others outcome) =
      continueLine (tokens ++ others) outcome := by
  cases outcome <;> simp [continueLine, Except.map]

private theorem logicalLine_cons (endLine braces : Nat) {token : Token}
    (h : token.isOrdinary = true) (hopener : token.kind ≠ .opening .brace)
    (hcloser : token.kind ≠ .closing .brace) (rest : List Token) :
    logicalLine endLine braces (token :: rest) =
      continueLine [token] (logicalLine endLine braces rest) := by
  simp only [Token.isOrdinary, ne_eq, Bool.and_eq_true, decide_eq_true_eq] at h
  cases braces <;> simp [logicalLine, continueLine, h, hopener, hcloser]

private theorem logicalLine_cons_opener (endLine braces : Nat) {token : Token}
    (h : token.kind = .opening .brace) (rest : List Token) :
    logicalLine endLine braces (token :: rest) =
      continueLine [token] (logicalLine endLine (braces + 1) rest) := by
  cases braces <;> simp [logicalLine, continueLine, h]

private theorem logicalLine_cons_closer (endLine braces : Nat) {token : Token}
    (h : token.kind = .closing .brace) (rest : List Token) :
    logicalLine endLine (braces + 1) (token :: rest) =
      continueLine [token] (logicalLine endLine braces rest) := by
  simp [logicalLine, continueLine, h]

/-- The number of open braces after a token with which a line goes on. -/
def bracesAfter? (braces : Nat) (token : Token) : Option Nat :=
  if token.kind = .illegal then none
  else if token.kind = .newline then if braces = 0 then none else some braces
  else if token.kind = .opening .brace then some (braces + 1)
  else if token.kind = .closing .brace then if braces = 0 then none else some
    (braces - 1)
  else some braces

theorem logicalLine_cons_eq_ok_iff {endLine braces : Nat} {token : Token}
    {rest line after : List Token} :
    logicalLine endLine braces (token :: rest) = .ok (line, after) ↔
      (token.kind = .newline ∧ braces = 0 ∧ line = [] ∧ after = rest) ∨
        ∃ next tail, bracesAfter? braces token = some next ∧
          logicalLine endLine next rest = .ok (tail, after) ∧
          line = token :: tail := by
  have continued (next : Nat) : (logicalLine endLine next rest).map (fun sides =>
          (token :: sides.1, sides.2)) = .ok (line, after) ↔
      ∃ tail, logicalLine endLine next rest = .ok (tail, after) ∧
        line = token :: tail := by
    cases logicalLine endLine next rest with
    | error error => simp [Except.map]
    | ok sides =>
        simp only [Except.map, Except.ok.injEq, Prod.ext_iff]
        constructor
        · rintro ⟨rfl, rfl⟩
          exact ⟨_, ⟨rfl, rfl⟩, rfl⟩
        · rintro ⟨_, ⟨rfl, rfl⟩, rfl⟩
          exact ⟨rfl, rfl⟩
  simp only [logicalLine, bracesAfter?]
  split
  · rename_i hillegal
    simp [hillegal]
  split
  · split <;> simp_all [eq_comm]
  split
  · simp_all
  split
  · split <;> simp_all
  · simp_all

private theorem logicalLine_append_of_nested {top : Kind → Prop}
    {tokens : List Token} (h : Nested top tokens)
    (hordinary : tokens.all Token.isOrdinary = true) (endLine braces : Nat)
    (rest : List Token) :
    logicalLine endLine braces (tokens ++ rest) =
      continueLine tokens (logicalLine endLine braces rest) := by
  induction h generalizing braces rest with
  | nil =>
      cases hline :
        logicalLine endLine braces rest <;> simp [continueLine, hline, Except.map]
  | @token top token tail hbracket _ _ ih =>
      simp only [List.all_cons, Bool.and_eq_true] at hordinary
      have hopener : token.kind ≠ .opening .brace := by
        intro hkind
        simp [hkind, Kind.isBracket] at hbracket
      have hcloser : token.kind ≠ .closing .brace := by
        intro hkind
        simp [hkind, Kind.isBracket] at hbracket
      rw [List.cons_append, logicalLine_cons _ _ hordinary.1 hopener hcloser,
        ih hordinary.2, continueLine_continueLine]
      rfl
  | @wrap top inside opener closer bracket inner tail hopener hcloser _ _ ihInner
      ih =>
      simp only [List.all_cons, List.all_append, Bool.and_eq_true] at hordinary
      obtain ⟨hopenerOrdinary, hinner, hcloserOrdinary, htail⟩ := hordinary
      rw [List.cons_append, List.append_assoc, List.cons_append]
      by_cases hbrace : bracket = .brace
      · subst hbrace
        rw [logicalLine_cons_opener _ _ hopener, ihInner hinner,
          logicalLine_cons_closer _ _ hcloser, ih htail]
        simp [continueLine_continueLine]
      · rw [logicalLine_cons _ _ hopenerOrdinary (by simp [hopener, hbrace])
          (by simp [hopener]),
          ihInner hinner,
          logicalLine_cons _ _ hcloserOrdinary (by simp [hcloser])
            (by simp [hcloser, hbrace]),
          ih htail]
        simp [continueLine_continueLine]

/-- The end of a text, or the end of a line and what follows it. -/
inductive EndsLine : List Token → List Token → Prop
  | last : EndsLine [] []
  | line {token : Token} (h : token.kind = .newline) (after : List Token) :
      EndsLine (token :: after) after

theorem logicalLine_of_nested {top : Kind → Prop} {tokens rest after : List Token}
    (h : Nested top tokens) (hordinary : tokens.all Token.isOrdinary = true)
    (endLine : Nat) (hends : EndsLine rest after) :
    logicalLine endLine 0 (tokens ++ rest) = .ok (tokens, after) := by
  rw [logicalLine_append_of_nested h hordinary]
  cases hends with
  | last => simp [logicalLine, continueLine, Except.map]
  | line hkind => simp [logicalLine, continueLine, Except.map, hkind]

end Draft

/-! ## Statements -/

/-- Some variable is assigned, and no declared type of the variables has a hole. -/
def Statement.Assigning : Statement → Prop
  | .assign targets _ _ => targets ≠ [] ∧ ∀ target ∈ targets, target.Concrete
  | .result _ _ => True

def Statement.draft (line : Nat) : Statement → Draft
  | .assign targets value _ =>
      .assign (targets.map Variable.plain) ⟨value.tokens line, line⟩ line
  | .result expressions _ =>
      .result ((Expr.tokensAll line expressions).map (⟨·, line⟩)) line

theorem Comma.items_join_of_units (line : Nat) {windows : List (List Token)}
    (h : ∀ window ∈ windows, Juxtaposed.IsUnit window) :
    Comma.items (Comma.join line windows) = windows := by
  cases windows with
  | nil => rfl
  | cons window windows =>
      have hpieces :=
        Comma.pieces_join line (List.cons_ne_nil window windows) fun other hother =>
          (h other hother).nested.mono fun _ hinside => hinside.comma
      have hnonempty : (Comma.join line (window :: windows)).isEmpty = false := by
        obtain ⟨first, rest, rfl, -⟩ := (h window List.mem_cons_self).head
        cases windows <;> rfl
      rw [Comma.items, hnonempty, hpieces]
      rfl

private theorem Variable.exists_join_tokens_eq (line : Nat) (target : Variable)
    (targets : List Variable) :
    ∃ left, Comma.join line ((target :: targets).map (Variable.tokens line)) =
      ⟨.identifier, target.name, line⟩ :: left := by
  cases targets with
  | nil => exact ⟨_, rfl⟩
  | cons other targets => exact ⟨_, rfl⟩

private theorem Draft.read_assign {target : Variable} {targets : List Variable}
    {value : Expr} {line valueLine : Nat}
    (h : ∀ other ∈ target :: targets, other.Concrete) (endLine : Nat)
    {rest after : List Token} (hends : EndsLine rest after) :
    ∃ tail, (Statement.assign (target :: targets) value valueLine).tokens line =
        ⟨.identifier, target.name, line⟩ :: tail ∧
      Draft.read endLine ⟨.identifier, target.name, line⟩ (tail ++ rest) =
        .ok ((Statement.assign (target :: targets) value valueLine).draft line,
          after) := by
  obtain ⟨left, hleft⟩ := Variable.exists_join_tokens_eq line target targets
  refine ⟨left ++ .ofKind .assign line :: value.tokens line,
    by rw [Statement.tokens, hleft]; rfl, ?_⟩
  have hdeclaring := Variable.all_isDeclaring_join line (target :: targets)
  rw [hleft, List.all_cons, Bool.and_eq_true] at hdeclaring
  have hside := leftSide_append endLine hdeclaring.2
    (rfl : (Token.ofKind .assign line).kind = .assign) (value.tokens line ++ rest)
  have htargets := VariableList.read_tokens line h
  rw [hleft] at htargets
  have hline := logicalLine_of_nested (value.isUnit_tokens line).nested
    (value.all_isOrdinary_tokens line) endLine hends
  simp [Draft.read, hside, htargets, hline, Statement.draft, bind, Except.bind,
    pure, Except.pure]

private theorem Draft.read_result {expressions : List Expr} {line valueLine : Nat}
    (endLine : Nat) {rest after : List Token} (hends : EndsLine rest after) :
    Draft.read endLine (.ofKind .returnWord line)
        (Comma.join line (Expr.tokensAll line expressions) ++ rest) =
      .ok ((Statement.result expressions valueLine).draft line, after) := by
  have hunits := Expr.isUnit_of_mem_tokensAll line expressions
  have hordinary := Expr.all_isOrdinary_tokensAll line expressions
  rw [← Comma.all_join _ line rfl] at hordinary
  have hline :=
    logicalLine_of_nested (nested_join_of_units line hunits) hordinary endLine hends
  have hitems := Comma.items_join_of_units line hunits
  simp [Draft.read, hline, hitems, Statement.draft, bind, Except.bind, pure,
    Except.pure]

private theorem Statement.exists_read_tokens {statement : Statement}
    (h : statement.Assigning) (line endLine : Nat) {rest after : List Token}
    (hends : Draft.EndsLine rest after) :
    ∃ first tail, statement.tokens line = first :: tail ∧ first.kind ≠ .newline ∧
      Draft.read endLine first (tail ++ rest) =
        .ok (statement.draft line, after) := by
  match statement with
  | .assign [] value valueLine => exact absurd rfl h.1
  | .assign (target :: targets) value valueLine =>
      obtain ⟨tail, htokens, hread⟩ := Draft.read_assign h.2 endLine hends
      exact ⟨_, tail, htokens, by simp, hread⟩
  | .result expressions valueLine =>
      exact ⟨_, _, rfl, by simp, Draft.read_result endLine hends⟩

/-! ## Programs and bodies -/

def Statement.linesFrom (line : Nat) : List Statement → List Token
  | [] => []
  | [statement] => statement.tokens line
  | statement :: statements =>
      statement.tokens line ++
        .ofKind .newline line :: Statement.linesFrom (line + 1) statements

def Statement.draftsFrom (line : Nat) : List Statement → List Draft
  | [] => []
  | statement :: statements =>
      statement.draft line :: Statement.draftsFrom (line + 1) statements

theorem Drafts.ofTokens_cons {endLine : Nat} {first : Token}
    {rest after : List Token} {draft : Draft} (hkind : first.kind ≠ .newline)
    (hread : Draft.read endLine first rest = .ok (draft, after)) :
    ofTokens endLine (first :: rest) =
      ⟨draft :: (ofTokens endLine after).statements,
        (ofTokens endLine after).failure?⟩ := by
  rw [ofTokens, if_neg hkind]
  split
  · rename_i herror
    rw [hread] at herror
    cases herror
  · rename_i hok
    rw [hread] at hok
    cases hok
    rfl

theorem Drafts.ofTokens_of_error {endLine : Nat} {first : Token} {rest : List Token}
    {error : ParseError} (hkind : first.kind ≠ .newline)
    (hread : Draft.read endLine first rest = .error error) :
    ofTokens endLine (first :: rest) = ⟨[], some error⟩ := by
  rw [ofTokens, if_neg hkind]
  split <;> simp_all

theorem Drafts.ofTokens_linesFrom (endLine : Nat) {statements : List Statement}
    (h : ∀ statement ∈ statements, statement.Assigning) (line : Nat) :
    ofTokens endLine (Statement.linesFrom line statements) =
      ⟨Statement.draftsFrom line statements, none⟩ := by
  induction statements generalizing line with
  | nil =>
      rw [Statement.linesFrom, ofTokens]
      rfl
  | cons statement statements ih =>
      have hfirst := h statement List.mem_cons_self
      have hothers := ih fun other hother => h other (List.mem_cons_of_mem _ hother)
      cases statements with
      | nil =>
          obtain ⟨first, tail, htokens, hkind, hread⟩ :=
            Statement.exists_read_tokens hfirst line endLine .last
          rw [List.append_nil] at hread
          rw [Statement.linesFrom, htokens, ofTokens_cons hkind hread, ofTokens]
          rfl
      | cons other statements =>
          obtain ⟨first, tail, htokens, hkind, hread⟩ :=
            Statement.exists_read_tokens hfirst line endLine
              (.line (Token.kind_ofKind .newline line)
                (Statement.linesFrom (line + 1) (other :: statements)))
          have hlines :
              Statement.linesFrom line (statement :: other :: statements) =
                statement.tokens line ++ .ofKind .newline line ::
                    Statement.linesFrom (line + 1) (other :: statements) := rfl
          rw [hlines, htokens, List.cons_append, ofTokens_cons hkind hread, hothers]
          rfl

end ExprLang
