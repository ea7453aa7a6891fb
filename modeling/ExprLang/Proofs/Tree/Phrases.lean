import ExprLang.Proofs.Tree.Leaves
import ExprLang.Proofs.Window.Commas

/-!
# Parsed windows are phrases

The parser only counts brackets, and each kind on its own.  That the windows it
accepts are nested follows from how its productions take up their tokens,
declarations and function bodies included: every window that is parsed is a phrase.
Read with a stack, the brackets of such a window match.
-/

namespace ExprLang

open Outcome Juxtaposed

/-! ## Brackets on a stack -/

namespace Bracket

/-- The open brackets, the innermost first, after one more token.  Only the
innermost one can be closed. -/
def nest? (stack : List Bracket) : Kind → Option (List Bracket)
  | .opening bracket => some (bracket :: stack)
  | .closing bracket => if stack.head? = some bracket then some stack.tail else none
  | _ => some stack

def nestAll? (stack : List Bracket) (tokens : List Token) : Option (List Bracket) :=
  tokens.foldlM (fun stack token => nest? stack token.kind) stack

private theorem nest?_of_not_bracket (stack : List Bracket) {kind : Kind}
    (h : kind.isBracket = false) :
    nest? stack kind = some stack := by
  cases kind <;> simp_all [nest?, Kind.isBracket]

private theorem nestAll?_cons (stack : List Bracket) (token : Token)
    (rest : List Token) :
    nestAll? stack (token :: rest) =
      (nest? stack token.kind).bind (nestAll? · rest) :=
  List.foldlM_cons

private theorem nestAll?_append (stack : List Bracket) (tokens rest : List Token) :
    nestAll? stack (tokens ++ rest) =
      (nestAll? stack tokens).bind (nestAll? · rest) :=
  List.foldlM_append

end Bracket

private theorem Nested.nestAll?_eq {top : Kind → Prop} {tokens : List Token}
    (h : Nested top tokens) (stack : List Bracket) :
    Bracket.nestAll? stack tokens = some stack := by
  induction h generalizing stack with
  | nil => rfl
  | token hbracket _ _ ih =>
      rw [Bracket.nestAll?_cons, Bracket.nest?_of_not_bracket stack hbracket,
        Option.bind_some, ih]
  | @wrap top inside opener closer bracket inner rest hopener hcloser _ _ ihInner
      ih =>
      have hopen : Bracket.nest? stack opener.kind = some (bracket :: stack) := by
        rw [hopener]; rfl
      have hclose : Bracket.nest? (bracket :: stack) closer.kind = some stack := by
        simp [hcloser, Bracket.nest?]
      rw [Bracket.nestAll?_cons, hopen, Option.bind_some, Bracket.nestAll?_append,
        ihInner, Option.bind_some, Bracket.nestAll?_cons, hclose, Option.bind_some,
        ih]

/-! ## Declarations -/

theorem Comma.wellNested_of_items {tokens : List Token}
    (h : ∀ piece ∈ items tokens, WellNested piece) :
    WellNested tokens := by
  unfold items at h
  split at h
  · rename_i hempty
    rw [List.isEmpty_iff.1 hempty]
    exact .nil
  · exact (joins_pieces tokens).wellNested h

mutual

theorem TypeLiteral.Denotes.wellNested {tokens : List Token} {type : Ty} :
    Denotes tokens type → WellNested tokens
  | .primitive hkind _ => .cons hkind rfl .nil
  | .array hkind h => .cons hkind rfl h.wellNested
  | .function hsource harrow htarget harguments hreturns => by
      have hfirst : WellNested _ :=
        hsource.nested ((Comma.joins_pieces _).wellNested harguments.wellNested)
      have hsecond : WellNested _ :=
        htarget.nested ((Comma.joins_pieces _).wellNested hreturns.wellNested)
      exact hfirst.append (WellNested.cons harrow rfl hsecond)

theorem TypeLiteral.EachDenotes.wellNested {pieces : List (List Token)}
    {types : List Ty} :
    EachDenotes pieces types → ∀ piece ∈ pieces, WellNested piece
  | .nil => by simp
  | .skip h => List.forall_mem_cons.2 ⟨.nil, h.wellNested⟩
  | .cons hfirst h => List.forall_mem_cons.2 ⟨hfirst.wellNested, h.wellNested⟩

end

namespace VariableList

private theorem Declares.wellNested {tokens : List Token} {target : Variable}
    (h : Declares tokens target) :
    WellNested tokens := by
  cases h with
  | plain hname => exact .cons hname rfl .nil
  | typed hname htype => exact .cons hname rfl htype.wellNested
  | annotated hname hcolon htype =>
      exact .cons hname rfl (.cons hcolon rfl htype.wellNested)

theorem DeclaresAll.wellNested {tokens : List Token} {targets : List Variable}
    (h : DeclaresAll tokens targets) :
    WellNested tokens := by
  induction h with
  | nil => exact .nil
  | last h => exact h.wellNested
  | cons hfirst hcomma _ ih =>
      exact hfirst.wellNested.append (WellNested.cons hcomma rfl ih)

end VariableList

/-! ## Statements -/

def Window.Phrased (window : Window) (_ : Expr) : Prop := Phrase window.tokens

private theorem Window.phrase_of_forall₂ {windows : List Window}
    {expressions : List Expr} (h : List.Forall₂ Phrased windows expressions) :
    ∀ window ∈ windows, Phrase window.tokens := by
  induction h with
  | nil => simp
  | cons hfirst _ ih => exact List.forall_mem_cons.2 ⟨hfirst, ih⟩

theorem Window.phrase_of_mem_pieces {pieces : List (List Token)} {line : Nat}
    {expressions : List Expr}
    (h : List.Forall₂ Phrased (pieces.map (⟨·, line⟩)) expressions) :
    ∀ piece ∈ pieces, Phrase piece :=
  fun _ hpiece => Window.phrase_of_forall₂ h _ (List.mem_map_of_mem hpiece)

private theorem Draft.Spans.wellNested {tokens : List Token} {draft : Draft}
    {statement : Statement} (h : Spans tokens draft)
    (hbuilds : draft.Builds Window.Phrased statement) :
    WellNested tokens := by
  cases h with
  | assign value htargets hsign =>
      cases hbuilds with
      | assign hvalue =>
          have hright : WellNested value := Phrase.nested hvalue
          exact htargets.wellNested.append (WellNested.cons hsign rfl hright)
  | result values hword =>
      cases hbuilds with
      | result hexpressions =>
          have hvalues : WellNested values :=
            Comma.wellNested_of_items fun piece hpiece =>
            (Window.phrase_of_mem_pieces hexpressions piece hpiece).nested
          exact .cons hword rfl hvalues

private theorem Drafts.Spans.wellNested {tokens : List Token} {drafts : List Draft}
    {statements : List Statement} (h : Spans tokens drafts)
    (hbuilds : List.Forall₂ (Draft.Builds Window.Phrased) drafts statements) :
    WellNested tokens := by
  induction h generalizing statements with
  | nil => exact .nil
  | skip hnewline _ ih => exact .cons hnewline rfl (ih hbuilds)
  | cons hfirst hends _ ih =>
      cases hbuilds with
      | cons hstatement hstatements =>
          have hafter := ih hstatements
          refine (hfirst.wellNested hstatement).append ?_
          cases hends with
          | last => exact hafter
          | line hnewline => exact WellNested.cons hnewline rfl hafter

/-! ## Expressions -/

namespace Form

private theorem wellNested_of_bodyTokens {body : List Token}
    (h : WellNested (bodyTokens body)) :
    WellNested body := by
  unfold bodyTokens at h
  split at h
  · exact h
  · split at h
    · exact h
    · exact h.of_cons rfl

private theorem isUnit_of_ofToken {token : Token} {form : Form}
    (h : ofToken token = .ok form) :
    IsUnit [token] := by
  have hunit {kind : Kind} (hkind : token.kind = kind)
      (hbracket : kind.isBracket = false) (hinside : Inside kind)
      (harrow : kind ≠ .arrow) : IsUnit [token] := by
    subst hkind
    exact isUnit_single hbracket hinside harrow
  unfold ofToken at h
  split at h
  case h_1 hkind | h_2 hkind | h_3 hkind | h_4 hkind | h_5 hkind | h_6 hkind =>
    exact hunit hkind rfl ⟨rfl, rfl, by simp, by simp⟩ (by simp)
  case h_7 | h_8 => cases h

private theorem closed_of_ofSpan {first : Token} {tokens : List Token}
    {left right : Window} {op : Operator}
    (h : ofSpan first tokens = .ok (.operator op left right)) :
    Closed left.tokens := by
  unfold ofSpan at h
  split at h
  · rename_i hsplit
    obtain ⟨sign, -, hoperator⟩ := ofOperator_of_atOperator? hsplit
    rw [hoperator] at h
    cases h
    exact Split.closed_of_atOperator? hsplit
  split at h
  · simp only [ofFunction, bind_eq_ok_iff] at h
    obtain ⟨_, -, _, -, _, -, h⟩ := h
    split at h
    · simp at h
    · cases h
  split at h
  · cases h
  split at h <;> cases h

private theorem closed_of_ofWindow {window left right : Window} {op : Operator}
    (h : ofWindow window = .ok (.operator op left right)) : Closed left.tokens := by
  unfold ofWindow at h
  split at h
  · cases h
  simp only [bind_eq_ok_iff] at h
  obtain ⟨-, -, h⟩ := h
  split at h
  · obtain ⟨value, hvalue⟩ := exists_of_ofToken h
    cases hvalue
  rename_i hrest
  split at h
  · obtain ⟨callee, arguments, -, happlication⟩ :=
      ofApplication_of_ne_nil _ (by simpa using hrest)
    rw [happlication] at h
    cases h
  split at h
  · unfold ofConditional at h
    split at h
    · cases h
    · split at h <;> cases h
  · exact closed_of_ofSpan h

private theorem Spans.isUnit_function {tokens : List Token}
    {literal : FunctionLiteral} {arguments : List Variable} {returns : List Ty}
    {statements : List Statement} (hliteral : literal.Spans tokens)
    (hrest : literal.rest = [])
    (hreturns :
      TypeLiteral.EachDenotes (literal.returns?.elim [] Comma.pieces) returns)
    (harguments : VariableList.DeclaresAll literal.arguments arguments)
    (hend : EndFree literal.body)
    (hbuilds : (bodyDrafts literal).Builds Window.Phrased statements) :
    IsUnit tokens := by
  have hspans := Drafts.Builds.spans hbuilds (endFree_bodyTokens hend)
  have hbody := hspans.wellNested hbuilds.1
  have htypes : ∀ window ∈ literal.returns?, WellNested window := by
    intro window hwindow
    rw [Option.mem_def.1 hwindow] at hreturns
    exact (Comma.joins_pieces window).wellNested hreturns.wellNested
  exact Juxtaposed.isUnit_function hliteral hrest harguments.wellNested htypes
    (wellNested_of_bodyTokens hbody)

private theorem phrase_of_ofWindow {window : Window} {form : Form}
    {expression : Expr} (h : ofWindow window = .ok form)
    (hend : EndFree window.tokens)
    (hbuilds : form.Builds Window.Phrased expression) :
    Phrase window.tokens := by
  have hspans := spans_of_ofWindow h
  generalize htokens : window.tokens = tokens at hspans hend
  cases hspans with
  | atom htoken => exact .unit (isUnit_of_ofToken htoken)
  | group inner hopener hcloser =>
      cases hbuilds with
      | group hinner =>
          exact .unit (isUnit_paren (.intro hopener hcloser) (Phrase.nested hinner))
  | operator left right hsign =>
      cases hbuilds with
      | operator hleft hright =>
          exact .operator hleft (closed_of_ofWindow h) hsign hright
  | apply callee arguments hmark =>
      cases hbuilds with
      | apply hcallee harguments =>
          exact .application hmark (List.forall_mem_cons.2 ⟨hcallee,
              Window.phrase_of_mem_pieces harguments⟩)
  | conditional condition thenBranch elseBranch hword hother =>
      cases hbuilds with
      | conditional hcondition hthen helse =>
          exact .conditional hword hcondition hthen hother helse
  | array inner hopener hcloser =>
      cases hbuilds with
      | array helements =>
          have hinner : WellNested inner :=
            Comma.wellNested_of_items fun piece hpiece =>
            (Window.phrase_of_mem_pieces helements piece hpiece).nested
          exact .unit (isUnit_square (.intro hopener hcloser) hinner)
  | function hliteral hrest hreturns harguments =>
      cases hbuilds with
      | function hbody =>
          -- The body is read as a stream, of which nothing after an end token would
          -- be known.
          have hbodyEnd : EndFree _ :=
            fun token htoken => hend token (hliteral.body_sublist.subset htoken)
          exact .unit (Spans.isUnit_function hliteral hrest hreturns harguments
              hbodyEnd hbody)

end Form

private theorem Expr.meets_phrased (window : Window) (h : EndFree window.tokens) :
    Meets (Expr.ofWindow window) window.Phrased (fun _ => True) := by
  have hstep (window : Window) (hend : EndFree window.tokens) :
      Meets (Form.ofWindow window)
        (Form.Step (fun part => EndFree part.tokens) Window.Phrased
          (fun _ => True) window) (fun _ => True) := by
    refine meets_iff.2 ⟨fun form hform => ?_, fun _ _ => trivial⟩
    constructor
    · intro part hpart token htoken
      exact hend token (((Form.spans_of_ofWindow hform).part hpart).1.subset htoken)
    · exact fun _ _ => trivial
    · exact fun expression hbuilds => Form.phrase_of_ofWindow hform hend hbuilds
  exact Expr.meets_ofWindow hstep window h

/-- Every window that is parsed is a phrase. -/
theorem Expr.phrase_of_ofTokens {tokens : List Token} {expression : Expr}
    (h : Expr.ofTokens tokens = .ok expression) (hend : EndFree tokens) :
    Phrase tokens :=
  (Expr.meets_phrased _ hend).of_ok h

/-- A window that is parsed has matching brackets, the innermost closed first. -/
theorem Expr.brackets_match {tokens : List Token} {expression : Expr}
    (hend : EndFree tokens) (h : Expr.ofTokens tokens = .ok expression) :
    Bracket.nestAll? [] tokens = some [] :=
  (Expr.phrase_of_ofTokens h hend).nested.nestAll?_eq []

/-- The function `(x int) -> ([] int) { return [(x + 1)] }`. -/
def Expr.successors : Expr :=
  .function [⟨"x", some .int⟩] [.array .int] false
    [.result [.array none [.operator .add none (.named "x") (.int 1)]] 1] none

theorem Expr.successors_brackets_match :
    EndFree (successors.tokens 1) ∧
      Expr.ofTokens (successors.tokens 1) = .ok successors ∧
      Bracket.nestAll? [] (successors.tokens 1) = some [] := by
  have hend : EndFree (successors.tokens 1) := by decide
  have hprintable : successors.Printable := by decide +kernel
  have hparse : Expr.ofTokens (successors.tokens 1) = .ok successors :=
    Expr.ofWindow_tokens 1 1 successors hprintable
  exact ⟨hend, hparse, brackets_match hend hparse⟩

end ExprLang
