import ExprLang.Proofs.Ty.Denoted
import ExprLang.Proofs.Tree.Drafts
import ExprLang.Tree.Form

/-!
# What drafts and forms span

The grammar of one step of parsing: which tokens a draft or a form stands for, and
which windows they leave for the next step.  Every window that is left is a part of
the tokens, on the line of one of them.
-/

namespace ExprLang

open Outcome

/-! ## Drafts -/

namespace Draft

theorem exists_of_leftSide {endLine : Nat} {tokens left right : List Token}
    (h : leftSide endLine tokens = .ok (left, right)) :
    ∃ sign, sign.kind = .assign ∧ tokens = left ++ sign :: right := by
  induction tokens generalizing left with
  | nil => cases h
  | cons token rest ih =>
      rw [leftSide] at h
      split at h
      · cases h
      · split at h
        · rename_i hsign
          cases h
          exact ⟨token, hsign, rfl⟩
        · split at h
          · cases h
          · obtain ⟨sides, hsides, hleft⟩ := map_eq_ok_iff.1 h
            cases hleft
            obtain ⟨sign, hsign, hrest⟩ := ih hsides
            exact ⟨sign, hsign, by simp [hrest]⟩

private theorem exists_of_logicalLine {endLine braces : Nat}
    {tokens line after : List Token}
    (h : logicalLine endLine braces tokens = .ok (line, after)) :
    ∃ rest, EndsLine rest after ∧ tokens = line ++ rest := by
  induction tokens generalizing braces line with
  | nil =>
      cases braces with
      | zero =>
          cases h
          exact ⟨[], .last, rfl⟩
      | succ braces => cases h
  | cons token rest ih =>
      rcases logicalLine_cons_eq_ok_iff.1 h with ⟨hnewline, -, rfl, rfl⟩ |
        ⟨next, tail, -, htail, rfl⟩
      · exact ⟨token :: after, .line hnewline after, rfl⟩
      · obtain ⟨others, hends, hrest⟩ := ih htail
        exact ⟨others, hends, by simp [hrest]⟩

inductive Spans : List Token → Draft → Prop
  | assign {first sign : Token} {left : List Token} {targets : List Variable}
      (value : List Token)
      (htargets : VariableList.DeclaresAll (first :: left) targets)
      (hsign : sign.kind = .assign) :
      Spans (first :: left ++ sign :: value)
        (.assign targets ⟨value, first.line⟩ first.line)
  | result {word : Token} (values : List Token) (hword : word.kind = .returnWord) :
      Spans (word :: values)
        (.result ((Comma.items values).map (⟨·, word.line⟩)) word.line)

theorem exists_of_read {endLine : Nat} {first : Token} {rest after : List Token}
    {draft : Draft} (h : read endLine first rest = .ok (draft, after)) :
    ∃ line tail,
      Spans line draft ∧ EndsLine tail after ∧ first :: rest = line ++ tail := by
  unfold read at h
  split at h
  · simp only [bind_eq_ok_iff] at h
    obtain ⟨sides, hsides, targets, htargets, line, hline, h⟩ := h
    cases h
    obtain ⟨sign, hsign, rfl⟩ := exists_of_leftSide hsides
    obtain ⟨tail, hends, hright⟩ := exists_of_logicalLine hline
    exact ⟨_, tail,
      .assign line.1 (VariableList.declaresAll_of_read htargets) hsign, hends,
      by simp [hright]⟩
  · rename_i hword
    simp only [bind_eq_ok_iff] at h
    obtain ⟨line, hline, h⟩ := h
    cases h
    obtain ⟨tail, hends, rfl⟩ := exists_of_logicalLine hline
    exact ⟨_, tail, .result line.1 hword, hends, rfl⟩
  · cases h
  · cases h

def line : Draft → Nat
  | .assign _ _ line | .result _ line => line

private theorem Spans.line_mem {tokens : List Token} {draft : Draft}
    (h : Spans tokens draft) :
    draft.line ∈ tokens.map Token.line := by
  cases h <;> simp [line]

private theorem Spans.ne_nil {tokens : List Token} {draft : Draft}
    (h : Spans tokens draft) : tokens ≠ [] := by
  cases h <;> simp

private theorem Spans.part {tokens : List Token} {draft : Draft}
    (h : Spans tokens draft) {part : Window} (hpart : part ∈ draft.windows) :
    part.tokens.Sublist tokens.tail ∧ part.line ∈ tokens.map Token.line := by
  cases h with
  | assign value =>
      obtain rfl := List.mem_singleton.1 hpart
      exact ⟨(List.sublist_cons_self _ value).trans (List.sublist_append_right _ _),
        by simp⟩
  | result values =>
      obtain ⟨piece, hpiece, rfl⟩ := List.mem_map.1 hpart
      exact ⟨Comma.sublist_of_mem_items hpiece, by simp⟩

theorem EndsLine.sublist {rest after : List Token} (h : EndsLine rest after) :
    after.Sublist rest := by
  cases h with
  | last => exact .refl _
  | line => exact List.sublist_cons_self _ _

end Draft

namespace Drafts

/-- Drafts on lines of their own, with line breaks before, between and after
them. -/
inductive Spans : List Token → List Draft → Prop
  | nil : Spans [] []
  | skip {token : Token} {rest : List Token} {drafts : List Draft}
      (hnewline : token.kind = .newline) (h : Spans rest drafts) :
      Spans (token :: rest) drafts
  | cons {line tail after : List Token} {draft : Draft} {drafts : List Draft}
      (hfirst : Draft.Spans line draft) (hends : Draft.EndsLine tail after)
      (h : Spans after drafts) :
      Spans (line ++ tail) (draft :: drafts)

/-- The drafts stand for all tokens, or for those before the draft that could not be
read. -/
theorem exists_spans_ofTokens (endLine : Nat) (tokens : List Token) :
    ∃ known unknown,
      Spans known (ofTokens endLine tokens).statements ∧ tokens = known ++ unknown ∧
      ((ofTokens endLine tokens).failure? = none → unknown = []) := by
  fun_induction ofTokens endLine tokens with
  | case1 => exact ⟨[], [], .nil, rfl, fun _ => rfl⟩
  | case2 token rest hnewline ih =>
      obtain ⟨known, unknown, hspans, rfl, hall⟩ := ih
      exact ⟨token :: known, unknown, .skip hnewline hspans, rfl, hall⟩
  | case3 token rest _ error _ => exact ⟨[], token :: rest, .nil, rfl, by simp⟩
  | case4 token rest _ draft after hread later ih =>
      obtain ⟨known, unknown, hspans, hafter, hall⟩ := ih
      obtain ⟨line, tail, hdraft, hends, htokens⟩ := Draft.exists_of_read hread
      rw [htokens]
      cases hends with
      | last =>
          obtain ⟨rfl, rfl⟩ := List.append_eq_nil_iff.1 hafter.symm
          exact ⟨line ++ [], [], .cons hdraft .last hspans, by simp, fun _ => rfl⟩
      | @line token hkind =>
          subst hafter
          exact ⟨line ++ token :: known, unknown,
            .cons hdraft (.line hkind known) hspans, by simp, hall⟩

private theorem Spans.part {tokens : List Token} {drafts : List Draft}
    (h : Spans tokens drafts) {part : Window}
    (hpart : part ∈ drafts.flatMap Draft.windows) :
    part.tokens.Sublist tokens.tail ∧ part.line ∈ tokens.map Token.line := by
  induction h with
  | nil => cases hpart
  | skip _ _ ih =>
      obtain ⟨hsublist, hline⟩ := ih hpart
      exact ⟨hsublist.trans (List.tail_sublist _), List.mem_cons_of_mem _ hline⟩
  | @cons line tail after draft drafts hfirst hends _ ih =>
      rw [List.flatMap_cons, List.mem_append] at hpart
      rw [List.tail_append_of_ne_nil hfirst.ne_nil, List.map_append,
        List.mem_append]
      rcases hpart with hpart | hpart
      · obtain ⟨hsublist, hline⟩ := hfirst.part hpart
        exact ⟨hsublist.trans (List.sublist_append_left _ _), .inl hline⟩
      · obtain ⟨hsublist, hline⟩ := ih hpart
        have htail := hends.sublist
        exact ⟨(hsublist.trans ((List.tail_sublist _).trans htail)).trans
          (List.sublist_append_right _ _),
          .inr ((htail.map Token.line).subset hline)⟩

private theorem Spans.line_mem {tokens : List Token} {drafts : List Draft}
    (h : Spans tokens drafts) {draft : Draft} (hdraft : draft ∈ drafts) :
    draft.line ∈ tokens.map Token.line := by
  induction h with
  | nil => cases hdraft
  | skip _ _ ih => exact List.mem_cons_of_mem _ (ih hdraft)
  | cons hfirst hends _ ih =>
      rw [List.map_append, List.mem_append]
      rcases List.mem_cons.1 hdraft with rfl | hdraft
      · exact .inl hfirst.line_mem
      · exact .inr ((hends.sublist.map Token.line).subset (ih hdraft))

theorem line_of_mem_ofTokens {endLine : Nat} {tokens : List Token} {draft : Draft}
    (h : draft ∈ (ofTokens endLine tokens).statements) :
    draft.line ∈ tokens.map Token.line := by
  obtain ⟨known, unknown, hspans, rfl, -⟩ := exists_spans_ofTokens endLine tokens
  rw [List.map_append]
  exact List.mem_append_left _ (hspans.line_mem h)

theorem part_of_mem_ofTokens {endLine : Nat} {tokens : List Token} {part : Window}
    (h : part ∈ (ofTokens endLine tokens).windows) :
    part.tokens.Sublist tokens.tail ∧ part.line ∈ tokens.map Token.line := by
  obtain ⟨known, unknown, hspans, rfl, -⟩ := exists_spans_ofTokens endLine tokens
  obtain ⟨hsublist, hline⟩ := hspans.part h
  have hknown := List.sublist_append_left known unknown
  exact ⟨hsublist.trans hknown.tail, (hknown.map Token.line).subset hline⟩

end Drafts

/-! ## Forms -/

namespace Form

def bodyDrafts (literal : FunctionLiteral) : Drafts :=
  Drafts.ofStream (Listed.mk (bodyTokens literal.body) literal.lastLine)

inductive Spans : List Token → Form → Prop
  | atom {token : Token} {value : Expr} (h : ofToken token = .ok (.atom value)) :
      Spans [token] (.atom value)
  | group {opener closer : Token} (inner : List Token)
      (hopener : opener.kind = .opening .paren)
      (hcloser : closer.kind = .closing .paren) :
      Spans (opener :: (inner ++ [closer])) (.group ⟨inner, opener.line⟩)
  | operator {token : Token} {op : Operator} (left right : List Token)
      (hkind : token.kind = .operator op) :
      Spans (left ++ token :: right)
        (.operator op ⟨left, token.line⟩ ⟨right, token.line⟩)
  | apply {bang : Token} (callee : List Token) (arguments : List (List Token))
      (hbang : bang.kind = .bang) :
      Spans (bang :: (callee ++ arguments.flatten))
        (.apply ⟨callee, bang.line⟩ (arguments.map (⟨·, bang.line⟩)))
  | conditional {word other : Token} (condition thenBranch elseBranch : List Token)
      (hword : word.kind = .ifWord) (hother : other.kind = .elseWord) :
      Spans (word :: (condition ++ thenBranch ++ other :: elseBranch))
        (.conditional ⟨condition, word.line⟩ ⟨thenBranch, word.line⟩
          ⟨elseBranch, other.line⟩)
  | array {opener closer : Token} (inner : List Token)
      (hopener : opener.kind = .opening .square)
      (hcloser : closer.kind = .closing .square) :
      Spans (opener :: (inner ++ [closer]))
        (.array ((Comma.items inner).map (⟨·, opener.line⟩)))
  | function {tokens : List Token} {literal : FunctionLiteral}
      {arguments : List Variable} {returns : List Ty}
      (hliteral : literal.Spans tokens) (hrest : literal.rest = [])
      (hreturns :
        TypeLiteral.EachDenotes (literal.returns?.elim [] Comma.pieces) returns)
      (harguments : VariableList.DeclaresAll literal.arguments arguments) :
      Spans tokens
        (.function arguments returns literal.returns?.isNone (bodyDrafts literal))

theorem exists_of_ofToken {token : Token} {form : Form}
    (h : ofToken token = .ok form) :
    ∃ value, form = .atom value := by
  unfold ofToken at h
  split at h
  · split at h <;> cases h
    exact ⟨_, rfl⟩
  · split at h <;> cases h
    exact ⟨_, rfl⟩
  all_goals
    cases h
    try exact ⟨_, rfl⟩

private theorem spans_of_ofApplication {bang : Token} {rest : List Token}
    {form : Form} (hbang : bang.kind = .bang) (hrest : rest ≠ [])
    (h : ofApplication bang.line rest = .ok form) :
    Spans (bang :: rest) form := by
  obtain ⟨callee, arguments, hpieces, happlication⟩ :=
    ofApplication_of_ne_nil bang.line hrest
  rw [happlication] at h
  cases h
  have hflatten := Juxtaposed.flatten_pieces rest
  rw [hpieces, List.flatten_cons] at hflatten
  rw [← hflatten]
  exact .apply callee arguments hbang

private theorem spans_of_ofConditional {word : Token} {rest : List Token}
    {form : Form} (hword : word.kind = .ifWord)
    (h : ofConditional word.line rest = .ok form) :
    Spans (word :: rest) form := by
  unfold ofConditional at h
  split at h
  · cases h
  · rename_i split hsplit
    split at h
    · rename_i condition thenBranch hpieces
      cases h
      have hleft : split.left = condition ++ thenBranch := by
        simpa [hpieces] using (Juxtaposed.flatten_pieces split.left).symm
      rw [Split.eq_of_atElseFrom? hsplit, hleft]
      exact .conditional condition thenBranch split.right hword
        (Split.kind_of_atElseFrom? hsplit)
    · cases h

private theorem spans_of_ofFunction {line : Nat} {tokens : List Token}
    {literal : FunctionLiteral} {form : Form} (hliteral : literal.Spans tokens)
    (hrest : literal.rest = []) (h : ofFunction line literal = .ok form) :
    Spans tokens form := by
  simp only [ofFunction, bind_eq_ok_iff] at h
  obtain ⟨returns, hreturns, arguments, harguments, h⟩ := h
  have heach :
      TypeLiteral.EachDenotes (literal.returns?.elim [] Comma.pieces) returns := by
    cases hreturns? : literal.returns? with
    | none =>
        rw [hreturns?] at hreturns
        cases hreturns
        exact .nil
    | some tokens =>
        rw [hreturns?] at hreturns
        exact TypeLiteral.begins_of_read.2 _ returns hreturns
  split at h
  · simp at h
  · cases h
    exact .function hliteral hrest heach
      (VariableList.declaresAll_of_read harguments)

private theorem spans_of_ofSpan {first : Token} {rest : List Token} {form : Form}
    (h : ofSpan first (first :: rest) = .ok form) : Spans (first :: rest) form := by
  unfold ofSpan at h
  split at h
  · rename_i split hsplit
    obtain ⟨op, hop, hoperator⟩ := ofOperator_of_atOperator? hsplit
    rw [hoperator] at h
    cases h
    rw [Split.eq_of_atOperator? hsplit]
    exact .operator split.left split.right hop
  split at h
  · rename_i literal hliteral
    obtain ⟨hliteral, hrest⟩ := Option.filter_eq_some_iff.1 hliteral
    rw [FunctionLiteral.cut_of_ofTokens? hliteral] at h
    exact spans_of_ofFunction (FunctionLiteral.spans_of_ofTokens? hliteral)
      (by simpa using hrest) h
  split at h
  · rename_i enclosed henclosed
    obtain ⟨henclosed, hrest⟩ := Option.filter_eq_some_iff.1 henclosed
    obtain ⟨whole, hwhole, -, htokens⟩ := Enclosed.exists_of_ofBracket? henclosed
    rw [List.isEmpty_iff.1 hrest, List.append_nil] at htokens
    cases h
    cases hwhole with
    | intro hopener hcloser =>
        cases htokens
        exact .group enclosed.inner hopener hcloser
  split at h
  · rename_i enclosed henclosed
    obtain ⟨henclosed, hrest⟩ := Option.filter_eq_some_iff.1 henclosed
    obtain ⟨whole, hwhole, -, htokens⟩ := Enclosed.exists_of_ofBracket? henclosed
    rw [List.isEmpty_iff.1 hrest, List.append_nil] at htokens
    cases h
    cases hwhole with
    | intro hopener hcloser =>
        cases htokens
        exact .array enclosed.inner hopener hcloser
  · cases h

theorem spans_of_ofWindow {window : Window} {form : Form}
    (h : ofWindow window = .ok form) :
    Spans window.tokens form := by
  unfold ofWindow at h
  split at h
  · cases h
  · rename_i first rest htokens
    simp only [bind_eq_ok_iff] at h
    obtain ⟨-, -, h⟩ := h
    rw [htokens]
    split at h
    · rename_i hrest
      obtain ⟨value, rfl⟩ := exists_of_ofToken h
      rw [List.isEmpty_iff.1 hrest]
      exact .atom h
    rename_i hrest
    split at h
    · rename_i hbang
      exact spans_of_ofApplication hbang (by simpa using hrest) h
    split at h
    · rename_i hword
      exact spans_of_ofConditional hword h
    · exact spans_of_ofSpan h

/-! ## Parts -/

private theorem tail_bodyTokens_sublist (body : List Token) :
    (bodyTokens body).tail.Sublist body := by
  unfold bodyTokens
  split
  · exact .slnil
  · split
    · exact List.tail_sublist _
    · exact .refl _

theorem lines_bodyTokens_subset (body : List Token) :
    (bodyTokens body).map Token.line ⊆ body.map Token.line := by
  unfold bodyTokens
  split
  · simp
  · split
    · simp
    · simp

theorem bodyDrafts_sublist (literal : FunctionLiteral) :
    (TokenStream.tokens (Listed.mk (bodyTokens literal.body)
      literal.lastLine)).Sublist (bodyTokens literal.body) := by
  rw [Listed.tokens_eq_takeWhile]
  exact List.takeWhile_sublist _

private theorem bodyDrafts_part {literal : FunctionLiteral} {part : Window}
    (h : part ∈ (bodyDrafts literal).windows) :
    part.tokens.Sublist literal.body ∧ part.line ∈ literal.body.map Token.line := by
  obtain ⟨hsublist, hline⟩ := Drafts.part_of_mem_ofTokens h
  have hwhole := bodyDrafts_sublist literal
  exact ⟨(hsublist.trans hwhole.tail).trans (tail_bodyTokens_sublist _),
    lines_bodyTokens_subset _ ((hwhole.map Token.line).subset hline)⟩

theorem bodyDrafts_line {literal : FunctionLiteral} {draft : Draft}
    (h : draft ∈ (bodyDrafts literal).statements) :
    draft.line ∈ literal.body.map Token.line := by
  have hline := Drafts.line_of_mem_ofTokens h
  exact lines_bodyTokens_subset _
    (((bodyDrafts_sublist literal).map Token.line).subset hline)

theorem Spans.part {tokens : List Token} {form : Form} (h : Spans tokens form)
    {part : Window} (hpart : part ∈ form.windows) :
    part.tokens.Sublist tokens ∧ part.line ∈ tokens.map Token.line := by
  cases h with
  | atom => cases hpart
  | group inner =>
      obtain rfl := List.mem_singleton.1 hpart
      exact ⟨(List.sublist_append_left _ _).cons _, by simp⟩
  | operator left right =>
      simp only [windows, List.mem_cons, List.not_mem_nil, or_false] at hpart
      rcases hpart with rfl | rfl
      · exact ⟨List.sublist_append_left _ _, by simp⟩
      · exact ⟨(List.sublist_cons_self _ right).trans
          (List.sublist_append_right _ _), by simp⟩
  | apply callee arguments =>
      rcases List.mem_cons.1 hpart with rfl | hpart
      · exact ⟨(List.sublist_append_left _ _).cons _, by simp⟩
      · obtain ⟨piece, hpiece, rfl⟩ := List.mem_map.1 hpart
        exact ⟨((List.sublist_flatten_of_mem hpiece).trans
          (List.sublist_append_right _ _)).cons _,
          by simp⟩
  | conditional condition thenBranch elseBranch =>
      simp only [windows, List.mem_cons, List.not_mem_nil, or_false] at hpart
      rw [List.append_assoc]
      rcases hpart with rfl | rfl | rfl
      · exact ⟨(List.sublist_append_left _ _).cons _, by simp⟩
      · exact ⟨((List.sublist_append_left _ _).trans
          (List.sublist_append_right _ _)).cons _,
          by simp⟩
      · refine ⟨.cons _ ?_, by simp⟩
        exact
          ((List.sublist_cons_self _ elseBranch).trans
            (List.sublist_append_right _ _)).trans (List.sublist_append_right _ _)
  | array inner =>
      obtain ⟨piece, hpiece, rfl⟩ := List.mem_map.1 hpart
      exact ⟨((Comma.sublist_of_mem_items hpiece).trans
        (List.sublist_append_left _ _)).cons _,
        by simp⟩
  | function hliteral =>
      obtain ⟨hsublist, hline⟩ := bodyDrafts_part hpart
      have hbody := hliteral.body_sublist
      exact ⟨hsublist.trans hbody, (hbody.map Token.line).subset hline⟩

end Form

end ExprLang
