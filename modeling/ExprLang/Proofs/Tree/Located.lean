import ExprLang.Proofs.Token.Sound
import ExprLang.Proofs.Tree.Built
import ExprLang.Proofs.Tree.Spans

/-!
# Parse errors are located

If all tokens can be read, every error of a reader names the line of a token or of
the end.  For a text these are lines of the text, so parsing it fails with no error
that has no line.
-/

namespace ExprLang

open Outcome

def ParseError.Located (lines : Nat → Prop) (error : ParseError) : Prop :=
  ∃ line, error.line? = some line ∧ lines line

def AllSound (lines : Nat → Prop) (tokens : List Token) : Prop :=
  ∀ token ∈ tokens, token.Sound lines

/-- If the outcome is an error, it names one of the lines. -/
abbrev Locates {α : Type} (lines : Nat → Prop) (outcome : Except ParseError α) :
    Prop :=
  Meets outcome (fun _ => True) (ParseError.Located lines)

variable {lines : Nat → Prop}

theorem AllSound.sublist {tokens part : List Token} (h : AllSound lines tokens)
    (hpart : part.Sublist tokens) :
    AllSound lines part :=
  fun token htoken => h token (hpart.subset htoken)

theorem AllSound.line_mem {tokens : List Token} (h : AllSound lines tokens)
    {line : Nat} (hline : line ∈ tokens.map Token.line) : lines line := by
  obtain ⟨token, htoken, rfl⟩ := List.mem_map.1 hline
  exact (h token htoken).line

theorem allSound_cons_iff {token : Token} {tokens : List Token} :
    AllSound lines (token :: tokens) ↔ token.Sound lines ∧ AllSound lines tokens :=
  List.forall_mem_cons

/-! ## Types and variables -/

namespace TypeLiteral

theorem locates_read :
    (∀ tokens, AllSound lines tokens → Locates lines (read tokens)) ∧
      ∀ pieces, (∀ piece ∈ pieces, AllSound lines piece) →
        Locates lines (readPieces pieces) := by
  refine TypeLiteral.read.mutual_induct
    (fun tokens => AllSound lines tokens → Locates lines (read tokens))
    (fun pieces =>
      (∀ piece ∈ pieces, AllSound lines piece) → Locates lines (readPieces pieces))
    ?_ ?_ ?_ ?_ ?_ ?_ ?_ ?_ ?_
  · intro _
    rw [read]
    trivial
  · intro token rest hkind primitive hname _
    rw [read]
    simp only [hkind, hname]
    trivial
  · intro token rest hkind hname h
    obtain ⟨base, hbase⟩ := (h token List.mem_cons_self).typeName hkind
    rw [hname] at hbase
    cases hbase
  · intro token rest hkind ih h
    have hsound := allSound_cons_iff.1 h
    rw [read]
    simp only [hkind]
    refine (ih hsound.2).bind fun found _ _ => ?_
    cases found with
    | none => exact ⟨token.line, rfl, hsound.1.line⟩
    | some pair => trivial
  · intro token rest hcut htypeName harrayMark _
    rw [read_eq_cut htypeName harrayMark, hcut]
    trivial
  · intro token rest cut hcut htypeName harrayMark iharguments ihreturns h
    obtain ⟨source, arrow, target, hsource, -, htarget, htokens⟩ :=
      FunctionTypeCut.exists_of_ofTokens? hcut
    rw [htokens] at h
    have harguments : AllSound lines cut.arguments :=
      h.sublist ((hsource.sublist.trans (List.sublist_append_left _ _)).trans
        (List.sublist_append_left _ _))
    have hreturns : AllSound lines cut.returns :=
      h.sublist (((htarget.sublist.cons _).trans
        (List.sublist_append_right _ _)).trans (List.sublist_append_left _ _))
    have hpieces {inner : List Token} (hinner : AllSound lines inner) :
        ∀ piece ∈ Comma.pieces inner, AllSound lines piece :=
      fun piece hpiece => hinner.sublist ((Comma.joins_pieces inner).sublist hpiece)
    rw [read_eq_cut htypeName harrayMark, hcut]
    refine (iharguments (hpieces harguments)).bind fun arguments _ _ => ?_
    exact (ihreturns (hpieces hreturns)).bind fun returns _ _ => trivial
  · intro _
    rw [readPieces]
    trivial
  · intro pieces ih h
    rw [readPieces]
    exact ih fun piece hpiece => h piece (List.mem_cons_of_mem _ hpiece)
  · intro first others pieces ihFirst ih h
    have hfirst : AllSound lines (first :: others) := h _ List.mem_cons_self
    rw [readPieces]
    refine (ihFirst hfirst).bind fun found hfound _ => ?_
    split
    · have hlater := ih fun piece hpiece => h piece (List.mem_cons_of_mem _ hpiece)
      exact hlater.bind fun types _ _ => trivial
    · rename_i type extra after
      obtain ⟨literal, -, htokens⟩ :=
        begins_of_read.1 _ type (extra :: after) hfound
      have hextra : extra ∈ first :: others := by simp [htokens]
      exact ⟨extra.line, rfl, (hfirst extra hextra).line⟩
    · exact ⟨first.line, rfl, (hfirst first List.mem_cons_self).line⟩

private theorem locates_readList {tokens : List Token} (h : AllSound lines tokens) :
    Locates lines (readList tokens) :=
  locates_read.2 _ fun _ hpiece =>
    h.sublist ((Comma.joins_pieces tokens).sublist hpiece)

end TypeLiteral

namespace VariableList

private theorem locates_declaredType {name : Token} {rest : List Token}
    (hname : name.Sound lines) (hrest : AllSound lines rest) :
    Locates lines (declaredType name rest) := by
  have hafter : AllSound lines
      (if rest.head?.any (·.kind = .colon) then rest.tail else rest) := by
    split
    · exact hrest.sublist (List.tail_sublist rest)
    · exact hrest
  have hread := TypeLiteral.locates_read.1 _ hafter
  simp only [declaredType]
  split
  · rename_i error herror
    exact hread.of_error herror
  · trivial
  · split
    · exact ⟨name.line, rfl, hname.line⟩
    · trivial

theorem locates_read {tokens : List Token} (h : AllSound lines tokens) :
    Locates lines (read tokens) := by
  fun_induction read tokens with
  | case1 => trivial
  | case2 name rest _ => exact ⟨name.line, rfl, (h name List.mem_cons_self).line⟩
  | case3 name rest hname error htype =>
      have hsound := allSound_cons_iff.1 h
      exact (locates_declaredType hsound.1 hsound.2).of_error htype
  | case4 => trivial
  | case5 name rest hname type? comma others htype _ =>
      obtain ⟨tokens, -, rfl⟩ := exists_of_declaredType (by simpa using hname) htype
      exact ⟨comma.line, rfl, (h comma (by simp)).line⟩
  | case6 name rest hname type? comma others htype _ _ =>
      obtain ⟨tokens, -, rfl⟩ := exists_of_declaredType (by simpa using hname) htype
      exact ⟨comma.line, rfl, (h comma (by simp)).line⟩
  | case7 name rest hname type? comma others htype _ _ ih =>
      obtain ⟨tokens, -, rfl⟩ := exists_of_declaredType (by simpa using hname) htype
      have hothers : others.Sublist (name :: (tokens ++ comma :: others)) :=
        ((List.sublist_cons_self _ _).trans (List.sublist_append_right _ _)).cons _
      exact (ih (h.sublist hothers)).map fun _ _ => trivial

end VariableList

/-! ## Drafts -/

namespace Draft

private theorem locates_leftSide {endLine : Nat} (hend : lines endLine)
    {tokens : List Token} (h : AllSound lines tokens) :
    Locates lines (leftSide endLine tokens) := by
  induction tokens with
  | nil => exact ⟨endLine, rfl, hend⟩
  | cons token rest ih =>
      have hsound := allSound_cons_iff.1 h
      rw [leftSide]
      split
      · exact ⟨token.line, rfl, hsound.1.line⟩
      · split
        · trivial
        · split
          · exact ⟨token.line, rfl, hsound.1.line⟩
          · exact (ih hsound.2).map fun _ _ => trivial

private theorem locates_logicalLine {endLine : Nat} (hend : lines endLine)
    {tokens : List Token} (h : AllSound lines tokens) (braces : Nat) :
    Locates lines (logicalLine endLine braces tokens) := by
  induction tokens generalizing braces with
  | nil =>
      cases braces with
      | zero => trivial
      | succ braces => exact ⟨endLine, rfl, hend⟩
  | cons token rest ih =>
      have hsound := allSound_cons_iff.1 h
      have continued (braces : Nat) : Locates lines
          ((logicalLine endLine braces rest).map fun sides =>
            (token :: sides.1, sides.2)) :=
        (ih hsound.2 braces).map fun _ _ => trivial
      simp only [logicalLine]
      split
      · exact ⟨token.line, rfl, hsound.1.line⟩
      · split
        · split
          · trivial
          · exact continued _
        · split
          · exact continued _
          · split
            · split
              · exact ⟨token.line, rfl, hsound.1.line⟩
              · exact continued _
            · exact continued _

private theorem locates_read {endLine : Nat} (hend : lines endLine) {first : Token}
    {rest : List Token} (h : AllSound lines (first :: rest)) :
    Locates lines (read endLine first rest) := by
  have hsound := allSound_cons_iff.1 h
  unfold read
  split
  · refine (locates_leftSide hend hsound.2).bind fun sides hsides _ => ?_
    obtain ⟨sign, -, rfl⟩ := exists_of_leftSide hsides
    have hleft : AllSound lines (first :: sides.1) :=
      h.sublist ((List.sublist_append_left _ _).cons_cons first)
    have hright : AllSound lines sides.2 :=
      h.sublist (((List.sublist_cons_self _ _).trans
        (List.sublist_append_right _ _)).cons first)
    refine (VariableList.locates_read hleft).bind fun targets _ _ => ?_
    exact (locates_logicalLine hend hright 0).bind fun line _ _ => trivial
  · exact (locates_logicalLine hend hsound.2 0).bind fun line _ _ => trivial
  · exact ⟨first.line, rfl, hsound.1.line⟩
  · exact ⟨first.line, rfl, hsound.1.line⟩

end Draft

theorem Drafts.located_of_ofTokens {endLine : Nat} (hend : lines endLine)
    {tokens : List Token} (h : AllSound lines tokens) :
    ∀ error ∈ (ofTokens endLine tokens).failure?, error.Located lines := by
  fun_induction ofTokens endLine tokens with
  | case1 => simp
  | case2 token rest _ ih => exact ih (allSound_cons_iff.1 h).2
  | case3 token rest _ error hread =>
      intro other hother
      cases hother
      exact (Draft.locates_read hend h).of_error hread
  | case4 token rest _ draft after hread later ih =>
      obtain ⟨line, tail, -, hends, htokens⟩ := Draft.exists_of_read hread
      rw [htokens] at h
      exact ih (h.sublist (hends.sublist.trans (List.sublist_append_right _ _)))

/-! ## Forms -/

private theorem Listed.allSound {tokens : List Token} (h : AllSound lines tokens)
    {endLine : Nat} (hend : lines endLine) :
    AllSound lines (TokenStream.tokens (Listed.mk tokens endLine)) ∧
      lines (TokenStream.endLine (Listed.mk tokens endLine)) := by
  have hnext : ∀ stream : Listed,
      AllSound lines stream.tokens ∧ lines stream.endLine →
      (TokenStream.next stream).1.Sound lines ∧
        AllSound lines (TokenStream.next stream).2.tokens ∧
        lines (TokenStream.next stream).2.endLine := by
    rintro ⟨tokens, endLine⟩ ⟨htokens, hend⟩
    cases tokens with
    | nil =>
        exact ⟨⟨Token.readable_of_kind (by simp [TokenStream.next, Listed.next,
          Token.eof]),
          hend⟩,
          htokens, hend⟩
    | cons token rest =>
        exact ⟨(allSound_cons_iff.1 htokens).1, (allSound_cons_iff.1 htokens).2,
          hend⟩
  obtain ⟨htokens, last, hlast, hline⟩ :=
    TokenStream.good_of_next hnext (Listed.mk tokens endLine) ⟨h, hend⟩
  exact ⟨htokens, hline ▸ hlast.line⟩

namespace Form

private theorem allSound_bodyTokens {body : List Token} (h : AllSound lines body) :
    AllSound lines (bodyTokens body) := by
  unfold bodyTokens
  split
  · exact h
  · rename_i first rest
    split
    · exact h
    · have hreadable : (Token.ofKind .returnWord first.line).Readable :=
        Token.readable_of_kind (by simp [Token.ofKind])
      exact allSound_cons_iff.2 ⟨⟨hreadable, (h first List.mem_cons_self).line⟩, h⟩

private theorem located_of_bodyDrafts {literal : FunctionLiteral}
    (h : AllSound lines literal.body) (hlast : lines literal.lastLine) :
    ∀ error ∈ (bodyDrafts literal).failure?, error.Located lines := by
  obtain ⟨htokens, hend⟩ := Listed.allSound (allSound_bodyTokens h) hlast
  exact Drafts.located_of_ofTokens hend htokens

private theorem Spans.located_failure {tokens : List Token} {form : Form}
    (h : Spans tokens form) (hsound : AllSound lines tokens) :
    ∀ error ∈ form.failure?, error.Located lines := by
  cases h with
  | function hliteral =>
      exact located_of_bodyDrafts (hsound.sublist hliteral.body_sublist)
        (hsound.line_mem hliteral.lastLine_mem)
  | _ => simp [failure?]

private theorem locates_checkBalance {first : Token} {rest : List Token}
    (h : first.Sound lines) :
    Locates lines (checkBalance (first :: rest)) := by
  unfold checkBalance
  split
  · exact ⟨first.line, rfl, h.line⟩
  · trivial

private theorem locates_ofToken {token : Token} (h : token.Sound lines) :
    Locates lines (ofToken token) := by
  unfold ofToken
  split
  · split
    · trivial
    · exact ⟨token.line, rfl, h.line⟩
  · rename_i hkind
    obtain ⟨value, hvalue⟩ := h.float hkind
    rw [hvalue]
    trivial
  · trivial
  · trivial
  · trivial
  · trivial
  · exact ⟨token.line, rfl, h.line⟩
  · exact ⟨token.line, rfl, h.line⟩

private theorem locates_ofApplication (line : Nat) {rest : List Token}
    (hrest : rest ≠ []) :
    Locates lines (ofApplication line rest) := by
  obtain ⟨callee, arguments, -, happlication⟩ := ofApplication_of_ne_nil line hrest
  rw [happlication]
  trivial

private theorem locates_ofConditional {line : Nat} (hline : lines line)
    (rest : List Token) :
    Locates lines (ofConditional line rest) := by
  unfold ofConditional
  split
  · exact ⟨line, rfl, hline⟩
  · split
    · trivial
    · exact ⟨line, rfl, hline⟩

private theorem locates_ofFunction {line : Nat} (hline : lines line)
    {literal : FunctionLiteral} (harguments : AllSound lines literal.arguments)
    (hreturns : ∀ returns ∈ literal.returns?, AllSound lines returns) :
    Locates lines (ofFunction line literal) := by
  have htypes :
      Locates lines (literal.returns?.elim (.ok []) TypeLiteral.readList) := by
    cases hreturns? : literal.returns? with
    | none => trivial
    | some returns =>
        exact TypeLiteral.locates_readList (hreturns returns hreturns?)
  refine htypes.bind fun returns _ _ => ?_
  refine (VariableList.locates_read harguments).bind fun arguments _ _ => ?_
  split
  · exact ⟨line, rfl, hline⟩
  · trivial

private theorem locates_ofSpan {first : Token} {rest : List Token}
    (h : AllSound lines (first :: rest)) :
    Locates lines (ofSpan first (first :: rest)) := by
  have hfirst := (allSound_cons_iff.1 h).1
  unfold ofSpan
  split
  · rename_i split hsplit
    obtain ⟨op, -, hoperator⟩ := ofOperator_of_atOperator? hsplit
    rw [hoperator]
    trivial
  split
  · rename_i literal hliteral
    have hliteral := (Option.filter_eq_some_iff.1 hliteral).1
    have hspans := FunctionLiteral.spans_of_ofTokens? hliteral
    rw [FunctionLiteral.cut_of_ofTokens? hliteral]
    exact locates_ofFunction hfirst.line (h.sublist hspans.arguments_sublist)
      fun returns hreturns => h.sublist (hspans.returns_sublist hreturns)
  split
  · trivial
  split
  · trivial
  · refine ⟨_, rfl, ?_⟩
    cases hdrop : (first :: rest).drop (Juxtaposed.unitLength (first :: rest)) with
    | nil => exact hfirst.line
    | cons token after =>
        have htoken : token ∈ first :: rest :=
          List.mem_of_mem_drop (hdrop ▸ List.mem_cons_self)
        exact (h token htoken).line

private theorem locates_ofWindow {window : Window}
    (h : AllSound lines window.tokens) (hline : lines window.line) :
    Locates lines (ofWindow window) := by
  unfold ofWindow
  split
  · exact ⟨window.line, rfl, hline⟩
  · rename_i first rest htokens
    rw [htokens] at h
    have hfirst := (allSound_cons_iff.1 h).1
    refine (locates_checkBalance hfirst).bind fun _ _ _ => ?_
    split
    · exact locates_ofToken hfirst
    rename_i hrest
    split
    · exact locates_ofApplication first.line (by simpa using hrest)
    split
    · exact locates_ofConditional hfirst.line rest
    · exact locates_ofSpan h

end Form

/-! ## Parsing -/

private theorem Expr.locates_ofWindow {window : Window}
    (h : AllSound lines window.tokens) (hline : lines window.line) :
    Locates lines (Expr.ofWindow window) := by
  have hstep (window : Window)
      (hgood : AllSound lines window.tokens ∧ lines window.line) :
      Meets (Form.ofWindow window)
        (Form.Step (fun part => AllSound lines part.tokens ∧ lines part.line)
          (fun _ _ => True) (ParseError.Located lines) window)
        (ParseError.Located lines) := by
    refine (Form.locates_ofWindow hgood.1 hgood.2).mono fun form hform _ => ?_
    have hspans := Form.spans_of_ofWindow hform
    constructor
    · intro part hpart
      obtain ⟨hsublist, hpartLine⟩ := hspans.part hpart
      exact ⟨hgood.1.sublist hsublist, hgood.1.line_mem hpartLine⟩
    · exact hspans.located_failure hgood.1
    · exact fun _ _ => trivial
  exact Expr.meets_ofWindow hstep window ⟨h, hline⟩

theorem Program.locates_ofString (text : String) :
    Locates (LineOf text) (Program.ofString text) := by
  obtain ⟨htokens, hend⟩ := sound_tokens text
  have hwindows : ∀ window ∈ (Drafts.ofStream (Cursor.ofString text)).windows,
      Locates (LineOf text) (Expr.ofWindow window) := by
    intro window hwindow
    obtain ⟨hsublist, hline⟩ := Drafts.part_of_mem_ofTokens hwindow
    have hsound : AllSound (LineOf text) window.tokens :=
      AllSound.sublist htokens (hsublist.trans (List.tail_sublist _))
    exact Expr.locates_ofWindow hsound (AllSound.line_mem htokens hline)
  exact
    (Program.meets_ofStream hwindows (Drafts.located_of_ofTokens hend htokens)).mono
    fun _ _ _ => trivial

end ExprLang
