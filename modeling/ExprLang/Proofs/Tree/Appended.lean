import ExprLang.Proofs.Tree.Leaves

/-!
# Texts one after the other

When a text can be parsed and another follows it on a new line, the lines of the
first end where they ended before, so the statements of the first come out in front
of those of the second.
-/

namespace ExprLang

open Outcome

instance : Append Program :=
  ⟨fun first second => ⟨first.statements ++ second.statements⟩⟩

/-! ## Tokens -/

private theorem Listed.collect_append {earlier : List Token} (h : EndFree earlier)
    (later : List Token) (endLine : Nat) :
    TokenStream.collect (Listed.mk (earlier ++ later) endLine) =
      (earlier ++ TokenStream.tokens (Listed.mk later endLine),
        TokenStream.endLine (Listed.mk later endLine)) := by
  induction earlier with
  | nil => rfl
  | cons token earlier ih =>
      have htoken := h token List.mem_cons_self
      have ih := ih fun other hother => h other (List.mem_cons_of_mem _ hother)
      rw [List.cons_append, Listed.collect_cons htoken, TokenStream.tokens,
        TokenStream.endLine, ih]
      rfl

/-! ## Drafts -/

namespace Draft

/-- What a line leaves when a line break and `more` follow its text: the line ended
with the text, or before. -/
inductive Resumes (newline : Token) (more : List Token) :
    List Token → List Token → Prop
  | last : Resumes newline more [] more
  | inside (after : List Token) :
      Resumes newline more after (after ++ newline :: more)

private theorem leftSide_append_of_ok {endLine : Nat}
    {tokens left right : List Token}
    (h : leftSide endLine tokens = .ok (left, right)) (otherEnd : Nat)
    (more : List Token) :
    leftSide otherEnd (tokens ++ more) = .ok (left, right ++ more) := by
  induction tokens generalizing left with
  | nil => cases h
  | cons token rest ih =>
      rw [leftSide] at h
      rw [List.cons_append, leftSide]
      split at h
      · cases h
      · rename_i hillegal
        rw [if_neg hillegal]
        split at h
        · rename_i hsign
          cases h
          rw [if_pos hsign]
        · rename_i hsign
          rw [if_neg hsign]
          split at h
          · cases h
          · rename_i hnewline
            obtain ⟨sides, hsides, hleft⟩ := map_eq_ok_iff.1 h
            cases hleft
            rw [if_neg hnewline, ih hsides]
            rfl

variable {newline : Token} (hnewline : newline.kind = .newline)

include hnewline

private theorem exists_logicalLine_append {endLine braces : Nat}
    {tokens line after : List Token}
    (h : logicalLine endLine braces tokens = .ok (line, after)) (otherEnd : Nat)
    (more : List Token) :
    ∃ resumed, Resumes newline more after resumed ∧
      logicalLine otherEnd braces (tokens ++ newline :: more) =
        .ok (line, resumed) := by
  induction tokens generalizing braces line with
  | nil =>
      cases braces with
      | zero =>
          cases h
          exact ⟨more, .last,
            logicalLine_cons_eq_ok_iff.2 (.inl ⟨hnewline, rfl, rfl, rfl⟩)⟩
      | succ braces => cases h
  | cons token rest ih =>
      rw [List.cons_append]
      rcases logicalLine_cons_eq_ok_iff.1 h with ⟨hend, rfl, rfl, rfl⟩ |
        ⟨next, tail, hnext, htail, rfl⟩
      · exact ⟨_, .inside after,
          logicalLine_cons_eq_ok_iff.2 (.inl ⟨hend, rfl, rfl, rfl⟩)⟩
      · obtain ⟨resumed, hresumes, hline⟩ := ih htail
        exact ⟨resumed, hresumes,
          logicalLine_cons_eq_ok_iff.2 (.inr ⟨next, tail, hnext, hline, rfl⟩)⟩

private theorem exists_read_append {endLine : Nat} {first : Token}
    {rest after : List Token} {draft : Draft}
    (h : read endLine first rest = .ok (draft, after)) (otherEnd : Nat)
    (more : List Token) :
    ∃ resumed, Resumes newline more after resumed ∧
      read otherEnd first (rest ++ newline :: more) = .ok (draft, resumed) := by
  unfold read at h ⊢
  split at h
  · simp only [bind_eq_ok_iff] at h
    obtain ⟨sides, hsides, targets, htargets, line, hline, h⟩ := h
    cases h
    obtain ⟨resumed, hresumes, hresumed⟩ :=
      exists_logicalLine_append hnewline hline otherEnd more
    refine ⟨resumed, hresumes, ?_⟩
    simp only [bind_eq_ok_iff]
    exact ⟨_, leftSide_append_of_ok hsides otherEnd _, targets, htargets, _,
      hresumed, rfl⟩
  · simp only [bind_eq_ok_iff] at h
    obtain ⟨line, hline, h⟩ := h
    cases h
    obtain ⟨resumed, hresumes, hresumed⟩ :=
      exists_logicalLine_append hnewline hline otherEnd more
    refine ⟨resumed, hresumes, ?_⟩
    simp only [bind_eq_ok_iff]
    exact ⟨_, hresumed, rfl⟩
  · cases h
  · cases h

end Draft

namespace Drafts

private theorem ofTokens_append {endLine : Nat} {earlier : List Token}
    (h : (ofTokens endLine earlier).failure? = none) {newline : Token}
    (hnewline : newline.kind = .newline) (otherEnd : Nat) (more : List Token) :
    ofTokens otherEnd (earlier ++ newline :: more) =
      ⟨(ofTokens endLine earlier).statements ++ (ofTokens otherEnd more).statements,
        (ofTokens otherEnd more).failure?⟩ := by
  have hskip : ofTokens otherEnd (newline :: more) = ofTokens otherEnd more := by
    rw [ofTokens, if_pos hnewline]
  fun_induction ofTokens endLine earlier with
  | case1 => exact hskip
  | case2 token rest hkind ih =>
      rw [List.cons_append, ofTokens, if_pos hkind]
      exact ih h
  | case3 => cases h
  | case4 token rest hkind draft after hread later ih =>
      obtain ⟨resumed, hresumes, hreadMore⟩ :=
        Draft.exists_read_append hnewline hread otherEnd more
      have hlater : ofTokens otherEnd resumed =
          ⟨later.statements ++ (ofTokens otherEnd more).statements,
            (ofTokens otherEnd more).failure?⟩ := by
        cases hresumes with
        | last => simp [later, ofTokens]
        | inside => exact ih h
      rw [List.cons_append, ofTokens_cons hkind hreadMore, hlater]
      rfl

end Drafts

private theorem Drafts.ofStream_append {earlier : List Token}
    (hend : EndFree earlier) {firstEnd : Nat}
    (h : (Drafts.ofStream (Listed.mk earlier firstEnd)).failure? = none)
    {newline : Token} (hnewline : newline.kind = .newline) (later : List Token)
    (endLine : Nat) :
    Drafts.ofStream (Listed.mk (earlier ++ newline :: later) endLine) =
      ⟨(Drafts.ofStream (Listed.mk earlier firstEnd)).statements ++
        (Drafts.ofStream (Listed.mk later endLine)).statements,
        (Drafts.ofStream (Listed.mk later endLine)).failure?⟩ := by
  have hearlier : TokenStream.tokens (Listed.mk earlier firstEnd) = earlier := by
    rw [Listed.tokens_eq_takeWhile, hend.takeWhile]
  have hboth : EndFree (earlier ++ [newline]) := by
    simpa [EndFree, or_imp, forall_and, hnewline] using hend
  have hcollect := Listed.collect_append hboth later endLine
  rw [List.append_assoc, List.singleton_append] at hcollect
  rw [Drafts.ofStream, hearlier] at h
  rw [Drafts.ofStream, TokenStream.tokens, TokenStream.endLine, hcollect,
    List.append_assoc, List.singleton_append, Drafts.ofTokens_append h hnewline,
    Drafts.ofStream, hearlier]
  rfl

/-! ## Trees -/

section Plain

variable {parse : Window → Except ParseError Expr}

private theorem Draft.buildAll_append {first : List Draft}
    {statements : List Statement}
    (h : Draft.buildAll first (fun window _ => parse window) = .ok statements)
    (second : List Draft) :
    Draft.buildAll (first ++ second) (fun window _ => parse window) =
      (Draft.buildAll second fun window _ => parse window).map (statements ++
        ·) := by
  induction first generalizing statements with
  | nil =>
      cases h
      show _ = Except.map id _
      rw [Except.map_id]
      rfl
  | cons draft drafts ih =>
      simp only [Draft.buildAll, bind_eq_ok_iff, pure_eq_ok_iff] at h
      obtain ⟨statement, hstatement, others, hothers, rfl⟩ := h
      rw [List.cons_append, Draft.buildAll, hstatement, ih hothers]
      cases Draft.buildAll second fun window _ => parse window <;> rfl

private theorem Drafts.failure?_of_build {drafts : Drafts}
    {statements : List Statement}
    (h : drafts.build (fun window _ => parse window) = .ok statements) :
    Draft.buildAll drafts.statements (fun window _ => parse window) =
        .ok statements ∧
      drafts.failure? = none := by
  simp only [Drafts.build, bind_eq_ok_iff] at h
  obtain ⟨found, hfound, h⟩ := h
  split at h
  · simp at h
  · cases h
    exact ⟨hfound, ‹_›⟩

theorem Drafts.build_append {first : List Draft} {statements : List Statement}
    (h : Draft.buildAll first (fun window _ => parse window) = .ok statements)
    (second : Drafts) :
    Drafts.build ⟨first ++ second.statements, second.failure?⟩
        (fun window _ => parse window) =
      (second.build fun window _ => parse window).map (statements ++ ·) := by
  have hbuild := Draft.buildAll_append h second.statements
  cases second with
  | mk later failure? =>
      cases failure? with
      | none =>
          show
              (Draft.buildAll (first ++ later) (fun window _ => parse window) >>=
                pure) =
              ((Draft.buildAll later fun window _ => parse window) >>= pure).map
              (statements ++ ·)
          rw [hbuild]
          cases Draft.buildAll later fun window _ => parse window <;> rfl
      | some error =>
          show
              (Draft.buildAll (first ++ later) (fun window _ => parse window) >>=
                fun _ => throw error) =
              ((Draft.buildAll later fun window _ => parse window) >>=
                fun _ => throw error).map (statements ++ ·)
          rw [hbuild]
          cases Draft.buildAll later fun window _ => parse window <;> rfl

end Plain

theorem Program.ofTokens_append {earlier : List Token} (hend : EndFree earlier)
    {firstEnd : Nat} {first : Program}
    (h : Program.ofTokens earlier firstEnd = .ok first) {newline : Token}
    (hnewline : newline.kind = .newline) (later : List Token) (endLine : Nat) :
    Program.ofTokens (earlier ++ newline :: later) endLine =
      (Program.ofTokens later endLine).map (first ++ ·) := by
  simp only [Program.ofTokens, Program.ofStream, bind_eq_ok_iff,
    pure_eq_ok_iff] at h ⊢
  obtain ⟨statements, hbuild, rfl⟩ := h
  obtain ⟨hbuildAll, hfailure⟩ := Drafts.failure?_of_build hbuild
  rw [Drafts.ofStream_append hend hfailure hnewline, Drafts.build_append hbuildAll]
  cases (Drafts.ofStream (Listed.mk later endLine)).build fun window _ =>
    Expr.ofWindow window <;> rfl

end ExprLang
