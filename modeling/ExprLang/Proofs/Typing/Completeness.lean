import ExprLang.Proofs.Typing.Soundness

/-!
# What follows the rules is checked

Checking succeeds wherever the rules give types, and finds the same types.  With
soundness this makes checking an algorithm for the rules.
-/

namespace ExprLang

open Ty Checker SymbolTable

/-! ## Tables that stand for contexts -/

/-- The scopes of the table give the names of the contexts the same types. -/
structure SymbolTable.Represents (table : SymbolTable)
    (globals locals : Context) : Prop where
  globals_same : globals.Same table.globalTypes
  locals_same : locals.Same table.localTypes

namespace SymbolTable.Represents

variable {table after : SymbolTable} {globals locals : Context}

private theorem of_sameScopes (h : table.Represents globals locals)
    (hscopes : table.SameScopes after) :
    after.Represents globals locals where
  globals_same := by
    rw [hscopes.globalTypes_eq]
    exact h.globals_same
  locals_same := by
    rw [hscopes.localTypes_eq]
    exact h.locals_same

private theorem enter (h : table.Represents globals locals)
    (arguments : List (String × Ty)) :
    (table.enter arguments).Represents globals (.ofArguments arguments) where
  globals_same := h.globals_same
  locals_same := by
    rw [localTypes_enter]
    exact .refl _

private theorem define (h : table.Represents globals locals)
    (hframes : table.frames ≠ []) (name : String) {type found : Ty}
    (hsame : found.same type = true) :
    (table.define name found).2.Represents globals (locals.extend name type) where
  globals_same := by
    rw [(table.sameOutside_define name found).globalTypes_eq hframes]
    exact h.globals_same
  locals_same := by
    rw [localTypes_define hframes]
    exact h.locals_same.extend name hsame

private theorem lookup (h : table.Represents globals locals) {name : String}
    {type : Ty} (hname : globals.lookup locals name = some type) :
    ∃ found, table.typeOf? name = some found ∧ found.same type = true := by
  rw [typeOf?_eq_lookup]
  unfold Context.lookup at hname ⊢
  cases hlocal : locals name with
  | some own =>
      obtain ⟨found, hfound, hsame⟩ := h.locals_same.exists_of_eq_some hlocal
      rw [hlocal, Option.some_or, Option.some.injEq] at hname
      exact ⟨found, by rw [hfound, Option.some_or], hname ▸ hsame⟩
  | none =>
      rw [(h.locals_same.eq_none_iff name).1 hlocal]
      rw [hlocal] at hname
      simp only [Option.none_or] at hname ⊢
      cases hglobal : globals name with
      | some other =>
          obtain ⟨found, hfound, hsame⟩ := h.globals_same.exists_of_eq_some hglobal
          rw [hglobal, Option.some_or, Option.some.injEq] at hname
          exact ⟨found, by rw [hfound, Option.some_or], hname ▸ hsame⟩
      | none =>
          rw [(h.globals_same.eq_none_iff name).1 hglobal]
          rw [hglobal] at hname
          exact ⟨type, hname, same_refl type⟩

end SymbolTable.Represents

private theorem Assigns.assignedAll {globals locals after : Context}
    {targets : List Variable} {types : List Ty}
    (h : Assigns globals locals targets types after) {table : SymbolTable}
    (hframes : table.frames ≠ []) (htable : table.Represents globals locals)
    {found : List Ty} (hfound : sameAll found types = true) :
    ∃ final,
      AssignedAll table targets found final ∧ final.Represents globals after := by
  induction h generalizing table found with
  | nil =>
      obtain rfl : found = [] := sameAll_nil_iff.1 (sameAll_symm hfound)
      exact ⟨table, .nil table, htable⟩
  | @new locals after target targets type types hdeclared hconcrete hglobal hlocal _
      ih =>
      match found with
      | [] => simp [sameAll] at hfound
      | first :: others =>
          simp only [sameAll, Bool.and_eq_true] at hfound
          obtain ⟨hfirst, hothers⟩ := hfound
          have houtside := table.sameOutside_define target.name first
          obtain ⟨final, hall, hfinal⟩ := ih (houtside.frames_ne_nil hframes)
            (htable.define hframes target.name hfirst) hothers
          refine ⟨final, .cons ?_ ?_ (.new ?_) hall, hfinal⟩
          · exact fun declared hname =>
              same_trans (hdeclared declared hname) (same_symm hfirst)
          · rwa [hasHole_eq_false_iff, holes_eq_of_same hfirst,
              ← hasHole_eq_false_iff]
          · exact resolve?_eq_none_iff.2
              ⟨(htable.locals_same.eq_none_iff _).1 hlocal,
                (htable.globals_same.eq_none_iff _).1 hglobal⟩
  | @again locals after target targets type existing types hdeclared hconcrete
      hlocal hsame _ ih =>
      match found with
      | [] => simp [sameAll] at hfound
      | first :: others =>
          simp only [sameAll, Bool.and_eq_true] at hfound
          obtain ⟨hfirst, hothers⟩ := hfound
          obtain ⟨final, hall, hfinal⟩ := ih hframes htable hothers
          obtain ⟨stored, hstored, hstoredSame⟩ :=
            htable.locals_same.exists_of_eq_some hlocal
          obtain ⟨symbol, hresolve, rfl⟩ := localTypes_eq_some_iff.1 hstored
          refine ⟨final, .cons ?_ ?_ (.again hresolve ?_) hall, hfinal⟩
          · exact fun declared hname =>
              same_trans (hdeclared declared hname) (same_symm hfirst)
          · rwa [hasHole_eq_false_iff, holes_eq_of_same hfirst,
              ← hasHole_eq_false_iff]
          · exact same_trans hstoredSame (same_trans hsame (same_symm hfirst))

private theorem exists_returns_of_map_plainAll {returnsOmitted : Bool}
    {returns results : List Ty} {found candidates : List (List Ty)}
    (hfound : found.map plainAll = candidates.map plainAll)
    (hresults :
      if returnsOmitted then candidates = [results] else results = returns) :
    ∃ own, (if returnsOmitted then found = [own] else own = returns) ∧
      sameAll own results = true := by
  cases returnsOmitted with
  | false => exact ⟨results, hresults, sameAll_refl results⟩
  | true =>
      simp only [if_true] at hresults ⊢
      rw [hresults, List.map_singleton, List.map_eq_singleton_iff] at hfound
      obtain ⟨own, rfl, hown⟩ := hfound
      exact ⟨own, rfl, (sameAll_iff_plainAll own results).2 hown⟩

/-! ## Trees -/

mutual

theorem Expr.check_of_hasTypes :
    (expression : Expr) → ∀ {globals locals : Context} {types : List Ty}
          {table : SymbolTable} (line : Nat) (bound : Bool),
        HasTypes globals locals expression types →
        table.Represents globals locals →
        ∃ new found after,
          (expression.check line bound).Yields table (new, found) after ∧
          sameAll found types = true
  | .int value => by
      intro line bound h htable
      cases h
      exact ⟨_, _, _, rfl, sameAll_refl _⟩
  | .float value => by
      intro line bound h htable
      cases h
      exact ⟨_, _, _, rfl, sameAll_refl _⟩
  | .string value => by
      intro line bound h htable
      cases h
      exact ⟨_, _, _, rfl, sameAll_refl _⟩
  | .bool value => by
      intro line bound h htable
      cases h
      exact ⟨_, _, _, rfl, sameAll_refl _⟩
  | .reference target => by
      intro line bound h htable
      cases h with
      | reference hname =>
          obtain ⟨found, hfound, hsame⟩ := htable.lookup hname
          exact ⟨_, [found], _,
            Expr.check_reference_iff.2 ⟨found, hfound, rfl, rfl⟩,
            by simpa [sameAll]⟩
  | .operator op operandType? left right => by
      intro line bound h htable
      cases h with
      | @operator _ _ _ _ _ base haccepts hleft hright =>
          obtain ⟨newLeft, _, middle, hyields, hsame⟩ :=
            left.check_of_hasTypes line false hleft htable
          rw [sameAll_primitive_iff] at hsame
          subst hsame
          have hscopes := (left.relates_check _ _).of_yields hyields
          obtain ⟨newRight, _, after, hothers, hsame⟩ :=
            right.check_of_hasTypes line false hright (htable.of_sameScopes hscopes)
          rw [sameAll_primitive_iff] at hsame
          subst hsame
          have hoperand : Rule.operand op [.primitive base] [.primitive base] =
              .ok (.primitive base) :=
            Rule.operand_eq_ok_iff.2 ⟨base, haccepts, rfl, rfl, rfl⟩
          exact ⟨_, _, after,
            Expr.check_operator_iff.2 ⟨newLeft, _, middle, newRight, _, _, hyields,
              hothers, hoperand, rfl⟩,
            sameAll_refl _⟩
  | .conditional condition thenBranch elseBranch returns => by
      intro line bound h htable
      cases h with
      | conditional hcondition hthen helse hsame hconcrete =>
          obtain ⟨newCondition, _, first, hfirst, hbool⟩ :=
            condition.check_of_hasTypes line false hcondition htable
          rw [Ty.bool, sameAll_primitive_iff] at hbool
          subst hbool
          have htable :=
            htable.of_sameScopes ((condition.relates_check _ _).of_yields hfirst)
          obtain ⟨newThen, thenTypes, second, hsecond, hthenSame⟩ :=
            thenBranch.check_of_hasTypes line false hthen htable
          have htable :=
            htable.of_sameScopes ((thenBranch.relates_check _ _).of_yields hsecond)
          obtain ⟨newElse, elseTypes, after, hthird, helseSame⟩ :=
            elseBranch.check_of_hasTypes line false helse htable
          have hbranches : Rule.Branches [.bool] thenTypes elseTypes thenTypes :=
            ⟨rfl,
              sameAll_trans hthenSame
                (sameAll_trans hsame (sameAll_symm helseSame)),
              anyHasHole_eq_of_sameAll (sameAll_symm hthenSame) hconcrete, rfl⟩
          exact ⟨_, thenTypes, after,
            Expr.check_conditional_iff.2 ⟨newCondition, _, first, newThen, _,
              second, newElse, _, _, hfirst, hsecond, hthird, hbranches, rfl⟩,
            hthenSame⟩
  | .array elementType? elements => by
      intro line bound h htable
      cases h with
      | @array _ _ _ type types helements hsame =>
          obtain ⟨newElements, found, after, hyields, hfound⟩ :=
            Expr.checkArguments_of_eachHasType elements line helements htable
          have hnonempty : elements ≠ [] := by
            rintro rfl
            cases helements
          match found with
          | [] => simp [sameAll] at hfound
          | first :: others =>
              simp only [sameAll, Bool.and_eq_true] at hfound
              have hothers : ∀ other ∈ first :: others,
                  first.same other = true := by
                intro other hother
                rcases List.mem_cons.1 hother with rfl | hother
                · exact same_refl other
                · exact same_trans hfound.1
                    (same_of_mem_of_sameAll hfound.2 hsame other hother)
              refine ⟨_, _, after,
                Expr.check_array_iff.2 ⟨hnonempty, newElements, some first,
                  Expr.checkElements_iff.2 ⟨_, hyields, rfl, ?_⟩, rfl⟩,
                ?_⟩
              · intro expected hexpected
                obtain rfl := Option.some.inj hexpected
                exact hothers
              · simpa [sameAll, same] using hfound.1
  | .apply callee arguments returns => by
      intro line bound h htable
      cases h with
      | @apply _ _ _ _ parameters results actuals index substitution hcallee
          harguments hsame hbound =>
          obtain ⟨newArguments, found, middle, hyields, hfound⟩ :=
            Expr.checkArguments_of_eachHasType arguments line harguments htable
          have htable := htable.of_sameScopes ((Expr.relates_checkArguments _
            _).of_yields hyields)
          obtain ⟨newCallee, _, after, hcalleeYields, hcalleeSame⟩ :=
            callee.check_of_hasTypes line false hcallee htable
          obtain ⟨_, rfl, hfunction⟩ := exists_of_sameAll_singleton hcalleeSame
          obtain ⟨ownParameters, ownResults, ownIndex, rfl, hparameters,
              hresults⟩ :=
            exists_of_same_function hfunction
          have hown :
              sameAll (instantiateAll substitution ownParameters) found = true :=
            sameAll_trans (sameAll_instantiateAll substitution hparameters)
              (sameAll_trans hsame (sameAll_symm hfound))
          have hownBound : ∀ name ∈ holesAll ownResults,
              name ∈ holesAll ownParameters := by
            rw [holesAll_eq_of_sameAll hparameters, holesAll_eq_of_sameAll hresults]
            exact hbound
          obtain ⟨types, happlication, htypes⟩ :=
            Rule.application_complete ownIndex hown hownBound
          exact ⟨_, types, after,
            Expr.check_apply_iff.2 ⟨newArguments, found, middle, newCallee, _,
              types, hyields, hcalleeYields, happlication, rfl⟩,
            sameAll_trans htypes (sameAll_instantiateAll substitution hresults)⟩
  | .function arguments returns returnsOmitted body signature? => by
      intro line bound h htable
      cases h with
      | @function _ _ _ _ types results _ _ _ candidates htypes hbody hresults =>
          obtain ⟨newBody, found, inner, hyields, hfound, -⟩ :=
            Statement.checkAll_of_executesAll body hbody
              (by simp [SymbolTable.enter]) (htable.enter _)
          obtain ⟨own, hown, hsame⟩ :=
            exists_returns_of_map_plainAll hfound hresults
          exact ⟨_, _, _, Expr.check_function_iff.2
            ⟨types, newBody, found, inner, own, htypes, hyields, hown, rfl, rfl⟩,
            by simp [sameAll, same, hsame]⟩

theorem Expr.checkArguments_of_eachHasType :
    (arguments : List Expr) → ∀ {globals locals : Context} {types : List Ty}
          {table : SymbolTable} (line : Nat),
        EachHasType globals locals arguments types →
        table.Represents globals locals →
        ∃ new found after,
          (Expr.checkArguments line arguments).Yields table (new, found) after ∧
          sameAll found types = true
  | [] => by
      intro line h htable
      cases h
      exact ⟨_, _, _, Expr.checkArguments_nil_iff.2 ⟨rfl, rfl⟩, sameAll_refl _⟩
  | argument :: arguments => by
      intro line h htable
      cases h with
      | cons hfirst hconcrete hothers =>
          obtain ⟨newArgument, _, middle, hyields, hsame⟩ :=
            argument.check_of_hasTypes line false hfirst htable
          obtain ⟨type, rfl, htype⟩ := exists_of_sameAll_singleton hsame
          have htable :=
            htable.of_sameScopes ((argument.relates_check _ _).of_yields hyields)
          obtain ⟨newArguments, types, after, hothersYields, htypes⟩ :=
            Expr.checkArguments_of_eachHasType arguments line hothers htable
          have hconcrete : type.hasHole = false := by
            rwa [hasHole_eq_false_iff, holes_eq_of_same htype,
              ← hasHole_eq_false_iff]
          exact ⟨_, _, after,
            Expr.checkArguments_cons_iff.2 ⟨newArgument, type, middle, newArguments,
              types, hyields, hconcrete, hothersYields, rfl⟩,
            by simp [sameAll, htype, htypes]⟩

theorem Expr.checkResults_of_gives :
    (expressions : List Expr) → ∀ {globals locals : Context} {types : List Ty}
          {table : SymbolTable} (line : Nat),
        Gives globals locals expressions types →
        table.Represents globals locals →
        ∃ new found after,
          (Expr.checkResults line expressions).Yields table (new, found) after ∧
          sameAll found types = true
  | [] => by
      intro line h htable
      cases h
      exact ⟨_, _, _, Expr.checkResults_nil_iff.2 ⟨rfl, rfl⟩, sameAll_refl _⟩
  | expression :: expressions => by
      intro line h htable
      cases h with
      | cons hfirst hconcrete hothers =>
          obtain ⟨newExpression, types, middle, hyields, hsame⟩ :=
            expression.check_of_hasTypes line false hfirst htable
          have htable :=
            htable.of_sameScopes ((expression.relates_check _ _).of_yields hyields)
          obtain ⟨newExpressions, others, after, hothersYields, hothersSame⟩ :=
            Expr.checkResults_of_gives expressions line hothers htable
          exact ⟨_, _, after,
            Expr.checkResults_cons_iff.2 ⟨newExpression, types, middle,
              newExpressions, others, hyields,
              anyHasHole_eq_of_sameAll (sameAll_symm hsame) hconcrete,
              hothersYields, rfl⟩,
            sameAll_append hsame hothersSame⟩

theorem Statement.check_of_executes :
    (statement : Statement) → ∀ {globals locals after : Context}
          {types? : Option (List Ty)} {table : SymbolTable},
        Executes globals locals statement types? after →
        table.frames ≠ [] → table.Represents globals locals →
        ∃ new found? final,
          (statement.check true).Yields table (new, found?) final ∧
          found?.map plainAll = types?.map plainAll ∧ final.Represents globals after
  | .assign targets value line => by
      intro h hframes htable
      cases h with
      | assign hplain hvalue htargets =>
          obtain ⟨newValue, found, middle, hyields, hfound⟩ :=
            value.check_of_hasTypes line (targets.length = 1) hvalue htable
          have hscopes := (value.relates_check _ _).of_yields hyields
          obtain ⟨final, hall, hfinal⟩ := htargets.assignedAll
            (hscopes.frames_eq ▸ hframes) (htable.of_sameScopes hscopes) hfound
          exact ⟨_, none, final,
            Statement.check_assign_iff.2 (.inr ⟨newValue, found, middle, hplain,
              hyields, hall, rfl⟩),
            rfl, hfinal⟩
      | @recursive _ _ target arguments types returns body signature? _ hrefers
          htarget hvalue =>
          obtain ⟨middle, hall, hmiddle⟩ :=
            htarget.assignedAll hframes htable (sameAll_refl _)
          obtain ⟨newValue, valueTypes, final, hyields, -⟩ :=
            Expr.check_of_hasTypes
              (.function arguments returns false body signature?) line true hvalue
              hmiddle
          have hfinal :=
            hmiddle.of_sameScopes ((Expr.relates_check _ _ _).of_yields hyields)
          cases hvalue with
          | function htypes _ _ =>
              exact ⟨_, none, final,
                Statement.check_assign_iff.2 (.inl ⟨target, arguments, types,
                  returns, body, signature?, middle, newValue, valueTypes, rfl, rfl,
                  hrefers, htypes, hall, hyields, rfl⟩),
                rfl, hfinal⟩
  | .result expressions line => by
      intro h hframes htable
      cases h with
      | result hexpressions =>
          obtain ⟨new, found, final, hyields, hsame⟩ :=
            Expr.checkResults_of_gives expressions line hexpressions htable
          refine ⟨_, some found, final,
            Statement.check_result_iff.2 ⟨rfl, new, found, hyields, rfl⟩, ?_,
            htable.of_sameScopes
              ((Expr.relates_checkResults _ _).of_yields hyields)⟩
          rw [Option.map_some, Option.map_some, (sameAll_iff_plainAll _ _).1 hsame]

theorem Statement.checkAll_of_executesAll :
    (statements : List Statement) →
      ∀ {globals locals after : Context} {candidates : List (List Ty)}
          {table : SymbolTable},
        ExecutesAll globals locals statements candidates after → table.frames ≠ [] →
        table.Represents globals locals →
        ∃ new found final,
          (Statement.checkAll true statements).Yields table (new, found) final ∧
          found.map plainAll = candidates.map plainAll ∧
          final.Represents globals after
  | [] => by
      intro h hframes htable
      cases h
      exact ⟨_, _, _, Statement.checkAll_nil_iff.2 ⟨rfl, rfl⟩, rfl, htable⟩
  | statement :: statements => by
      intro h hframes htable
      cases h with
      | cons hfirst hothers =>
          obtain ⟨newStatement, found?, middle, hyields, hfound, hmiddle⟩ :=
            statement.check_of_executes hfirst hframes htable
          have hframes :=
            ((statement.relates_check _).of_yields hyields).frames_ne_nil hframes
          obtain ⟨newStatements, others, final, hothersYields, hothersFound,
              hfinal⟩ :=
            Statement.checkAll_of_executesAll statements hothers hframes hmiddle
          refine ⟨_, _, final,
            Statement.checkAll_cons_iff.2 ⟨newStatement, found?, middle,
              newStatements, others, hyields, hothersYields, rfl⟩,
            ?_, hfinal⟩
          simp only [List.map_append, hothersFound, ← Option.toList_map, hfound]

end

/-! ## Both directions -/

/-- On any table, what checking gives for an expression are types by the rules, and
wherever the rules give types checking succeeds with the same ones.  The contexts
are those of the globals and of the innermost frame. -/
theorem Expr.check_agrees_with_rules (expression : Expr) (line : Nat) (bound : Bool)
    (table : SymbolTable) :
    (∀ new types after,
        (expression.check line bound).Yields table (new, types) after →
        HasTypes table.globalTypes table.localTypes expression types) ∧
      (∀ types, HasTypes table.globalTypes table.localTypes expression types →
        ∃ new found after,
          (expression.check line bound).Yields table (new, found) after ∧
          sameAll found types = true) := by
  constructor
  · intro new types after h
    exact expression.hasTypes_of_check h
  · intro types h
    exact expression.check_of_hasTypes line bound h ⟨.refl _, .refl _⟩

theorem Expr.check_length_agrees_with_rules :
    (∃ new after,
        ((Expr.apply (.named "length") [.array none [.int 1, .int 2]] []).check 1
          true).Yields .empty (new, [.int]) after) ∧
      HasTypes .empty .empty
        (.apply (.named "length") [.array none [.int 1, .int 2]] []) [.int] ∧
      ∃ new found after,
        ((Expr.apply (.named "length") [.array none [.int 1, .int 2]] []).check 1
          true).Yields .empty (new, found) after ∧
        sameAll found [.int] = true := by
  have htypes : HasTypes .empty .empty
      (.apply (.named "length") [.array none [.int 1, .int 2]] []) [.int] :=
    (Expr.check_agrees_with_rules
      (.apply (.named "length") [.array none [.int 1, .int 2]] []) 1 true .empty).1
      _ [.int] _ rfl
  exact ⟨⟨_, _, rfl⟩, htypes,
    (Expr.check_agrees_with_rules _ 1 true .empty).2 _ htypes⟩

end ExprLang
