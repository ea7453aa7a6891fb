import ExprLang.Proofs.Outcome
import ExprLang.Proofs.Tree.ReadBack
import ExprLang.Proofs.Window.Unlined

/-!
# Trees without lines

The tree of tokens without lines is the tree of the tokens, without lines, and
likewise for the error: no step of the parser looks at a line.
-/

namespace ExprLang

open Outcome

/-! ## Errors -/

def ParseError.unlined : ParseError → ParseError
  | .illegalCharacter _ character => .illegalCharacter 0 character
  | .unexpected _ found expected => .unexpected 0 found expected
  | .invalidToken _ token => .invalidToken 0 token
  | .unbalanced _ bracket => .unbalanced 0 bracket
  | .emptyExpression _ => .emptyExpression 0
  | .branchCount _ found => .branchCount 0 found
  | .undeclaredReturns _ => .undeclaredReturns 0
  | .unknownTypeName name => .unknownTypeName name
  | .floatText text fault => .floatText text fault
  | .notOperator kind => .notOperator kind
  | .noPieces => .noPieces
  | .noArgumentList => .noArgumentList
  | .noBody => .noBody

theorem describeHead_unlined (whenEmpty : String) (tokens : List Token) :
    describeHead whenEmpty (tokens.map Token.unlined) =
      describeHead whenEmpty tokens := by
  cases tokens <;> rfl

/-! ## Types and variables -/

namespace FunctionTypeCut

def unlined (cut : FunctionTypeCut) : FunctionTypeCut :=
  ⟨cut.arguments.map Token.unlined, cut.returns.map Token.unlined,
    cut.rest.map Token.unlined⟩

private theorem ofTokens?_unlined (tokens : List Token) :
    ofTokens? (tokens.map Token.unlined) = (ofTokens? tokens).map unlined := by
  unfold ofTokens?
  rw [Enclosed.ofBracket?_unlined]
  cases Enclosed.ofBracket? .paren tokens with
  | none => rfl
  | some arguments =>
      obtain ⟨inner, closer, rest⟩ := arguments
      cases rest with
      | nil => rfl
      | cons arrow afterArrow =>
          by_cases harrow : arrow.kind = .arrow
          · simp only [Option.map_some, Option.bind_eq_bind, Option.bind_some,
              Enclosed.unlined, List.map_cons, Token.kind_unlined,
              Enclosed.ofBracket?_unlined, harrow, ne_eq, not_true, if_false]
            cases Enclosed.ofBracket? .paren afterArrow <;> rfl
          · simp only [Option.map_some, Option.bind_eq_bind, Option.bind_some,
              Enclosed.unlined, List.map_cons, Token.kind_unlined, harrow, ne_eq,
              not_false_iff, if_true, Option.map_none]

end FunctionTypeCut

namespace TypeLiteral

def unlinedRead (found? : Option (Ty × List Token)) : Option (Ty × List Token) :=
  found?.map fun found => (found.1, found.2.map Token.unlined)

theorem read_unlined :
    (∀ tokens, read (tokens.map Token.unlined) =
        mapBoth ParseError.unlined unlinedRead (read tokens)) ∧
      ∀ pieces, readPieces (pieces.map (List.map Token.unlined)) =
        mapBoth ParseError.unlined id (readPieces pieces) := by
  refine TypeLiteral.read.mutual_induct
    (fun tokens => read (tokens.map Token.unlined) =
      mapBoth ParseError.unlined unlinedRead (read tokens)) (fun pieces =>
      readPieces (pieces.map (List.map Token.unlined)) =
        mapBoth ParseError.unlined id (readPieces pieces))
    ?_ ?_ ?_ ?_ ?_ ?_ ?_ ?_ ?_
  · simp [read, unlinedRead]
  · intro token rest hkind primitive hname
    rw [List.map_cons, read, read]
    simp only [Token.kind_unlined, Token.text_unlined, hkind, hname]
    rfl
  · intro token rest hkind hname
    rw [List.map_cons, read, read]
    simp only [Token.kind_unlined, Token.text_unlined, hkind, hname]
    rfl
  · intro token rest hkind ih
    rw [List.map_cons, read, read]
    simp only [Token.kind_unlined, hkind, ih]
    refine mapBoth_bind fun found => ?_
    cases found with
    | none =>
        rw [describeHead_unlined]
        rfl
    | some pair => rfl
  · intro token rest hcut htypeName harrayMark
    have hunlined : FunctionTypeCut.ofTokens? (token.unlined ::
          rest.map Token.unlined) = none :=
      (FunctionTypeCut.ofTokens?_unlined (token :: rest)).trans (congrArg _ hcut)
    rw [read_eq_cut htypeName harrayMark, hcut, List.map_cons,
      read_eq_cut (show token.unlined.kind ≠ .typeName from htypeName) harrayMark,
      hunlined]
    rfl
  · intro token rest cut hcut htypeName harrayMark iharguments ihreturns
    have hunlined : FunctionTypeCut.ofTokens? (token.unlined ::
          rest.map Token.unlined) = some cut.unlined :=
      (FunctionTypeCut.ofTokens?_unlined (token :: rest)).trans (congrArg _ hcut)
    rw [read_eq_cut htypeName harrayMark, hcut, List.map_cons,
      read_eq_cut (show token.unlined.kind ≠ .typeName from htypeName) harrayMark,
      hunlined]
    simp only [Option.elim_some, FunctionTypeCut.unlined, Comma.pieces_unlined,
      iharguments, ihreturns]
    exact mapBoth_bind fun arguments => mapBoth_bind fun returns => rfl
  · simp [readPieces]
  · intro pieces ih
    rw [List.map_cons, List.map_nil, readPieces, readPieces, ih]
  · intro first others pieces ihFirst ih
    rw [List.map_cons, List.map_cons, readPieces, readPieces]
    rw [List.map_cons] at ihFirst
    rw [ihFirst, ih]
    refine mapBoth_bind fun found => ?_
    cases found with
    | none => rfl
    | some pair =>
        obtain ⟨type, after⟩ := pair
        cases after with
        | nil => exact mapBoth_bind fun types => rfl
        | cons extra others => rfl

private theorem readList_unlined (tokens : List Token) :
    readList (tokens.map Token.unlined) =
      mapBoth ParseError.unlined id (readList tokens) := by
  rw [readList, Comma.pieces_unlined]
  exact read_unlined.2 (Comma.pieces tokens)

end TypeLiteral

namespace VariableList

private theorem declaredType_unlined (name : Token) (rest : List Token) :
    declaredType name.unlined (rest.map Token.unlined) =
      mapBoth ParseError.unlined (fun found => (found.1, found.2.map Token.unlined))
        (declaredType name rest) := by
  have hcolon : (rest.map Token.unlined).head?.any (·.kind = .colon) =
      rest.head?.any (·.kind = .colon) := by
    cases rest <;> rfl
  have hafter (colon : Bool) :
      (if colon then (rest.map Token.unlined).tail else rest.map Token.unlined) =
        (if colon then rest.tail else rest).map Token.unlined := by
    cases colon
    · rfl
    · exact List.map_tail.symm
  simp only [declaredType, hcolon, hafter, TypeLiteral.read_unlined.1,
    describeHead_unlined]
  generalize rest.head?.any (·.kind = .colon) = colon
  cases TypeLiteral.read (if colon then rest.tail else rest) with
  | error error => rfl
  | ok found =>
      cases found with
      | some pair => rfl
      | none => cases colon <;> rfl

private theorem read_of_error {name : Token} {rest : List Token}
    {error : ParseError} (hname : name.kind = .identifier)
    (herror : declaredType name rest = .error error) :
    read (name :: rest) = .error error := by
  rw [read, if_neg (by simp [hname])]
  split <;> simp_all

theorem read_unlined (tokens : List Token) :
    read (tokens.map Token.unlined) =
      mapBoth ParseError.unlined id (read tokens) := by
  have hidentifier {name : Token} (h : ¬ name.kind ≠ .identifier) :
      name.unlined.kind = .identifier :=
    Decidable.not_not.1 h
  have hdeclared {name : Token} {rest after : List Token} {type? : Option Ty}
      (h : declaredType name rest = .ok (type?, after)) :
      declaredType name.unlined (rest.map Token.unlined) =
        .ok (type?, after.map Token.unlined) := by
    rw [declaredType_unlined, h]
    rfl
  fun_induction read tokens with
  | case1 => simp [read]
  | case2 name rest hname =>
      rw [List.map_cons, read]
      exact if_pos hname
  | case3 name rest hname error htype =>
      refine read_of_error (hidentifier hname) ?_
      rw [declaredType_unlined, htype]
      rfl
  | case4 name rest hname type? htype =>
      exact read_cons (hidentifier hname) (hdeclared htype)
  | case5 name rest hname type? comma others htype hcomma =>
      exact (read_cons (hidentifier hname) (hdeclared htype)).trans (if_pos hcomma)
  | case6 name rest hname type? comma others htype hcomma hothers =>
      have hothers : (others.map Token.unlined).isEmpty := by rwa [List.isEmpty_map]
      refine (read_cons (hidentifier hname) (hdeclared htype)).trans ?_
      exact (if_neg hcomma).trans (if_pos hothers)
  | case7 name rest hname type? comma others htype hcomma hothers ih =>
      have hothers : ¬ (others.map Token.unlined).isEmpty := by
        rwa [List.isEmpty_map]
      refine (read_cons (hidentifier hname) (hdeclared htype)).trans ?_
      refine ((if_neg hcomma).trans (if_neg hothers)).trans ?_
      rw [ih]
      exact mapBoth_map fun targets => rfl

end VariableList

/-! ## Trees -/

mutual

/-- The expression with every line in it zero. -/
def Expr.unlined : Expr → Expr
  | .reference target => .reference target
  | .function arguments returns returnsOmitted body signature? =>
      .function arguments returns returnsOmitted
        (Statement.unlinedAll body) signature?
  | .apply callee arguments returns =>
      .apply callee.unlined (Expr.unlinedAll arguments) returns
  | .conditional condition thenBranch elseBranch returns =>
      .conditional condition.unlined thenBranch.unlined elseBranch.unlined returns
  | .int value => .int value
  | .float value => .float value
  | .string value => .string value
  | .bool value => .bool value
  | .operator op operandType? left right =>
      .operator op operandType? left.unlined right.unlined
  | .array elementType? elements => .array elementType? (Expr.unlinedAll elements)

def Expr.unlinedAll : List Expr → List Expr
  | [] => []
  | expression :: expressions => expression.unlined :: Expr.unlinedAll expressions

def Statement.unlined : Statement → Statement
  | .assign targets value _ => .assign targets value.unlined 0
  | .result expressions _ => .result (Expr.unlinedAll expressions) 0

def Statement.unlinedAll : List Statement → List Statement
  | [] => []
  | statement :: statements => statement.unlined :: Statement.unlinedAll statements

end

def Program.unlined (program : Program) : Program :=
  ⟨Statement.unlinedAll program.statements⟩

/-! ## Drafts -/

def Window.unlined (window : Window) : Window :=
  ⟨window.tokens.map Token.unlined, 0⟩

theorem Window.map_unlined (line : Nat) (pieces : List (List Token)) :
    (pieces.map (Window.mk · line)).map Window.unlined =
      (pieces.map (List.map Token.unlined)).map (Window.mk · 0) := by
  rw [List.map_map, List.map_map]
  rfl

namespace Draft

def unlined : Draft → Draft
  | .assign targets value _ => .assign targets value.unlined 0
  | .result expressions _ => .result (expressions.map Window.unlined) 0

def unlinedSides (sides : List Token × List Token) : List Token × List Token :=
  (sides.1.map Token.unlined, sides.2.map Token.unlined)

private theorem leftSide_unlined (endLine : Nat) (tokens : List Token) :
    leftSide 0 (tokens.map Token.unlined) =
      mapBoth ParseError.unlined unlinedSides (leftSide endLine tokens) := by
  induction tokens with
  | nil => rfl
  | cons token rest ih =>
      rw [List.map_cons, leftSide, leftSide, Token.kind_unlined]
      split
      · rfl
      split
      · rfl
      split
      · rfl
      · rw [ih]
        exact mapBoth_map fun sides => rfl

private theorem logicalLine_unlined (endLine braces : Nat) (tokens : List Token) :
    logicalLine 0 braces (tokens.map Token.unlined) =
      mapBoth ParseError.unlined unlinedSides
        (logicalLine endLine braces tokens) := by
  induction tokens generalizing braces with
  | nil => cases braces <;> rfl
  | cons token rest ih =>
      have continued (braces : Nat) :
          (logicalLine 0 braces (rest.map Token.unlined)).map (fun sides =>
              (token.unlined :: sides.1, sides.2)) =
            mapBoth ParseError.unlined unlinedSides
              ((logicalLine endLine braces rest).map fun sides =>
                (token :: sides.1, sides.2)) := by
        rw [ih]
        exact mapBoth_map fun sides => rfl
      rw [List.map_cons, logicalLine, logicalLine, Token.kind_unlined]
      split
      · rfl
      split
      · split
        · rfl
        · exact continued _
      split
      · exact continued _
      split
      · split
        · rfl
        · exact continued _
      · exact continued _

private theorem read_unlined (endLine : Nat) (first : Token) (rest : List Token) :
    read 0 first.unlined (rest.map Token.unlined) =
      mapBoth ParseError.unlined
        (fun found => (found.1.unlined, found.2.map Token.unlined))
        (read endLine first rest) := by
  rw [read, read, Token.kind_unlined]
  split
  · rw [leftSide_unlined endLine]
    refine mapBoth_bind fun sides => ?_
    have htargets := VariableList.read_unlined (first :: sides.1)
    rw [List.map_cons] at htargets
    simp only [unlinedSides, htargets, logicalLine_unlined endLine]
    exact mapBoth_bind fun targets => mapBoth_bind fun line => rfl
  · rw [logicalLine_unlined endLine]
    refine mapBoth_bind fun line => ?_
    have hwindows := Window.map_unlined first.line (Comma.items line.1)
    simp only [unlinedSides, Comma.items_unlined, Token.line_unlined, ← hwindows]
    rfl
  · rfl
  · rfl

end Draft

namespace Drafts

def unlined (drafts : Drafts) : Drafts :=
  ⟨drafts.statements.map Draft.unlined, drafts.failure?.map ParseError.unlined⟩

private theorem ofTokens_unlined (endLine : Nat) (tokens : List Token) :
    ofTokens 0 (tokens.map Token.unlined) = (ofTokens endLine tokens).unlined := by
  fun_induction ofTokens endLine tokens with
  | case1 =>
      rw [List.map_nil, ofTokens]
      rfl
  | case2 token rest hkind ih =>
      rw [List.map_cons, ofTokens, ← ih]
      exact if_pos hkind
  | case3 token rest hkind error hread =>
      have hunlined : Draft.read 0 token.unlined (rest.map Token.unlined) =
          .error error.unlined := by
        rw [Draft.read_unlined endLine, hread]
        rfl
      exact ofTokens_of_error hkind hunlined
  | case4 token rest hkind draft after hread later ih =>
      have hunlined : Draft.read 0 token.unlined (rest.map Token.unlined) =
          .ok (draft.unlined, after.map Token.unlined) := by
        rw [Draft.read_unlined endLine, hread]
        rfl
      refine (ofTokens_cons (show token.unlined.kind ≠ .newline from
        hkind) hunlined).trans ?_
      rw [ih]
      rfl

end Drafts

private theorem Listed.collect_unlined (tokens : List Token) (endLine : Nat) :
    TokenStream.collect (Listed.mk (tokens.map Token.unlined) 0) =
      ((TokenStream.tokens (Listed.mk tokens endLine)).map Token.unlined, 0) := by
  induction tokens with
  | nil =>
      rw [TokenStream.tokens, TokenStream.collect_of_eof rfl,
        TokenStream.collect_of_eof rfl]
      rfl
  | cons token rest ih =>
      by_cases hkind : token.kind = .eof
      · have hcollect : TokenStream.collect (Listed.mk (token :: rest) endLine) =
            ([], token.line) :=
          TokenStream.collect_of_eof hkind
        rw [TokenStream.tokens, hcollect]
        exact TokenStream.collect_of_eof hkind
      · have hunlined : token.unlined.kind ≠ .eof := hkind
        rw [List.map_cons, collect_cons hunlined, TokenStream.tokens,
          TokenStream.tokens, TokenStream.endLine, collect_cons hkind, ih]
        rfl

theorem Drafts.ofStream_unlined (tokens : List Token) (endLine : Nat) :
    Drafts.ofStream (Listed.mk (tokens.map Token.unlined) 0) =
      (Drafts.ofStream (Listed.mk tokens endLine)).unlined := by
  rw [Drafts.ofStream, TokenStream.tokens, TokenStream.endLine,
    Listed.collect_unlined tokens endLine]
  exact Drafts.ofTokens_unlined _ _

/-! ## Forms -/

namespace Form

def unlined : Form → Form
  | .atom value => .atom value.unlined
  | .group inner => .group inner.unlined
  | .operator op left right => .operator op left.unlined right.unlined
  | .apply callee arguments => .apply callee.unlined (arguments.map Window.unlined)
  | .conditional condition thenBranch elseBranch =>
      .conditional condition.unlined thenBranch.unlined elseBranch.unlined
  | .array elements => .array (elements.map Window.unlined)
  | .function arguments returns returnsOmitted body =>
      .function arguments returns returnsOmitted body.unlined

private theorem checkBalance_unlined (tokens : List Token) :
    checkBalance (tokens.map Token.unlined) =
      mapBoth ParseError.unlined id (checkBalance tokens) := by
  rw [checkBalance, checkBalance, Depth.after_unlined]
  cases (Depth.zero.after tokens).uneven? with
  | none => rfl
  | some bracket => cases tokens <;> rfl

private theorem ofToken_unlined (token : Token) :
    ofToken token.unlined = mapBoth ParseError.unlined unlined (ofToken token) := by
  rw [ofToken, ofToken, Token.kind_unlined, Token.text_unlined]
  split
  · cases Number.int64? token.text <;> rfl
  · cases Number.float token.text <;> rfl
  all_goals rfl

private theorem ofOperator_unlined (split : Split) :
    ofOperator split.unlined =
      mapBoth ParseError.unlined unlined (ofOperator split) := by
  rw [ofOperator, ofOperator, Split.unlined, Token.kind_unlined]
  cases split.token.kind.operator? <;> rfl

private theorem ofApplication_unlined (line : Nat) (rest : List Token) :
    ofApplication 0 (rest.map Token.unlined) =
      mapBoth ParseError.unlined unlined (ofApplication line rest) := by
  simp only [ofApplication, Juxtaposed.pieces_unlined, List.isEmpty_map]
  split
  · rfl
  cases Juxtaposed.pieces rest with
  | nil => rfl
  | cons callee arguments =>
      simp only [List.map_cons, ← Window.map_unlined line]
      rfl

private theorem ofConditional_unlined (line : Nat) (rest : List Token) :
    ofConditional 0 (rest.map Token.unlined) =
      mapBoth ParseError.unlined unlined (ofConditional line rest) := by
  have hcount (pieces : List (List Token)) :
      (pieces.map (List.map Token.unlined)).countP (!·.isEmpty) =
        pieces.countP (!·.isEmpty) := by
    simp [List.countP_map, Function.comp_def]
  have hmiscounted (pieces : List (List Token)) :
      (.error
          (.branchCount 0
            ((pieces.map (List.map Token.unlined)).countP (!·.isEmpty))) :
          Except ParseError Form) =
        mapBoth ParseError.unlined unlined
          (.error (.branchCount line (pieces.countP (!·.isEmpty)))) := by
    rw [hcount]
    rfl
  rw [ofConditional, ofConditional, Split.atElse?_unlined]
  cases Split.atElse? rest with
  | none => rfl
  | some split =>
      simp only [Option.map_some, Split.unlined, Juxtaposed.pieces_unlined]
      rcases Juxtaposed.pieces split.left with _ |
        ⟨condition, _ | ⟨thenBranch, _ | ⟨extra, others⟩⟩⟩
      · exact hmiscounted []
      · exact hmiscounted [condition]
      · rfl
      · exact hmiscounted (condition :: thenBranch :: extra :: others)

private theorem bodyTokens_unlined (body : List Token) :
    bodyTokens (body.map Token.unlined) = (bodyTokens body).map Token.unlined := by
  cases body with
  | nil => rfl
  | cons first rest =>
      have hbreaks : ((first :: rest).map Token.unlined).any (·.kind = .newline) =
          (first :: rest).any (·.kind = .newline) := List.any_map
      rw [List.map_cons] at hbreaks
      rw [List.map_cons, bodyTokens, bodyTokens, hbreaks, Token.kind_unlined]
      split <;> rfl

private theorem ofFunction_unlined (line : Nat) (literal : FunctionLiteral) :
    ofFunction 0 literal.unlined =
      mapBoth ParseError.unlined unlined (ofFunction line literal) := by
  have hreturns : (literal.returns?.map (List.map Token.unlined)).elim (.ok [])
        TypeLiteral.readList =
      mapBoth ParseError.unlined id
        (literal.returns?.elim (.ok []) TypeLiteral.readList) := by
    cases literal.returns? with
    | none => rfl
    | some returns => exact TypeLiteral.readList_unlined returns
  have hbreaks : (literal.body.map Token.unlined).any (·.kind = .newline) =
      literal.body.any (·.kind = .newline) := List.any_map
  simp only [ofFunction, FunctionLiteral.unlined, hreturns,
    VariableList.read_unlined, hbreaks, Option.isNone_map, bodyTokens_unlined,
    Drafts.ofStream_unlined _ literal.lastLine]
  refine mapBoth_bind fun returns => mapBoth_bind fun arguments => ?_
  split <;> rfl

private theorem ofSpan_unlined (first : Token) (tokens : List Token) :
    ofSpan first.unlined (tokens.map Token.unlined) =
      mapBoth ParseError.unlined unlined (ofSpan first tokens) := by
  have hliteral :
      ((fun literal => literal.rest.isEmpty) ∘ FunctionLiteral.unlined) =
        fun literal => literal.rest.isEmpty := by
    funext literal
    exact List.isEmpty_map
  have henclosed : ((fun enclosed => enclosed.rest.isEmpty) ∘ Enclosed.unlined) =
      fun enclosed => enclosed.rest.isEmpty := by
    funext enclosed
    exact List.isEmpty_map
  simp only [ofSpan, Split.atOperator?_unlined, FunctionLiteral.ofTokens?_unlined,
    Enclosed.ofBracket?_unlined, Option.filter_map, hliteral, henclosed]
  cases Split.atOperator? tokens with
  | some split => exact ofOperator_unlined split
  | none =>
      cases hfound : (FunctionLiteral.ofTokens? tokens).filter (·.rest.isEmpty) with
      | some literal =>
          have hcut := (Option.filter_eq_some_iff.1 hfound).1
          have hcutUnlined : FunctionLiteral.ofTokens? (tokens.map Token.unlined) =
              some literal.unlined := by
            rw [FunctionLiteral.ofTokens?_unlined, hcut, Option.map_some]
          simp only [FunctionLiteral.cut_of_ofTokens? hcut,
            FunctionLiteral.cut_of_ofTokens? hcutUnlined, Option.map_some,
            Option.map_none]
          exact ofFunction_unlined first.line literal
      | none =>
          cases (Enclosed.ofBracket? .paren tokens).filter (·.rest.isEmpty) with
          | some enclosed => rfl
          | none =>
              cases (Enclosed.ofBracket? .square tokens).filter
                (·.rest.isEmpty) with
              | some enclosed =>
                  have hwindows :=
                    Window.map_unlined first.line (Comma.items enclosed.inner)
                  simp only [Option.map_none, Option.map_some, Enclosed.unlined,
                    Comma.items_unlined, Token.line_unlined, ← hwindows]
                  rfl
              | none =>
                  simp only [Option.map_none, Juxtaposed.unitLength_unlined,
                    ← List.map_drop, List.headD_map]
                  rfl

private theorem ofWindow_unlined (window : Window) :
    ofWindow window.unlined =
      mapBoth ParseError.unlined unlined (ofWindow window) := by
  obtain ⟨tokens, line⟩ := window
  cases tokens with
  | nil => rfl
  | cons first rest =>
      have hbalance := checkBalance_unlined (first :: rest)
      have hspan := ofSpan_unlined first (first :: rest)
      rw [List.map_cons] at hbalance hspan
      simp only [ofWindow, Window.unlined, List.map_cons, hbalance,
        List.isEmpty_map]
      refine mapBoth_bind fun balanced => ?_
      split
      · exact ofToken_unlined first
      rw [Token.kind_unlined]
      split
      · exact ofApplication_unlined _ _
      split
      · exact ofConditional_unlined _ _
      · exact hspan

end Form

/-! ## Parsing -/

section

variable {parse : Window → Except ParseError Expr}

def Window.ParsedUnlined (parse : Window → Except ParseError Expr)
    (window : Window) : Prop :=
  parse window.unlined = mapBoth ParseError.unlined Expr.unlined (parse window)

theorem Window.buildAll_unlined {windows : List Window}
    (h : ∀ window ∈ windows, window.ParsedUnlined parse) :
    Window.buildAll (windows.map Window.unlined) (fun window _ => parse window) =
      mapBoth ParseError.unlined Expr.unlinedAll
        (Window.buildAll windows fun window _ => parse window) := by
  induction windows with
  | nil => rfl
  | cons window windows ih =>
      have hfirst : parse window.unlined = _ := h window List.mem_cons_self
      have hothers := ih fun other hother => h other (List.mem_cons_of_mem _ hother)
      rw [List.map_cons, Window.buildAll, Window.buildAll, hfirst, hothers]
      exact mapBoth_bind fun expression => mapBoth_bind fun expressions => rfl

private theorem Draft.build_unlined {draft : Draft}
    (h : ∀ window ∈ draft.windows, window.ParsedUnlined parse) :
    draft.unlined.build (fun window _ => parse window) =
      mapBoth ParseError.unlined Statement.unlined
        (draft.build fun window _ => parse window) := by
  cases draft with
  | assign targets value line =>
      have hvalue : parse value.unlined = _ := h value List.mem_cons_self
      rw [Draft.unlined, Draft.build, Draft.build, hvalue]
      exact mapBoth_bind fun value => rfl
  | result expressions line =>
      have hexpressions := Window.buildAll_unlined h
      rw [Draft.windows] at hexpressions
      rw [Draft.unlined, Draft.build, Draft.build]
      show (Window.buildAll _ (fun window _ => parse window) >>= _) = _
      rw [hexpressions]
      exact mapBoth_bind fun expressions => rfl

private theorem Draft.buildAll_unlined {drafts : List Draft}
    (h : ∀ window ∈ drafts.flatMap Draft.windows, window.ParsedUnlined parse) :
    Draft.buildAll (drafts.map Draft.unlined) (fun window _ => parse window) =
      mapBoth ParseError.unlined Statement.unlinedAll
        (Draft.buildAll drafts fun window _ => parse window) := by
  induction drafts with
  | nil => rfl
  | cons draft drafts ih =>
      rw [List.flatMap_cons, List.forall_mem_append] at h
      rw [List.map_cons, Draft.buildAll, Draft.buildAll, Draft.build_unlined h.1,
        ih h.2]
      exact mapBoth_bind fun statement => mapBoth_bind fun statements => rfl

theorem Drafts.build_unlined {drafts : Drafts}
    (h : ∀ window ∈ drafts.windows, window.ParsedUnlined parse) :
    drafts.unlined.build (fun window _ => parse window) =
      mapBoth ParseError.unlined Statement.unlinedAll
        (drafts.build fun window _ => parse window) := by
  rw [Drafts.build, Drafts.build]
  show (Draft.buildAll (drafts.statements.map Draft.unlined)
        (fun window _ => parse window) >>=
      _) = _
  rw [Draft.buildAll_unlined h]
  refine mapBoth_bind fun statements => ?_
  rw [Drafts.unlined]
  cases drafts.failure? <;> rfl

private theorem Form.build_unlined {form : Form}
    (h : ∀ window ∈ form.windows, window.ParsedUnlined parse) :
    form.unlined.build (fun window _ => parse window) =
      mapBoth ParseError.unlined Expr.unlined
        (form.build fun window _ => parse window) := by
  cases form with
  | atom value => rfl
  | group inner => exact h inner List.mem_cons_self
  | operator op left right =>
      have hleft : parse left.unlined = _ := h left (by simp [windows])
      have hright : parse right.unlined = _ := h right (by simp [windows])
      rw [Form.unlined, Form.build, Form.build, hleft, hright]
      exact mapBoth_bind fun left => mapBoth_bind fun right => rfl
  | apply callee arguments =>
      rw [windows, List.forall_mem_cons] at h
      have hcallee : parse callee.unlined = _ := h.1
      rw [Form.unlined, Form.build, Form.build, hcallee,
        Window.buildAll_unlined h.2]
      exact mapBoth_bind fun callee => mapBoth_bind fun arguments => rfl
  | conditional condition thenBranch elseBranch =>
      have hcondition : parse condition.unlined = _ :=
        h condition (by simp [windows])
      have hthen : parse thenBranch.unlined = _ := h thenBranch (by simp [windows])
      have helse : parse elseBranch.unlined = _ := h elseBranch (by simp [windows])
      rw [Form.unlined, Form.build, Form.build, hcondition, hthen, helse]
      exact mapBoth_bind fun condition =>
        mapBoth_bind fun thenBranch => mapBoth_bind fun elseBranch => rfl
  | array elements =>
      have helements := Window.buildAll_unlined h
      rw [windows] at helements
      rw [Form.unlined, Form.build, Form.build]
      show (Window.buildAll _ (fun window _ => parse window) >>= _) = _
      rw [helements]
      exact mapBoth_bind fun elements => rfl
  | function arguments returns returnsOmitted body =>
      have hbody := Drafts.build_unlined h
      rw [Form.unlined, Form.build, Form.build]
      show (body.unlined.build (fun window _ => parse window) >>= _) = _
      rw [hbody]
      exact mapBoth_bind fun statements => rfl

end

private theorem Expr.ofWindow_unlined (window : Window) :
    window.ParsedUnlined Expr.ofWindow := by
  -- along the recursion of the parser: the form of a window is the same without
  -- lines, its parts by induction
  induction window using Expr.ofWindow.induct with
  | case1 window error herror =>
      have hunlined := Form.ofWindow_unlined window
      rw [herror] at hunlined
      rw [Window.ParsedUnlined, Expr.ofWindow_of_error herror]
      exact Expr.ofWindow_of_error hunlined
  | case2 window form hform ih =>
      have hunlined := Form.ofWindow_unlined window
      rw [hform] at hunlined
      rw [Window.ParsedUnlined, Expr.ofWindow_of_form hform]
      exact (Expr.ofWindow_of_form hunlined).trans (Form.build_unlined ih)

theorem Program.ofTokens_unlined (tokens : List Token) (endLine : Nat) :
    Program.ofTokens (tokens.map Token.unlined) 0 =
      mapBoth ParseError.unlined Program.unlined
        (Program.ofTokens tokens endLine) := by
  rw [Program.ofTokens, Program.ofTokens, Program.ofStream, Program.ofStream,
    Drafts.ofStream_unlined tokens endLine,
    Drafts.build_unlined fun window _ => Expr.ofWindow_unlined window]
  exact mapBoth_bind fun statements => rfl

end ExprLang
