import Mathlib.Data.List.TakeWhile
import ExprLang.Proofs.Tree.Built
import ExprLang.Proofs.Tree.RoundTrip
import ExprLang.Proofs.Tree.Spans

/-!
# Leaves

The leaves of a tree are its names, literals, operators and the primitive types that
it declares, from left to right.  Parsing keeps them: they are the tokens of these
kinds, each once and in the order of the text.
-/

namespace ExprLang

open Outcome

inductive Leaf where
  | name (text : String)
  | int (value : Int64)
  | float (value : Binary64)
  | string (text : String)
  | bool (value : Bool)
  | type (base : Primitive)
  | operator (op : Operator)
  deriving DecidableEq, Repr

/-- The kinds whose tokens a tree keeps; all others only group or separate. -/
def Kind.isLeaf : Kind → Bool
  | .identifier | .int | .float | .string | .bool | .typeName | .operator _ => true
  | _ => false

def Token.leaf? (token : Token) : Option Leaf :=
  match token.kind with
  | .identifier => some (.name token.text)
  | .int => (Number.int64? token.text).map .int
  | .float => (Number.float token.text).toOption.map .float
  | .string => some (.string token.text)
  | .bool => some (.bool (token.text = "true"))
  | .typeName => (Primitive.ofName? token.text).map .type
  | .operator op => some (.operator op)
  | _ => none

mutual

def Ty.leaves : Ty → List Leaf
  | .primitive base => [.type base]
  | .array element => element.leaves
  | .function arguments returns _ => Ty.leavesAll arguments ++ Ty.leavesAll returns
  | .hole _ => []

def Ty.leavesAll : List Ty → List Leaf
  | [] => []
  | type :: types => type.leaves ++ Ty.leavesAll types

end

def Variable.leaves (target : Variable) : List Leaf :=
  .name target.name :: target.type?.elim [] Ty.leaves

mutual

/-- Return types that were not declared are no leaves. -/
def Expr.leaves : Expr → List Leaf
  | .reference target => [.name target.name]
  | .function arguments returns returnsOmitted body _ =>
      arguments.flatMap Variable.leaves ++
        (if returnsOmitted then [] else Ty.leavesAll returns) ++
        Statement.leavesAll body
  | .apply callee arguments _ => callee.leaves ++ Expr.leavesAll arguments
  | .conditional condition thenBranch elseBranch _ =>
      condition.leaves ++ thenBranch.leaves ++ elseBranch.leaves
  | .int value => [.int value]
  | .float value => [.float value]
  | .string value => [.string value]
  | .bool value => [.bool value]
  | .operator op _ left right => left.leaves ++ .operator op :: right.leaves
  | .array _ elements => Expr.leavesAll elements

def Expr.leavesAll : List Expr → List Leaf
  | [] => []
  | expression :: expressions => expression.leaves ++ Expr.leavesAll expressions

def Statement.leaves : Statement → List Leaf
  | .assign targets value _ => targets.flatMap Variable.leaves ++ value.leaves
  | .result expressions _ => Expr.leavesAll expressions

def Statement.leavesAll : List Statement → List Leaf
  | [] => []
  | statement :: statements => statement.leaves ++ Statement.leavesAll statements

end

def Program.leaves (program : Program) : List Leaf :=
  Statement.leavesAll program.statements

/-! ## Spelling -/

/-- The tokens that a tree keeps are readable, and spell the leaves in order. -/
def Spells (tokens : List Token) (leaves : List Leaf) : Prop :=
  (tokens.filter (·.kind.isLeaf)).map Token.leaf? = leaves.map some

theorem spells_nil : Spells [] [] := rfl

theorem Spells.append {tokens others : List Token} {leaves otherLeaves : List Leaf}
    (h : Spells tokens leaves) (hothers : Spells others otherLeaves) :
    Spells (tokens ++ others) (leaves ++ otherLeaves) := by
  unfold Spells at h hothers ⊢
  rw [List.filter_append, List.map_append, List.map_append, h, hothers]

theorem Spells.mark {token : Token} {kind : Kind} {tokens : List Token}
    {leaves : List Leaf} (h : Spells tokens leaves) (hkind : token.kind = kind)
    (hmark : kind.isLeaf = false) :
    Spells (token :: tokens) leaves := by
  unfold Spells at h ⊢
  rw [List.filter_cons_of_neg (by simp [hkind, hmark]), h]

theorem spells_leaf {token : Token} {kind : Kind} {leaf : Leaf}
    (hkind : token.kind = kind) (hisLeaf : kind.isLeaf = true)
    (hleaf : token.leaf? = some leaf) :
    Spells [token] [leaf] := by
  simp [Spells, hkind, hisLeaf, hleaf]

theorem Bracketed.spells {bracket : Bracket} {inner tokens : List Token}
    {leaves : List Leaf} (h : Bracketed bracket inner tokens)
    (hinner : Spells inner leaves) :
    Spells tokens leaves := by
  cases h with
  | intro hopener hcloser =>
      have hall := (hinner.append (spells_nil.mark hcloser rfl)).mark hopener rfl
      rwa [List.append_nil] at hall

theorem Comma.Joins.spells {tokens : List Token} {pieces : List (List Token)}
    {leaves : List Leaf} (h : Joins tokens pieces)
    (hpieces : Spells pieces.flatten leaves) :
    Spells tokens leaves := by
  have hfilter :
      tokens.filter (·.kind.isLeaf) = pieces.flatten.filter (·.kind.isLeaf) := by
    clear hpieces
    induction h with
    | last piece => simp
    | cons piece hcomma _ ih =>
        rw [List.filter_append,
          List.filter_cons_of_neg (by simp [hcomma, Kind.isLeaf]), ih,
          List.flatten_cons, List.filter_append]
  rw [Spells, hfilter]
  exact hpieces

theorem Comma.spells_items {tokens : List Token} {leaves : List Leaf}
    (h : Spells (items tokens).flatten leaves) :
    Spells tokens leaves := by
  unfold items at h
  split at h
  · rename_i hempty
    rw [List.isEmpty_iff.1 hempty]
    exact h
  · exact (joins_pieces tokens).spells h

/-! ## Declarations -/

mutual

theorem TypeLiteral.Denotes.spells {tokens : List Token} {type : Ty} :
    Denotes tokens type → Spells tokens type.leaves
  | .primitive hkind hname =>
      spells_leaf hkind rfl (by simp [Token.leaf?, hkind, hname])
  | .array hkind h => h.spells.mark hkind rfl
  | .function hsource harrow htarget harguments hreturns => by
      have hfirst :=
        hsource.spells ((Comma.joins_pieces _).spells harguments.spells)
      have hsecond := htarget.spells ((Comma.joins_pieces _).spells hreturns.spells)
      exact hfirst.append (hsecond.mark harrow rfl)

theorem TypeLiteral.EachDenotes.spells {pieces : List (List Token)}
    {types : List Ty} :
    EachDenotes pieces types → Spells pieces.flatten (Ty.leavesAll types)
  | .nil => spells_nil
  | .skip h => h.spells
  | .cons hfirst h => hfirst.spells.append h.spells

end

namespace VariableList

private theorem Declares.spells {tokens : List Token} {target : Variable}
    (h : Declares tokens target) :
    Spells tokens target.leaves := by
  have hleaf {name : Token} (hname : name.kind = .identifier) :
      Spells [name] [.name name.text] :=
    spells_leaf hname rfl (by simp [Token.leaf?, hname])
  cases h with
  | plain hname => exact hleaf hname
  | typed hname htype => exact (hleaf hname).append htype.spells
  | annotated hname hcolon htype =>
      exact (hleaf hname).append (htype.spells.mark hcolon rfl)

theorem DeclaresAll.spells {tokens : List Token} {targets : List Variable}
    (h : DeclaresAll tokens targets) :
    Spells tokens (targets.flatMap Variable.leaves) := by
  induction h with
  | nil => exact spells_nil
  | last h => simpa using h.spells
  | cons hfirst hcomma _ ih => exact hfirst.spells.append (ih.mark hcomma rfl)

end VariableList

/-! ## Steps -/

def Window.Spelled (window : Window) (expression : Expr) : Prop :=
  Spells window.tokens expression.leaves

private theorem Window.spells_of_forall₂ {windows : List Window}
    {expressions : List Expr} (h : List.Forall₂ Spelled windows expressions) :
    Spells (windows.map Window.tokens).flatten (Expr.leavesAll expressions) := by
  induction h with
  | nil => exact spells_nil
  | cons hfirst _ ih => exact Spells.append hfirst ih

theorem Window.spells_pieces {pieces : List (List Token)} {line : Nat}
    {expressions : List Expr}
    (h : List.Forall₂ Spelled (pieces.map (⟨·, line⟩)) expressions) :
    Spells pieces.flatten (Expr.leavesAll expressions) := by
  simpa [Function.comp_def] using Window.spells_of_forall₂ h

private theorem Draft.Spans.spells {tokens : List Token} {draft : Draft}
    {statement : Statement} (h : Spans tokens draft)
    (hbuilds : draft.Builds Window.Spelled statement) :
    Spells tokens statement.leaves := by
  cases h with
  | assign value htargets hsign =>
      cases hbuilds with
      | assign hvalue =>
          have hright : Spells value _ := hvalue
          exact htargets.spells.append (hright.mark hsign rfl)
  | result values hword =>
      cases hbuilds with
      | result hexpressions =>
          exact
            (Comma.spells_items (Window.spells_pieces hexpressions)).mark hword rfl

private theorem Drafts.Spans.spells {tokens : List Token} {drafts : List Draft}
    {statements : List Statement} (h : Spans tokens drafts)
    (hbuilds : List.Forall₂ (Draft.Builds Window.Spelled) drafts statements) :
    Spells tokens (Statement.leavesAll statements) := by
  induction h generalizing statements with
  | nil =>
      cases hbuilds
      exact spells_nil
  | skip hnewline _ ih => exact (ih hbuilds).mark hnewline rfl
  | cons hfirst hends _ ih =>
      cases hbuilds with
      | cons hstatement hstatements =>
          have hafter := ih hstatements
          refine (hfirst.spells hstatement).append ?_
          cases hends with
          | last => exact hafter
          | line hnewline => exact hafter.mark hnewline rfl

/-- No token pretends to be the end of the text. -/
def EndFree (tokens : List Token) : Prop := ∀ token ∈ tokens, token.kind ≠ .eof

instance (tokens : List Token) : Decidable (EndFree tokens) :=
  inferInstanceAs (Decidable (∀ token ∈ tokens, token.kind ≠ .eof))

theorem EndFree.takeWhile {tokens : List Token} (h : EndFree tokens) :
    tokens.takeWhile (·.kind ≠ .eof) = tokens := by
  refine List.takeWhile_eq_self_iff.2 ?_
  intro token htoken
  simpa using h token htoken

theorem Drafts.Builds.spans {parsed : Window → Expr → Prop} {endLine : Nat}
    {tokens : List Token} {statements : List Statement}
    (hbuilds :
      (Drafts.ofStream (Listed.mk tokens endLine)).Builds parsed statements)
    (h : EndFree tokens) :
    Drafts.Spans tokens
      (Drafts.ofStream (Listed.mk tokens endLine)).statements := by
  obtain ⟨known, unknown, hspans, htokens, hall⟩ :=
    Drafts.exists_spans_ofTokens (TokenStream.endLine (Listed.mk tokens endLine))
      (TokenStream.tokens (Listed.mk tokens endLine))
  rw [Listed.tokens_eq_takeWhile, h.takeWhile, hall hbuilds.2,
    List.append_nil] at htokens
  rw [htokens]
  exact htokens ▸ hspans

theorem Drafts.Builds.spells {endLine : Nat} {tokens : List Token}
    {statements : List Statement}
    (hbuilds :
      (Drafts.ofStream (Listed.mk tokens endLine)).Builds Window.Spelled statements)
    (h : EndFree tokens) :
    Spells tokens (Statement.leavesAll statements) :=
  (hbuilds.spans h).spells hbuilds.1

namespace Form

theorem endFree_bodyTokens {body : List Token} (h : EndFree body) :
    EndFree (bodyTokens body) := by
  unfold bodyTokens
  split
  · exact h
  · split
    · exact h
    · intro token htoken
      rcases List.mem_cons.1 htoken with rfl | htoken
      · simp
      · exact h token htoken

private theorem spells_of_bodyTokens {body : List Token} {leaves : List Leaf}
    (h : Spells (bodyTokens body) leaves) :
    Spells body leaves := by
  unfold bodyTokens at h
  split at h
  · exact h
  · split at h
    · exact h
    · unfold Spells at h ⊢
      rwa [List.filter_cons_of_neg (by simp [Kind.isLeaf])] at h

private theorem spells_of_ofToken {token : Token} {value : Expr}
    (h : ofToken token = .ok (.atom value)) :
    Spells [token] value.leaves := by
  unfold ofToken at h
  split at h
  · rename_i hkind
    split at h <;> cases h
    rename_i hvalue
    exact spells_leaf hkind rfl (by simp [Token.leaf?, hkind, hvalue])
  · rename_i hkind
    split at h <;> cases h
    rename_i hvalue
    exact spells_leaf hkind rfl
      (by simp [Token.leaf?, hkind, hvalue, Except.toOption])
  · rename_i hkind
    cases h
    exact spells_leaf hkind rfl (by simp [Token.leaf?, hkind])
  · rename_i hkind
    cases h
    exact spells_leaf hkind rfl (by simp [Token.leaf?, hkind])
  · rename_i hkind
    cases h
    exact spells_leaf hkind rfl (by simp [Token.leaf?, hkind])
  · rename_i hkind
    cases h
    exact spells_nil.mark hkind rfl
  · cases h
  · cases h

private theorem spells_function {tokens : List Token} {literal : FunctionLiteral}
    {arguments : List Variable} {returns : List Ty} {statements : List Statement}
    (hliteral : literal.Spans tokens) (hrest : literal.rest = [])
    (hreturns :
      TypeLiteral.EachDenotes (literal.returns?.elim [] Comma.pieces) returns)
    (harguments : VariableList.DeclaresAll literal.arguments arguments)
    (hbody : Spells literal.body (Statement.leavesAll statements)) :
    Spells tokens (Expr.function arguments returns literal.returns?.isNone
        statements none).leaves := by
  have hblock {block : List Token} (h : Bracketed .brace literal.body block) :
      Spells (block ++ literal.rest) (Statement.leavesAll statements) := by
    rw [hrest, List.append_nil]
    exact h.spells hbody
  cases hliteral with
  | inferred rest hsource harrow hbraces =>
      have hright := (hblock hbraces).mark harrow rfl
      simpa [Expr.leaves] using (hsource.spells harguments.spells).append hright
  | declared rest hsource harrow htarget hbraces =>
      have htypes := htarget.spells ((Comma.joins_pieces _).spells hreturns.spells)
      have hright := (htypes.append (hblock hbraces)).mark harrow rfl
      simpa [Expr.leaves] using (hsource.spells harguments.spells).append hright

private theorem Spans.spells {tokens : List Token} {form : Form} {expression : Expr}
    (h : Spans tokens form) (hend : EndFree tokens)
    (hbuilds : form.Builds Window.Spelled expression) :
    Spells tokens expression.leaves := by
  cases h with
  | atom h =>
      cases hbuilds
      exact spells_of_ofToken h
  | group inner hopener hcloser =>
      cases hbuilds with
      | group hinner => exact (Bracketed.intro hopener hcloser).spells hinner
  | operator left right hkind =>
      cases hbuilds with
      | operator hleft hright =>
          have hop : Spells _ _ :=
            spells_leaf hkind rfl (by simp [Token.leaf?, hkind]; rfl)
          exact Spells.append hleft (Spells.append hop hright)
  | apply callee arguments hbang =>
      cases hbuilds with
      | apply hcallee harguments =>
          exact
            (Spells.append hcallee (Window.spells_pieces harguments)).mark hbang rfl
  | conditional condition thenBranch elseBranch hword hother =>
      cases hbuilds with
      | conditional hcondition hthen helse =>
          have hbranches :=
            (Spells.append hcondition hthen).append (Spells.mark helse hother rfl)
          exact hbranches.mark hword rfl
  | array inner hopener hcloser =>
      cases hbuilds with
      | array helements =>
          exact (Bracketed.intro hopener hcloser).spells
            (Comma.spells_items (Window.spells_pieces helements))
  | @function tokens literal arguments returns hliteral hrest hreturns harguments =>
      cases hbuilds with
      | function hbody =>
          have hbodyEnd : EndFree literal.body := fun token htoken =>
            hend token (hliteral.body_sublist.subset htoken)
          have hstatements :=
            spells_of_bodyTokens (hbody.spells (endFree_bodyTokens hbodyEnd))
          exact spells_function hliteral hrest hreturns harguments hstatements

end Form

/-! ## Parsing keeps the leaves -/

private theorem Expr.meets_spelled (window : Window) (h : EndFree window.tokens) :
    Meets (Expr.ofWindow window) window.Spelled (fun _ => True) := by
  have hstep (window : Window) (hend : EndFree window.tokens) :
      Meets (Form.ofWindow window)
        (Form.Step (fun part => EndFree part.tokens) Window.Spelled
          (fun _ => True) window) (fun _ => True) := by
    refine meets_iff.2 ⟨fun form hform => ?_, fun _ _ => trivial⟩
    have hspans := Form.spans_of_ofWindow hform
    constructor
    · intro part hpart token htoken
      exact hend token ((hspans.part hpart).1.subset htoken)
    · exact fun _ _ => trivial
    · exact fun expression hbuilds => hspans.spells hend hbuilds
  exact Expr.meets_ofWindow hstep window h

/-- Nothing is lost, repeated or moved: what a parsed program or expression keeps of
its tokens stands in it in their order. -/
theorem Program.leaves_of_ofTokens (tokens : List Token) (hend : EndFree tokens) :
    (∀ endLine program, Program.ofTokens tokens endLine = .ok program →
        (tokens.filter (·.kind.isLeaf)).map Token.leaf? = program.leaves.map some) ∧
      ∀ expression, Expr.ofTokens tokens = .ok expression →
        (tokens.filter (·.kind.isLeaf)).map Token.leaf? =
          expression.leaves.map some := by
  constructor
  · intro endLine program hprogram
    have hwindows : ∀ window ∈ (Drafts.ofStream (Listed.mk tokens endLine)).windows,
        Meets (Expr.ofWindow window) window.Spelled (fun _ => True) := by
      intro window hwindow
      have hsublist :=
        (Drafts.part_of_mem_ofTokens hwindow).1.trans (List.tail_sublist _)
      rw [Listed.tokens_eq_takeWhile, hend.takeWhile] at hsublist
      exact Expr.meets_spelled window fun token htoken =>
        hend token (hsublist.subset htoken)
    exact ((Program.meets_ofStream hwindows fun _ _ => trivial).of_ok
      hprogram).spells hend
  · intro expression hexpression
    exact (Expr.meets_spelled _ hend).of_ok hexpression

def Program.doubling : Program := ⟨[
  .assign [⟨"f", none⟩]
    (.function [⟨"x", some .int⟩] [.int] false
      [.result [.operator .mul none (.named "x") (.int 2)] 1] none) 1,
  .assign [⟨"y", some .int⟩] (.apply (.named "f") [.int 5] []) 2]⟩

theorem Program.doubling_leaves :
    EndFree (Statement.linesFrom 1 doubling.statements) ∧
      Program.ofTokens (Statement.linesFrom 1 doubling.statements) 2 =
        .ok doubling ∧
      ((Statement.linesFrom 1 doubling.statements).filter (·.kind.isLeaf)).map
          Token.leaf? = doubling.leaves.map some := by
  have hend : EndFree (Statement.linesFrom 1 doubling.statements) := by
    unfold EndFree
    decide
  have hprintable : doubling.Printable := by decide +kernel
  have hparse : Program.ofTokens (Statement.linesFrom 1 doubling.statements) 2 =
      .ok doubling := by
    refine ofStream_of_tokens hprintable ?_
    rw [Listed.tokens_eq_takeWhile, hend.takeWhile]
  exact ⟨hend, hparse, (leaves_of_ofTokens _ hend).1 2 doubling hparse⟩

end ExprLang
