import ExprLang.Proofs.Tree.Sources
import ExprLang.Proofs.Tree.Spans

/-!
# Calls of the parser

To parse a window the parser calls itself for the parts of the form that the window
has: operands, callee and arguments, condition and branches, what stands in
parentheses, elements, and the expressions in the body of a function.  Each of them
is shorter than the window.  So a bound on the depth of the calls, and on the turns
of the loop over statements, that exceeds the number of tokens is never met.
-/

namespace ExprLang

open TokenStream

def Window.Calls (window part : Window) : Prop :=
  ∃ form, Form.ofWindow window = .ok form ∧ part ∈ form.windows

theorem Window.Calls.length_lt {window part : Window} (h : window.Calls part) :
    part.tokens.length < window.tokens.length := by
  obtain ⟨form, hform, hpart⟩ := h
  exact Form.length_of_mem_windows hform hpart

private theorem Window.length_lt_of_transGen_calls {window part : Window}
    (h : Relation.TransGen Window.Calls window part) :
    part.tokens.length < window.tokens.length := by
  induction h with
  | single hcalls => exact hcalls.length_lt
  | tail _ hcalls ih => exact Nat.lt_trans hcalls.length_lt ih

/-! ## Bodies of functions -/

namespace Form

/-- The tokens of a body, with the word that a body on one line lacks, as a source
of their own. -/
def bodySource (literal : FunctionLiteral) : PushBack Listed :=
  .ofStream ⟨bodyTokens literal.body, literal.lastLine⟩

private theorem body_eq_of_ofFunction {line : Nat} {literal : FunctionLiteral}
    {arguments : List Variable} {returns : List Ty} {returnsOmitted : Bool}
    {body : Drafts}
    (h : ofFunction line literal =
      .ok (.function arguments returns returnsOmitted body)) :
    body = bodyDrafts literal := by
  simp only [ofFunction, Outcome.bind_eq_ok_iff] at h
  obtain ⟨_, -, _, -, h⟩ := h
  split at h
  · simp at h
  · cases h
    rfl

private theorem length_tokens_bodySource_le (literal : FunctionLiteral) :
    (tokens (bodySource literal)).length ≤ literal.body.length + 1 := by
  have hcollect : collect (bodySource literal) =
      collect (Listed.mk (bodyTokens literal.body) literal.lastLine) :=
    PushBack.lockstep_ofStream.collect_eq rfl
  have hlisted :=
    Listed.length_tokens_le ⟨bodyTokens literal.body, literal.lastLine⟩
  have hbody := length_bodyTokens_le literal.body
  rw [tokens, hcollect]
  exact Nat.le_trans hlisted hbody

private theorem statementsWithin_bodySource {line : Nat} {literal : FunctionLiteral}
    {arguments : List Variable} {returns : List Ty} {returnsOmitted : Bool}
    {body : Drafts}
    (h : ofFunction line literal =
      .ok (.function arguments returns returnsOmitted body))
    (parse : Window → Except ParseError Expr)
    (stuck : PushBack Listed → Except ParseError (List Statement)) {turns : Nat}
    (hturns : literal.body.length + 1 < turns) :
    PushBack.statementsWithin parse stuck turns (bodySource literal) =
      body.build fun window _ => parse window := by
  have hlength := length_tokens_bodySource_le literal
  have hdrafts : Drafts.ofStream (bodySource literal) = bodyDrafts literal :=
    PushBack.lockstep_ofStream.drafts_eq rfl
  rw [body_eq_of_ofFunction h, ← hdrafts]
  exact PushBack.statementsWithin_eq stuck (by omega)

end Form

/-! ## Bounded parsers -/

namespace Expr

/-- The parser, with `parse` in place of the calls of itself. -/
def ofWindowWith (parse : Window → Except ParseError Expr) (window : Window) :
    Except ParseError Expr :=
  match Form.ofWindow window with
  | .error fault => .error fault
  | .ok form => form.build fun part _ => parse part

/-- The parser with a bound on the depth of its calls.  What is `lost` below is left
to another parser. -/
def ofWindowWithin (lost : Window → Except ParseError Expr) :
    Nat → Window → Except ParseError Expr
  | 0, window => lost window
  | depth + 1, window => ofWindowWith (ofWindowWithin lost depth) window

theorem ofWindowWith_eq {parse : Window → Except ParseError Expr} {window : Window}
    (h : ∀ part, window.Calls part → parse part = Expr.ofWindow part) :
    ofWindowWith parse window = Expr.ofWindow window := by
  cases hform : Form.ofWindow window with
  | error fault => rw [ofWindowWith, hform, Expr.ofWindow_of_error hform]
  | ok form =>
      have hparse : (fun (part : Window) (_ : part ∈ form.windows) => parse part) =
          fun part _ => Expr.ofWindow part := by
        funext part hpart
        exact h part ⟨form, hform, hpart⟩
      rw [ofWindowWith, hform, Expr.ofWindow_of_form hform, ← hparse]

private theorem ofWindowWithin_eq (lost : Window → Except ParseError Expr)
    {depth : Nat} {window : Window} (h : window.tokens.length < depth) :
    ofWindowWithin lost depth window = Expr.ofWindow window := by
  induction depth generalizing window with
  | zero => omega
  | succ depth ih =>
      refine ofWindowWith_eq fun part hpart => ih ?_
      have hshorter := hpart.length_lt
      omega

end Expr

section Bounded

variable {σ : Type} [TokenStream σ]

def Program.ofSourceWithin (lost : Window → Except ParseError Expr)
    (stuck : PushBack σ → Except ParseError (List Statement)) (bound : Nat)
    (source : PushBack σ) :
    Except ParseError Program := do
  let statements ← PushBack.statementsWithin (Expr.ofWindowWithin lost bound) stuck
      bound source
  return ⟨statements⟩

private theorem Program.ofSourceWithin_eq (lost : Window → Except ParseError Expr)
    (stuck : PushBack σ → Except ParseError (List Statement)) {bound : Nat}
    {source : PushBack σ} (h : (tokens source).length < bound) :
    Program.ofSourceWithin lost stuck bound source = Program.ofStream source := by
  have hparse :
      (fun (window : Window) (_ : window ∈ (Drafts.ofStream source).windows) =>
      Expr.ofWindowWithin lost bound window) =
        fun window _ => Expr.ofWindow window := by
    funext window hwindow
    have hshorter := Drafts.length_of_mem_ofTokens hwindow
    exact Expr.ofWindowWithin_eq lost (by omega)
  rw [Program.ofSourceWithin, PushBack.statementsWithin_eq stuck h, hparse,
    Program.ofStream]

/-- Calls are for shorter windows, those from the body of a function included, and
there are no others.  A turn of the loop over statements leaves fewer tokens.  So on
every source a bound above the number of its tokens changes nothing, whatever would
answer beyond the bound. -/
theorem Program.parsing_ends :
    (∀ window part : Window, Relation.TransGen Window.Calls window part →
        part.tokens.length < window.tokens.length) ∧
      (∀ (window : Window) (parse : Window → Except ParseError Expr),
        (∀ part, window.Calls part → parse part = Expr.ofWindow part) →
        Expr.ofWindowWith parse window = Expr.ofWindow window) ∧
      (∀ (line : Nat) (literal : FunctionLiteral) (arguments : List Variable)
          (returns : List Ty) (returnsOmitted : Bool) (body : Drafts),
        Form.ofFunction line literal =
          .ok (.function arguments returns returnsOmitted body) →
        (∀ part ∈ body.windows, part.tokens.length ≤ literal.body.length) ∧
          ∀ parse stuck turns, literal.body.length + 1 < turns →
            PushBack.statementsWithin parse stuck turns (Form.bodySource literal) =
              body.build fun window _ => parse window) ∧
      (∀ parse (source after : PushBack σ) found,
        source.turn parse = .ok found → found.after? = some after →
        (tokens after).length < (tokens source).length) ∧
      ∀ lost stuck bound (source : PushBack σ), (tokens source).length < bound →
        Program.ofSourceWithin lost stuck bound source =
          Program.ofStream source := by
  refine ⟨fun window part => Window.length_lt_of_transGen_calls,
    fun window parse => Expr.ofWindowWith_eq, ?_,
    fun parse source after found => PushBack.length_tokens_of_turn,
    fun lost stuck bound source => Program.ofSourceWithin_eq lost stuck⟩
  intro line literal arguments returns returnsOmitted body hfunction
  refine ⟨fun part hpart => Form.length_of_mem_ofFunction hfunction hpart,
    fun parse stuck turns hturns => ?_⟩
  exact Form.statementsWithin_bodySource hfunction parse stuck hturns

end Bounded

theorem Program.parsing_ends_malformed :
    let name : Token := ⟨.identifier, "x", 1⟩
    let literal : FunctionLiteral := ⟨[], none, [name], 1, []⟩
    let grouped : List Token :=
      [.ofKind (.opening .paren) 1, name, .ofKind (.closing .paren) 1]
    let source : PushBack Listed :=
      .ofStream ⟨[.ofKind .newline 1, .ofKind .returnWord 2,
        .ofKind (.opening .paren) 2],
        2⟩
    (∀ part : Window,
      Relation.TransGen Window.Calls ⟨grouped, 1⟩ part → part.tokens.length < 3) ∧
    Relation.TransGen Window.Calls ⟨grouped, 1⟩ ⟨[name], 1⟩ ∧
    Expr.ofWindowWith Expr.ofWindow ⟨grouped, 1⟩ = Expr.ofWindow ⟨grouped, 1⟩ ∧
    (∀ parse stuck,
      PushBack.statementsWithin parse stuck 3 (Form.bodySource literal) =
        (Form.bodyDrafts literal).build fun window _ => parse window) ∧
    (tokens source.next.2).length < (tokens source).length ∧
    ∀ lost stuck,
      Program.ofSourceWithin lost stuck 4 source = Program.ofStream source := by
  intro name literal grouped source
  obtain ⟨hcalls, honly, hbody, hturn, hbound⟩ := @Program.parsing_ends Listed _
  have hgrouped : Form.ofWindow ⟨grouped, 1⟩ = .ok (.group ⟨[name], 1⟩) :=
    Form.ofWindow_paren rfl rfl (.single rfl trivial : WellNested [name]) 1
  have hfunction : Form.ofFunction 1 literal =
      .ok (.function [] [] true (Form.bodyDrafts literal)) := by
    have harguments : VariableList.read literal.arguments = .ok [] := by
      rw [VariableList.read]
    rw [Form.ofFunction, harguments]
    rfl
  have hlength : (tokens source).length < 4 := by
    have hcollect : collect source = _ := PushBack.lockstep_ofStream.collect_eq rfl
    rw [tokens, hcollect]
    exact Nat.lt_succ_of_le (Listed.length_tokens_le _)
  refine ⟨fun part => hcalls ⟨grouped, 1⟩ part,
    .single ⟨_, hgrouped, by simp [Form.windows]⟩, honly _ _ fun _ _ => rfl,
    fun parse stuck => (hbody _ _ _ _ _ _ hfunction).2 parse stuck 3 (by decide),
    ?_, fun lost stuck => hbound lost stuck 4 source hlength⟩
  exact hturn Expr.ofWindow source source.next.2 (.blank source.next.2) rfl rfl

end ExprLang
