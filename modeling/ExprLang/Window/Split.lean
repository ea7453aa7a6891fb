import ExprLang.Window.Depth

/-!
# Splitting at one token

Two ways to cut a window in two at a token of top level: at the last operator of a
tier, and at the `else` of a conditional.
-/

namespace ExprLang

structure Split where
  left : List Token
  token : Token
  right : List Token
  deriving DecidableEq, Repr

def Tier.kinds : Tier → List Kind
  | .comparison =>
      [.operator .or, .operator .and, .operator .eq, .operator .notEq,
        .operator .greaterEq, .operator .lessEq, .operator .greater,
        .operator .less]
  | .additive => [.operator .add, .operator .sub]
  | .multiplicative => [.operator .mul, .operator .div]

namespace Tier

theorem operator_mem_kinds_iff {op : Operator} {tier : Tier} :
    Kind.operator op ∈ tier.kinds ↔ op.tier = tier := by
  cases op <;> cases tier <;> decide

theorem exists_of_mem_kinds {kind : Kind} {tier : Tier} (h : kind ∈ tier.kinds) :
    ∃ op, kind = .operator op := by
  cases kind with
  | operator op => exact ⟨op, rfl⟩
  | _ => cases tier <;> simp [kinds] at h

end Tier

namespace Split

def cons (token : Token) (split : Split) : Split :=
  { split with left := token :: split.left }

/-- The last top-level sign of `tier`, looked for up to the first top-level
application or conditional. -/
def atTierFrom? (tier : Tier) (depth : Depth) : List Token → Option Split
  | [] => none
  | token :: rest =>
      let depth := depth.step token.kind
      let later := (atTierFrom? tier depth rest).map (cons token)
      if token.kind.isBracket || !depth.atTop then later
      else if token.kind.takesRest then none
      else later.or
        (if token.kind ∈ tier.kinds then some ⟨[], token, rest⟩ else none)

def atOperator? (tokens : List Token) : Option Split :=
  [Tier.comparison, .additive, .multiplicative].findSome? fun tier =>
    atTierFrom? tier .zero tokens

/-- The `else` of a conditional whose `if` has been read.  Each `if` met at top
level claims one later `else`; `claimed` of them are still due. -/
def atElseFrom? (depth : Depth) (claimed : Nat) : List Token → Option Split
  | [] => none
  | token :: rest =>
      let depth := depth.step token.kind
      if token.kind.isBracket || !depth.atTop then
        (atElseFrom? depth claimed rest).map (cons token)
      else
        match token.kind, claimed with
        | .ifWord, _ => (atElseFrom? depth (claimed + 1) rest).map (cons token)
        | .elseWord, 0 => some ⟨[], token, rest⟩
        | .elseWord, claimed + 1 =>
            (atElseFrom? depth claimed rest).map (cons token)
        | _, _ => (atElseFrom? depth claimed rest).map (cons token)

def atElse? (tokens : List Token) : Option Split := atElseFrom? .zero 0 tokens

theorem cases_of_atTierFrom? {tier : Tier} {depth : Depth} {token : Token}
    {rest : List Token} {split : Split}
    (h : atTierFrom? tier depth (token :: rest) = some split) :
    (∃ tail, atTierFrom? tier (depth.step token.kind) rest = some tail ∧
        split = tail.cons token) ∨
      split = ⟨[], token, rest⟩ ∧ token.kind ∈ tier.kinds := by
  have later
      (hlater : (atTierFrom? tier (depth.step token.kind) rest).map (cons token) =
        some split) : ∃ tail,
      atTierFrom? tier (depth.step token.kind) rest = some tail ∧
      split = tail.cons token := by
    obtain ⟨tail, htail, rfl⟩ := Option.map_eq_some_iff.1 hlater
    exact ⟨tail, htail, rfl⟩
  simp only [atTierFrom?] at h
  split at h
  · exact .inl (later h)
  split at h
  · cases h
  rcases Option.or_eq_some_iff.1 h with hlater | ⟨-, hhead⟩
  · exact .inl (later hlater)
  · split at hhead
    · rename_i hkind
      cases hhead
      exact .inr ⟨rfl, hkind⟩
    · cases hhead

private theorem eq_of_atTierFrom? {tier : Tier} {depth : Depth}
    {tokens : List Token} {split : Split}
    (h : atTierFrom? tier depth tokens = some split) :
    tokens = split.left ++ split.token :: split.right := by
  induction tokens generalizing depth split with
  | nil => simp [atTierFrom?] at h
  | cons token rest ih =>
      rcases cases_of_atTierFrom? h with ⟨tail, htail, rfl⟩ | ⟨rfl, -⟩
      · simp [cons, ← ih htail]
      · rfl

theorem eq_of_atOperator? {tokens : List Token} {split : Split}
    (h : atOperator? tokens = some split) :
    tokens = split.left ++ split.token :: split.right := by
  obtain ⟨tier, -, htier⟩ := List.exists_of_findSome?_eq_some h
  exact eq_of_atTierFrom? htier

private theorem kind_of_atTierFrom? {tier : Tier} {depth : Depth}
    {tokens : List Token} {split : Split}
    (h : atTierFrom? tier depth tokens = some split) :
    split.token.kind ∈ tier.kinds := by
  induction tokens generalizing depth split with
  | nil => simp [atTierFrom?] at h
  | cons token rest ih =>
      rcases cases_of_atTierFrom? h with ⟨tail, htail, rfl⟩ | ⟨rfl, hkind⟩
      · exact (ih htail : tail.token.kind ∈ tier.kinds)
      · exact hkind

theorem kind_of_atOperator? {tokens : List Token} {split : Split}
    (h : atOperator? tokens = some split) :
    ∃ op, split.token.kind = .operator op := by
  obtain ⟨tier, -, htier⟩ := List.exists_of_findSome?_eq_some h
  exact Tier.exists_of_mem_kinds (kind_of_atTierFrom? htier)

theorem eq_of_atElseFrom? {depth : Depth} {claimed : Nat} {tokens : List Token}
    {split : Split} (h : atElseFrom? depth claimed tokens = some split) :
    tokens = split.left ++ split.token :: split.right := by
  induction tokens generalizing depth claimed split with
  | nil => simp [atElseFrom?] at h
  | cons token rest ih =>
      have later {claimed : Nat}
          (h : (atElseFrom? (depth.step token.kind) claimed rest).map (cons token) =
            some split) :
          token :: rest = split.left ++ split.token :: split.right := by
        obtain ⟨tail, htail, rfl⟩ := Option.map_eq_some_iff.1 h
        simp [cons, ← ih htail]
      simp only [atElseFrom?] at h
      split at h
      · exact later h
      · split at h
        · exact later h
        · cases h
          rfl
        · exact later h
        · exact later h

end Split

end ExprLang
