import ExprLang.Proofs.Window.Nested

/-!
# Tokens at top level

The tokens of a window that stand outside all brackets, in order.  They alone decide
where an operator splits the window: what the search for a tier finds is stated here
in terms of them.
-/

namespace ExprLang

/-- The tokens outside all brackets, in a scan that begins at `depth`. -/
def topFrom (depth : Depth) : List Token → List Token
  | [] => []
  | token :: rest =>
      let depth := depth.step token.kind
      if token.kind.isBracket || !depth.atTop then topFrom depth rest
      else token :: topFrom depth rest

def topLevel (tokens : List Token) : List Token := topFrom .zero tokens

theorem topFrom_append (depth : Depth) (tokens others : List Token) :
    topFrom depth (tokens ++ others) =
      topFrom depth tokens ++ topFrom (depth.after tokens) others := by
  induction tokens generalizing depth with
  | nil => rfl
  | cons token rest ih =>
      simp only [List.cons_append, topFrom, Depth.after_cons, ih]
      split <;> rfl

theorem topLevel_append {tokens : List Token} (h : Depth.zero.after tokens = .zero)
    (others : List Token) :
    topLevel (tokens ++ others) = topLevel tokens ++ topLevel others := by
  rw [topLevel, topFrom_append, h]
  rfl

theorem topLevel_cons {token : Token} (h : token.kind.isBracket = false)
    (rest : List Token) :
    topLevel (token :: rest) = token :: topLevel rest := by
  have hstep := Depth.zero.step_of_not_bracket h
  rw [topLevel, topFrom, hstep, if_neg (by simp [h, Depth.zero, Depth.atTop])]
  rfl

theorem topFrom_wrap {depth : Depth} {bracket : Bracket} {opener closer : Token}
    {inner : List Token} (hopener : opener.kind = .opening bracket)
    (hcloser : closer.kind = .closing bracket)
    (hinner : topFrom (depth.add bracket 1) inner = [])
    (hafter : (depth.add bracket 1).after inner = depth.add bracket 1)
    (rest : List Token) :
    topFrom depth (opener :: (inner ++ closer :: rest)) = topFrom depth rest := by
  rw [topFrom, if_pos (by simp [hopener, Kind.isBracket]), hopener,
    Depth.step_opening, topFrom_append, hinner, hafter, topFrom,
    if_pos (by simp [hcloser, Kind.isBracket]), hcloser, Depth.step_closing,
    Depth.add_add_neg, List.nil_append]

private theorem Nested.topFrom_eq_nil {top : Kind → Prop} {tokens : List Token}
    (h : Nested top tokens) {depth : Depth} (hdepth : depth.Natural)
    (hinside : depth.atTop = false) :
    topFrom depth tokens = [] := by
  induction h generalizing depth with
  | nil => rfl
  | token hbracket _ _ ih =>
      rw [topFrom, depth.step_of_not_bracket hbracket, if_pos (by simp [hinside]),
        ih hdepth hinside]
  | @wrap top inside opener closer bracket inner rest hopener hcloser hinner _
      ihInner ih =>
      have hnone := ihInner (hdepth.add_one bracket) (hdepth.atTop_add_one bracket)
      rw [topFrom_wrap hopener hcloser hnone (hinner.after_eq _), ih hdepth hinside]

theorem Nested.of_mem_topLevel {top : Kind → Prop} {tokens : List Token}
    (h : Nested top tokens) :
    ∀ token ∈ topLevel tokens, top token.kind := by
  induction h with
  | nil => simp [topLevel, topFrom]
  | token hbracket htop _ ih =>
      rw [topLevel_cons hbracket]
      exact List.forall_mem_cons.2 ⟨htop, ih⟩
  | @wrap top inside opener closer bracket inner rest hopener hcloser hinner _ _
      ih =>
      have hzero := Depth.natural_zero
      have hnone :=
        hinner.topFrom_eq_nil (hzero.add_one bracket) (hzero.atTop_add_one bracket)
      rw [topLevel, topFrom_wrap hopener hcloser hnone (hinner.after_eq _)]
      exact ih

/-! ## Closed windows -/

/-- Neither an application nor a conditional stands at top level, so that nothing
takes what follows the window. -/
def Closed (tokens : List Token) : Prop :=
  ∀ token ∈ topLevel tokens, token.kind.takesRest = false

instance (tokens : List Token) : Decidable (Closed tokens) :=
  inferInstanceAs (Decidable (∀ token ∈ topLevel tokens,
    token.kind.takesRest = false))

theorem Closed.head {first : Token} {rest : List Token}
    (h : Closed (first :: rest)) :
    first.kind.takesRest = false := by
  cases hbracket : first.kind.isBracket with
  | false => exact h first (by simp [topLevel_cons hbracket])
  | true => cases hkind : first.kind <;> simp_all [Kind.isBracket, Kind.takesRest]

theorem closed_append_iff {left right : List Token}
    (h : Depth.zero.after left = .zero) :
    Closed (left ++ right) ↔ Closed left ∧ Closed right := by
  simp only [Closed, topLevel_append h, List.mem_append]
  constructor
  · intro hall
    exact ⟨fun token htoken => hall token (.inl htoken),
      fun token htoken => hall token (.inr htoken)⟩
  · rintro ⟨hleft, hright⟩ token (htoken | htoken)
    · exact hleft token htoken
    · exact hright token htoken

theorem closed_cons_iff {token : Token} {rest : List Token}
    (h : token.kind.isBracket = false) :
    Closed (token :: rest) ↔ token.kind.takesRest = false ∧ Closed rest := by
  simp [Closed, topLevel_cons h]

/-! ## Operators of a tier -/

def Tier.rank : Tier → Nat
  | .comparison => 0
  | .additive => 1
  | .multiplicative => 2

def operators (tokens : List Token) : List Operator :=
  tokens.filterMap (·.kind.operator?)

/-- The tokens at top level up to the first application or conditional. -/
def leading (tokens : List Token) : List Token :=
  (topLevel tokens).takeWhile (!·.kind.takesRest)

theorem leading_of_closed {tokens : List Token} (h : Closed tokens) :
    leading tokens = topLevel tokens := by
  rw [leading, ← List.append_nil (topLevel tokens), List.takeWhile_append_of_pos]
  · rfl
  · intro token htoken
    simp [h token htoken]

theorem leading_append {left : List Token}
    (hbalanced : Depth.zero.after left = .zero) (hclosed : Closed left)
    (right : List Token) :
    leading (left ++ right) = topLevel left ++ leading right := by
  rw [leading, topLevel_append hbalanced, List.takeWhile_append_of_pos]
  · rfl
  · intro token htoken
    simp [hclosed token htoken]

theorem leading_cons_operator {sign : Token} {op : Operator}
    (h : sign.kind = .operator op) (rest : List Token) :
    leading (sign :: rest) = sign :: leading rest := by
  rw [leading, topLevel_cons (by rw [h]; rfl),
    List.takeWhile_cons_of_pos (by rw [h]; rfl)]
  rfl

theorem leading_cons_takesRest {mark : Token} (h : mark.kind.takesRest = true)
    (rest : List Token) :
    leading (mark :: rest) = [] := by
  have hbracket : mark.kind.isBracket = false := by
    cases hkind : mark.kind <;> simp_all [Kind.isBracket, Kind.takesRest]
  rw [leading, topLevel_cons hbracket, List.takeWhile_cons_of_neg (by simp [h])]

namespace Split

theorem atTierFrom?_eq_none {tier : Tier} {depth : Depth} {tokens : List Token}
    (h : ∀ op ∈ operators ((topFrom depth tokens).takeWhile (!·.kind.takesRest)),
      op.tier ≠ tier) :
    atTierFrom? tier depth tokens = none := by
  induction tokens generalizing depth with
  | nil => rfl
  | cons token rest ih =>
      simp only [topFrom] at h
      simp only [atTierFrom?]
      split
      · rename_i hinside
        rw [if_pos hinside] at h
        rw [ih h, Option.map_none]
      · rename_i houtside
        rw [if_neg houtside] at h
        split
        · rfl
        · rename_i hpassed
          rw [List.takeWhile_cons_of_pos (by simpa using hpassed)] at h
          have hhead : token.kind ∉ tier.kinds := by
            intro hkind
            obtain ⟨op, hop⟩ := Tier.exists_of_mem_kinds hkind
            have hoperator : token.kind.operator? = some op := by rw [hop]; rfl
            rw [hop, Tier.operator_mem_kinds_iff] at hkind
            exact h op
              (List.mem_filterMap.2 ⟨token, List.mem_cons_self, hoperator⟩) hkind
          rw [ih fun op hop => h op (List.mem_filterMap.2 ?_), Option.map_none,
            if_neg hhead]
          · rfl
          · obtain ⟨other, hother, hkind⟩ := List.mem_filterMap.1 hop
            exact ⟨other, List.mem_cons_of_mem _ hother, hkind⟩

private theorem atTierFrom?_append_of_some {tier : Tier} {depth : Depth}
    {left rest : List Token} {split : Split}
    (hclosed : ∀ token ∈ topFrom depth left, token.kind.takesRest = false)
    (h : atTierFrom? tier (depth.after left) rest = some split) :
    atTierFrom? tier depth (left ++ rest) = some (split.prepend left) := by
  induction left generalizing depth with
  | nil => exact h
  | cons token left ih =>
      simp only [topFrom] at hclosed
      simp only [List.cons_append, atTierFrom?]
      split
      · rename_i hinside
        rw [if_pos hinside] at hclosed
        rw [ih hclosed h]
        rfl
      · rename_i houtside
        rw [if_neg houtside] at hclosed
        rw [if_neg (by simp [hclosed token List.mem_cons_self]),
          ih (fun other hother => hclosed other (List.mem_cons_of_mem _ hother)) h]
        rfl

/-- The window before the operator that is found is closed: the search ends at what
takes the rest. -/
theorem closed_of_atTierFrom? {tier : Tier} {depth : Depth} {tokens : List Token}
    {split : Split} (h : atTierFrom? tier depth tokens = some split) :
    ∀ token ∈ topFrom depth split.left, token.kind.takesRest = false := by
  induction tokens generalizing depth split with
  | nil => simp [atTierFrom?] at h
  | cons token rest ih =>
      simp only [atTierFrom?] at h
      split at h
      · rename_i hinside
        obtain ⟨tail, htail, rfl⟩ := Option.map_eq_some_iff.1 h
        have hrest := ih htail
        simpa [cons, topFrom, hinside] using hrest
      · rename_i houtside
        split at h
        · cases h
        · rename_i hpassed
          rcases Option.or_eq_some_iff.1 h with hlater | ⟨-, hhead⟩
          · obtain ⟨tail, htail, rfl⟩ := Option.map_eq_some_iff.1 hlater
            have hrest := ih htail
            simpa [cons, topFrom, houtside, hpassed] using hrest
          · split at hhead
            · cases hhead
              simp [topFrom]
            · cases hhead

theorem atOperator?_append {left right : List Token} {sign : Token} {op : Operator}
    (hbalanced : Depth.zero.after left = .zero) (hclosed : Closed left)
    (hsign : sign.kind = .operator op)
    (hleft : ∀ other ∈ operators (topLevel left), op.tier.rank ≤ other.tier.rank)
    (hright : ∀ other ∈ operators (leading right), op.tier.rank < other.tier.rank) :
    atOperator? (left ++ sign :: right) = some ⟨left, sign, right⟩ := by
  have hlooser (tier : Tier) (htier : tier.rank < op.tier.rank) :
      atTierFrom? tier .zero (left ++ sign :: right) = none := by
    refine atTierFrom?_eq_none ?_
    change ∀ other ∈ operators (leading (left ++ sign :: right)), other.tier ≠ tier
    rw [leading_append hbalanced hclosed, leading_cons_operator hsign]
    simp only [operators, List.filterMap_append, List.filterMap_cons, hsign,
      Kind.operator?, List.mem_append, List.mem_cons]
    rintro other (hother | rfl | hother) rfl
    · have := hleft other hother
      omega
    · omega
    · have := hright other hother
      omega
  have hnone : atTierFrom? op.tier .zero right = none := by
    refine atTierFrom?_eq_none fun other hother htier => ?_
    have := hright other hother
    rw [htier] at this
    omega
  have hfound : atTierFrom? op.tier .zero (left ++ sign :: right) =
      some ⟨left, sign, right⟩ := by
    have hstep : Depth.zero.step (.operator op) = .zero := rfl
    have hlast : atTierFrom? op.tier (Depth.zero.after left) (sign :: right) =
        some ⟨[], sign, right⟩ := by
      simp only [hbalanced, atTierFrom?, hsign, hstep, hnone, Option.map_none,
        if_pos (Tier.operator_mem_kinds_iff.2 (Eq.refl op.tier))]
      rfl
    rw [atTierFrom?_append_of_some hclosed hlast]
    simp [prepend]
  cases htier : op.tier with
  | comparison =>
      rw [htier] at hfound
      simp [atOperator?, hfound]
  | additive =>
      rw [htier] at hlooser hfound
      simp [atOperator?, hlooser .comparison (by decide), hfound]
  | multiplicative =>
      rw [htier] at hlooser hfound
      simp [atOperator?, hlooser .comparison (by decide),
        hlooser .additive (by decide), hfound]

theorem closed_of_atOperator? {tokens : List Token} {split : Split}
    (h : atOperator? tokens = some split) : Closed split.left := by
  obtain ⟨tier, -, htier⟩ := List.exists_of_findSome?_eq_some h
  exact closed_of_atTierFrom? htier

end Split

end ExprLang
