import ExprLang.Proofs.Window.Cut
import ExprLang.Proofs.Window.Nested

/-!
# Partners of opening tokens

The partner of an opening token is the first token up to which as many tokens open
as close.  The tokens between the two are matched among themselves.  The search for
the partner counts the pairs that are open; a counter that can not be negative is
enough for it, whatever the window is.
-/

namespace ExprLang

/-! ## Counting two kinds -/

def tally (kind : Kind) (tokens : List Token) : Nat := tokens.countP (·.kind = kind)

@[simp] theorem tally_nil (kind : Kind) : tally kind [] = 0 := rfl

theorem tally_cons (kind : Kind) (token : Token) (rest : List Token) :
    tally kind (token :: rest) =
      tally kind rest + if token.kind = kind then 1 else 0 := by
  simp [tally, List.countP_cons]

private theorem tally_append (kind : Kind) (tokens others : List Token) :
    tally kind (tokens ++ others) = tally kind tokens + tally kind others := by
  simp [tally]

/-- With `nested` pairs open before the window, no beginning of it closes more pairs
than are open. -/
def Covered (opener closer : Kind) (nested : Nat) (tokens : List Token) : Prop :=
  ∀ length,
    tally closer (tokens.take length) ≤ nested + tally opener (tokens.take length)

structure Matched (opener closer : Kind) (tokens : List Token) : Prop where
  covered : Covered opener closer 0 tokens
  even : tally opener tokens = tally closer tokens

section Covered

variable {opener closer : Kind}

theorem covered_nil (nested : Nat) : Covered opener closer nested [] := by
  intro length
  simp

theorem covered_cons_iff {nested later : Nat} {token : Token} (rest : List Token)
    (h : (nested + if token.kind = opener then 1 else 0) =
      later + if token.kind = closer then 1 else 0) :
    Covered opener closer nested (token :: rest) ↔
      Covered opener closer later rest := by
  constructor
  · intro hcovered length
    have hlonger := hcovered (length + 1)
    simp only [List.take_succ_cons, tally_cons] at hlonger
    omega
  · intro hcovered length
    cases length with
    | zero => simp
    | succ length =>
        have hshorter := hcovered length
        simp only [List.take_succ_cons, tally_cons]
        omega

private theorem not_covered_zero_cons {token : Token} (rest : List Token)
    (hcloser : token.kind = closer) (hopener : token.kind ≠ opener) :
    ¬ Covered opener closer 0 (token :: rest) := by
  intro hcovered
  have hfirst := hcovered 1
  simp [tally_cons, hcloser, hcloser ▸ hopener] at hfirst

end Covered

/-! ## The search -/

namespace Enclosed

section Search

variable {opener closer : Kind} {nested : Nat} {tokens : List Token}

private theorem until?_eq_none_iff (hne : opener ≠ closer) :
    until? opener closer nested tokens = none ↔
      Covered opener closer nested tokens := by
  induction tokens generalizing nested with
  | nil => simp [until?, covered_nil]
  | cons token rest ih =>
      by_cases hopener : token.kind = opener
      · rw [until?_cons_opener _ _ hopener, Option.map_eq_none_iff, ih]
        exact (covered_cons_iff rest (by simp [hopener, hne])).symm
      · by_cases hcloser : token.kind = closer
        · cases nested with
          | zero =>
              rw [until?_zero_cons_closer _ hcloser hne.symm]
              simpa using not_covered_zero_cons rest hcloser hopener
          | succ nested =>
              rw [until?_cons_closer _ _ hcloser hne.symm, Option.map_eq_none_iff,
                ih]
              exact (covered_cons_iff rest (by simp [hcloser, hne.symm])).symm
        · rw [until?_cons_of_ne _ _ hopener hcloser, Option.map_eq_none_iff, ih]
          exact (covered_cons_iff rest (by simp [hopener, hcloser])).symm

theorem covered_of_until? (hne : opener ≠ closer) {enclosed : Enclosed}
    (h : until? opener closer nested tokens = some enclosed) :
    Covered opener closer nested enclosed.inner ∧
      tally closer enclosed.inner = nested + tally opener enclosed.inner := by
  induction tokens generalizing nested enclosed with
  | nil => simp [until?] at h
  | cons token rest ih =>
      have passed {later : Nat}
          (h : (until? opener closer later rest).map (cons token) = some enclosed)
          (hstep : (nested + if token.kind = opener then 1 else 0) =
            later + if token.kind = closer then 1 else 0) :
          Covered opener closer nested enclosed.inner ∧
            tally closer enclosed.inner = nested + tally opener enclosed.inner := by
        obtain ⟨tail, htail, rfl⟩ := Option.map_eq_some_iff.1 h
        obtain ⟨hcovered, heven⟩ := ih htail
        refine ⟨(covered_cons_iff tail.inner hstep).2 hcovered, ?_⟩
        simp only [cons, tally_cons]
        omega
      by_cases hopener : token.kind = opener
      · rw [until?_cons_opener _ _ hopener] at h
        exact passed h (by simp [hopener, hne])
      · by_cases hcloser : token.kind = closer
        · cases nested with
          | zero =>
              rw [until?_zero_cons_closer _ hcloser hne.symm] at h
              cases h
              exact ⟨covered_nil 0, rfl⟩
          | succ nested =>
              rw [until?_cons_closer _ _ hcloser hne.symm] at h
              exact passed h (by simp [hcloser, hne.symm])
        · rw [until?_cons_of_ne _ _ hopener hcloser] at h
          exact passed h (by simp [hopener, hcloser])

end Search

/-! ## Partners -/

/-- From an opening token at `start`, `stop` is the first position up to which as
many tokens open as close. -/
structure Partner (opener closer : Kind) (tokens : List Token)
    (start stop : Nat) : Prop where
  opens : tokens[start]?.map Token.kind = some opener
  start_le : start ≤ stop
  stop_lt : stop < tokens.length
  even : tally opener (tokens.extract start (stop + 1)) =
    tally closer (tokens.extract start (stop + 1))
  least : ∀ earlier, start ≤ earlier → earlier < stop →
    tally opener (tokens.extract start (earlier + 1)) ≠
      tally closer (tokens.extract start (earlier + 1))

section Partners

variable {opener closer : Kind} {tokens : List Token} {start : Nat}

private theorem Partner.unique {stop other : Nat}
    (h : Partner opener closer tokens start stop)
    (hother : Partner opener closer tokens start other) : stop = other := by
  rcases Nat.lt_trichotomy stop other with hlt | heq | hlt
  · exact absurd h.even (hother.least stop h.start_le hlt)
  · exact heq
  · exact absurd hother.even (h.least other hother.start_le hlt)

theorem tally_extract {first : Token} {rest : List Token}
    (hdrop : tokens.drop start = first :: rest) (hfirst : first.kind = opener)
    (hne : opener ≠ closer) {stop : Nat} (hstop : start ≤ stop) :
    tally opener (tokens.extract start (stop + 1)) =
        tally opener (rest.take (stop - start)) + 1 ∧
      tally closer (tokens.extract start (stop + 1)) =
        tally closer (rest.take (stop - start)) := by
  have hlength : stop + 1 - start = (stop - start) + 1 := by omega
  simp [hdrop, hlength, tally_cons, hfirst, hne]

theorem tally_ne_of_covered {first : Token} {rest inner : List Token}
    (hdrop : tokens.drop start = first :: rest) (hfirst : first.kind = opener)
    (hne : opener ≠ closer) (hcovered : Covered opener closer 0 inner) {stop : Nat}
    (hstop : start ≤ stop)
    (hinner : rest.take (stop - start) = inner.take (stop - start)) :
    tally opener (tokens.extract start (stop + 1)) ≠
      tally closer (tokens.extract start (stop + 1)) := by
  obtain ⟨hopens, hcloses⟩ := tally_extract hdrop hfirst hne hstop
  have hfewer := hcovered (stop - start)
  rw [hopens, hcloses, hinner]
  omega

private theorem partner_of_ofTokens? (hne : opener ≠ closer) {enclosed : Enclosed}
    (h : ofTokens? opener closer (tokens.drop start) = some enclosed) :
    Partner opener closer tokens start (start + enclosed.inner.length + 1) := by
  obtain ⟨first, hfirst, hdrop⟩ := eq_of_ofTokens? h
  rw [List.cons_append] at hdrop
  rw [hdrop, ofTokens?, if_pos hfirst] at h
  obtain ⟨hcovered, heven⟩ := covered_of_until? hne h
  have hcloser := kind_closer_of_until? h
  have hlength := congrArg List.length hdrop
  simp only [List.length_drop, List.length_cons, List.length_append] at hlength
  constructor
  · have hhead := congrArg List.head? hdrop
    rw [List.head?_drop, List.head?_cons] at hhead
    rw [hhead, Option.map_some, hfirst]
  · omega
  · omega
  · obtain ⟨hopens, hcloses⟩ := tally_extract hdrop hfirst hne
      (Nat.le_trans (Nat.le_add_right start _) (Nat.le_succ _))
    have htake :
        start + enclosed.inner.length + 1 - start = enclosed.inner.length + 1 := by
      omega
    rw [hopens, hcloses, htake, List.take_length_add_append]
    simp [tally_append, tally_cons, hcloser, hne.symm, heven]
  · intro earlier hstart hearlier
    refine tally_ne_of_covered hdrop hfirst hne hcovered hstart ?_
    rw [List.take_append_of_le_length (by omega)]

private theorem not_partner_of_ofTokens? (hne : opener ≠ closer)
    (h : ofTokens? opener closer (tokens.drop start) = none) (stop : Nat) :
    ¬ Partner opener closer tokens start stop := by
  intro hpartner
  obtain ⟨first, hhead, hfirst⟩ := Option.map_eq_some_iff.1 hpartner.opens
  obtain ⟨rest, hdrop⟩ : ∃ rest, tokens.drop start = first :: rest := by
    rw [← List.head?_drop] at hhead
    exact List.head?_eq_some_iff.1 hhead
  rw [hdrop, ofTokens?, if_pos hfirst, until?_eq_none_iff hne] at h
  exact tally_ne_of_covered hdrop hfirst hne h hpartner.start_le rfl hpartner.even

theorem inner_eq_extract {enclosed : Enclosed}
    (h : ofTokens? opener closer (tokens.drop start) = some enclosed) :
    enclosed.inner =
      tokens.extract (start + 1) (start + enclosed.inner.length + 1) := by
  obtain ⟨first, -, hdrop⟩ := eq_of_ofTokens? h
  have hinside : tokens.drop (start + 1) =
      enclosed.inner ++ enclosed.closer :: enclosed.rest := by
    rw [← List.tail_drop, hdrop]
    rfl
  have hlength :
      start + enclosed.inner.length + 1 - (start + 1) = enclosed.inner.length := by
    omega
  rw [List.extract_eq_take_drop, hinside, hlength, List.take_left]

private theorem matched_of_ofTokens? (hne : opener ≠ closer) {enclosed : Enclosed}
    (h : ofTokens? opener closer tokens = some enclosed) :
    Matched opener closer enclosed.inner := by
  obtain ⟨first, hfirst, rfl⟩ := eq_of_ofTokens? h
  rw [List.cons_append, ofTokens?, if_pos hfirst] at h
  obtain ⟨hcovered, heven⟩ := covered_of_until? hne h
  exact ⟨hcovered, by omega⟩

end Partners

/-! ## An unsigned counter -/

/-- A counter that is zero was to be lowered. -/
structure BelowZero where
  deriving DecidableEq, Repr

/-- The position of the token that lowers the counter of open pairs to zero.  The
first of the tokens stands at `position`. -/
def countedStop? (opener closer : Kind) :
    (count position : Nat) → List Token → Except BelowZero (Option Nat)
  | _, _, [] => .ok none
  | count, position, token :: rest =>
      if token.kind = opener then
        countedStop? opener closer (count + 1) (position + 1) rest
      else if token.kind = closer then
        match count with
        | 0 => .error ⟨⟩
        | count + 1 =>
            if count = 0 then .ok (some position)
            else countedStop? opener closer count (position + 1) rest
      else countedStop? opener closer count (position + 1) rest

def countedAt? (opener closer : Kind) (tokens : List Token) (position : Nat) :
    Except BelowZero (Option (List Token × Nat)) :=
  if tokens[position]?.map Token.kind = some opener then
    (countedStop? opener closer 0 position (tokens.drop position)).map
      (·.map fun stop => (tokens.extract (position + 1) stop, stop + 1))
  else .ok none

private theorem countedStop?_succ (opener closer : Kind) (nested position : Nat)
    (tokens : List Token) :
    countedStop? opener closer (nested + 1) position tokens =
      .ok ((until? opener closer nested tokens).map fun enclosed =>
        position + enclosed.inner.length) := by
  induction tokens generalizing nested position with
  | nil => rfl
  | cons token rest ih =>
      have passed (later : Nat) :
          countedStop? opener closer (later + 1) (position + 1) rest =
            .ok (((until? opener closer later rest).map (cons token)).map
              fun enclosed =>
              position + enclosed.inner.length) := by
        rw [ih, Option.map_map]
        congr 2
        funext enclosed
        simp only [Function.comp_apply, cons, List.length_cons]
        omega
      by_cases hopener : token.kind = opener
      · rw [countedStop?, if_pos hopener, until?_cons_opener _ _ hopener, passed]
      · by_cases hcloser : token.kind = closer
        · have hne : closer ≠ opener := hcloser ▸ hopener
          rw [countedStop?, if_neg hopener, if_pos hcloser]
          cases nested with
          | zero => rw [until?_zero_cons_closer _ hcloser hne]; rfl
          | succ nested => rw [until?_cons_closer _ _ hcloser hne, ← passed]; rfl
        · rw [countedStop?, if_neg hopener, if_neg hcloser,
            until?_cons_of_ne _ _ hopener hcloser, passed]

/-- The counter is never lowered below zero, for kinds that are equal too. -/
theorem countedAt?_eq (opener closer : Kind) (tokens : List Token)
    (position : Nat) :
    countedAt? opener closer tokens position =
      .ok (at? opener closer tokens position) := by
  cases hdrop : tokens.drop position with
  | nil =>
      have hhead : tokens[position]? = none := by
        rw [← List.head?_drop, hdrop, List.head?_nil]
      simp [countedAt?, at?, hhead, hdrop, ofTokens?]
  | cons first rest =>
      have hhead : tokens[position]? = some first := by
        rw [← List.head?_drop, hdrop, List.head?_cons]
      by_cases hfirst : first.kind = opener
      · -- The opening token raises the counter to one before anything can lower it.
        have hstop : countedStop? opener closer 0 position (first :: rest) =
            .ok ((until? opener closer 0 rest).map fun enclosed =>
              position + 1 + enclosed.inner.length) := by
          rw [countedStop?, if_pos hfirst, countedStop?_succ]
        have hsearch :
            ofTokens? opener closer (first :: rest) = until? opener closer 0 rest :=
          if_pos hfirst
        rw [countedAt?, hhead, Option.map_some, hfirst, if_pos rfl, hdrop, hstop,
          at?, hdrop, hsearch]
        simp only [Except.map, Option.map_map]
        cases huntil : until? opener closer 0 rest with
        | none => rfl
        | some enclosed =>
            have hinner := inner_eq_extract (hdrop.symm ▸ hsearch.trans huntil)
            have hlength : position + 1 + enclosed.inner.length =
                position + enclosed.inner.length + 1 := by omega
            simp only [Option.map_some, Function.comp_apply]
            rw [hlength, ← hinner]
      · simp [countedAt?, at?, hhead, hdrop, ofTokens?, hfirst]

/-- The content of a pair of brackets ends before the partner of the opening token.
If there is no partner there is no content. -/
theorem content_ends_at_partner (opener closer : Kind) (tokens : List Token)
    (position : Nat) :
    (opener ≠ closer →
        (∀ inner after, at? opener closer tokens position = some (inner, after) ↔
            ∃ stop, Partner opener closer tokens position stop ∧
              inner = tokens.extract (position + 1) stop ∧ after = stop + 1) ∧
          (∀ stop, Partner opener closer tokens position stop →
            Matched opener closer (tokens.extract (position + 1) stop)) ∧
          (at? opener closer tokens position = none ↔
            ∀ stop, ¬ Partner opener closer tokens position stop)) ∧
      countedAt? opener closer tokens position =
        .ok (at? opener closer tokens position) := by
  refine ⟨fun hne => ?_, countedAt?_eq opener closer tokens position⟩
  cases hsearch : ofTokens? opener closer (tokens.drop position) with
  | none =>
      have hat : at? opener closer tokens position = none := by
        rw [at?, hsearch, Option.map_none]
      have hnone := not_partner_of_ofTokens? hne hsearch
      refine ⟨fun inner after => ?_, fun stop hstop => absurd hstop (hnone stop),
        ?_⟩
      · simp [hat, hnone]
      · simp [hat, hnone]
  | some enclosed =>
      have hpartner := partner_of_ofTokens? hne hsearch
      have hinner := inner_eq_extract hsearch
      have hat : at? opener closer tokens position =
          some (enclosed.inner, position + enclosed.inner.length + 1 + 1) := by
        rw [at?, hsearch, Option.map_some]
      rw [hat]
      refine ⟨fun inner after => ?_, fun stop hstop => ?_, ?_⟩
      · constructor
        · intro h
          cases h
          exact ⟨_, hpartner, hinner, rfl⟩
        · rintro ⟨stop, hstop, rfl, rfl⟩
          rw [← hpartner.unique hstop, ← hinner]
      · rw [← hpartner.unique hstop, ← hinner]
        exact matched_of_ofTokens? hne hsearch
      · simpa using ⟨_, hpartner⟩

theorem crossed_content_ends_at_partner :
    let tokens :=
      [Kind.opening .paren, .opening .square, .opening .paren, .closing .paren,
        .closing .paren, .closing .square, .opening .paren].map (Token.ofKind · 1)
    Partner (.opening .paren) (.closing .paren) tokens 0 4 ∧
      Matched (.opening .paren) (.closing .paren) (tokens.extract 1 4) ∧
      ∀ stop, ¬ Partner (.opening .paren) (.closing .paren) tokens 6 stop := by
  intro tokens
  obtain ⟨hsome, hmatched, -⟩ :=
    (content_ends_at_partner (.opening .paren) (.closing .paren) tokens 0).1
      (by decide)
  obtain ⟨stop, hstop, -, hafter⟩ := (hsome (tokens.extract 1 4) 5).1 (by decide)
  obtain rfl : stop = 4 := by omega
  refine ⟨hstop, hmatched 4 hstop, ?_⟩
  exact
    ((content_ends_at_partner (.opening .paren) (.closing .paren) tokens 6).1
      (by decide)).2.2.1 (by decide)

end Enclosed

end ExprLang
