import ExprLang.Proofs.Bindings.Matching

/-!
# Most general bindings

Declared types that are matched one after the other are solved together: if there
are bindings at all that make the actual types of the declared ones, the match finds
the least of them, in whatever order it meets the types.
-/

namespace ExprLang.Bindings

open Ty

/-! ## Solutions -/

def matchPairs (bindings : Bindings) (pairs : List (Ty × Ty)) : Bool × Bindings :=
  bindings.matchAll (pairs.map Prod.fst) (pairs.map Prod.snd)

/-- Every declared type becomes its actual type, indices aside. -/
def Solves (bindings : Bindings) (pairs : List (Ty × Ty)) : Prop :=
  ∀ pair ∈ pairs,
    ∃ type, bindings.substitute pair.1 = .ok type ∧ type.same pair.2 = true

def Refines (later earlier : Bindings) : Prop :=
  ∀ name type, earlier.find? name = some type →
    ∃ found, later.find? name = some found ∧ found.same type = true

theorem Extends.refines {later earlier : Bindings} (h : later.Extends earlier) :
    later.Refines earlier :=
  fun name type htype => ⟨type, h name type htype, same_refl type⟩

private theorem Refines.binds {later earlier : Bindings} (h : later.Refines earlier)
    {name : String} (hbinds : earlier.Binds name) :
    later.Binds name := by
  obtain ⟨type, htype⟩ := Option.isSome_iff_exists.1 hbinds
  obtain ⟨found, hfound, -⟩ := h name type htype
  exact Option.isSome_iff_exists.2 ⟨found, hfound⟩

private theorem refines_iff_agrees {later earlier : Bindings}
    (h : ∀ name, earlier.Binds name → later.Binds name) :
    later.Refines earlier ↔ earlier.Agrees later.substitution := by
  constructor
  · intro hrefines name type htype
    obtain ⟨found, hfound, hsame⟩ := hrefines name type htype
    simpa [substitution, hfound] using same_symm hsame
  · intro hagrees name type htype
    obtain ⟨found, hfound⟩ :=
      Option.isSome_iff_exists.1 (h name (Option.isSome_iff_exists.2 ⟨type, htype⟩))
    refine ⟨found, hfound, same_symm ?_⟩
    simpa [substitution, hfound] using hagrees name type htype

private theorem mem_holesAll_map_iff {pairs : List (Ty × Ty)} {name : String} :
    name ∈ holesAll (pairs.map Prod.fst) ↔ ∃ pair ∈ pairs, name ∈ pair.1.holes := by
  induction pairs with
  | nil => simp [holesAll]
  | cons pair pairs ih => simp [holesAll, ih]

private theorem solves_cons_iff {bindings : Bindings} {pair : Ty × Ty}
    {pairs : List (Ty × Ty)} :
    bindings.Solves (pair :: pairs) ↔
      ((∀ name ∈ pair.1.holes, bindings.Binds name) ∧
          (pair.1.instantiate bindings.substitution).same pair.2 = true) ∧
        bindings.Solves pairs := by
  simp only [Solves, List.forall_mem_cons, substitute_eq_ok_iff]
  constructor
  · rintro ⟨⟨_, ⟨hbinds, rfl⟩, hsame⟩, hothers⟩
    exact ⟨⟨hbinds, hsame⟩, hothers⟩
  · rintro ⟨⟨hbinds, hsame⟩, hothers⟩
    exact ⟨⟨_, ⟨hbinds, rfl⟩, hsame⟩, hothers⟩

theorem solves_iff {bindings : Bindings} {pairs : List (Ty × Ty)} :
    bindings.Solves pairs ↔
      (∀ name ∈ holesAll (pairs.map Prod.fst), bindings.Binds name) ∧
        sameAll (instantiateAll bindings.substitution (pairs.map Prod.fst))
            (pairs.map Prod.snd) = true := by
  induction pairs with
  | nil => simp [Solves, holesAll, instantiateAll]
  | cons pair pairs ih =>
      rw [solves_cons_iff, ih]
      simp only [List.map_cons, holesAll, instantiateAll, sameAll,
        List.forall_mem_append, Bool.and_eq_true]
      exact and_and_and_comm

theorem Solves.of_perm {bindings : Bindings} {pairs others : List (Ty × Ty)}
    (h : bindings.Solves pairs) (hperm : pairs.Perm others) :
    bindings.Solves others :=
  fun pair hpair => h pair (hperm.mem_iff.2 hpair)

/-! ## Bindings stay -/

mutual

theorem matchOne_extends : (declared actual : Ty) → (before : Bindings) →
    (before.matchOne declared actual).2.Extends before
  | .hole name, actual, before => by
      unfold matchOne
      split
      · exact Extends.refl before
      · exact (gains_append_singleton ‹_›).extends_before
  | .primitive base, actual, before => by
      rw [matchOne]
      · exact Extends.refl before
      · simp
      · simp
      · simp
  | .array declared, actual, before => by
      cases actual with
      | array actual => exact matchOne_extends declared actual before
      | primitive | function | hole => exact Extends.refl before
  | .function declaredArguments declaredReturns index, actual, before => by
      cases actual with
      | function arguments returns actualIndex =>
          have hfirst := matchAll_extends declaredArguments arguments before
          simp only [matchOne]
          split
          · split
            · rename_i middle hmiddle
              rw [hmiddle] at hfirst
              exact (matchAll_extends declaredReturns returns middle).trans hfirst
            · rename_i middle hmiddle
              rw [hmiddle] at hfirst
              exact hfirst
          · exact Extends.refl before
      | primitive | array | hole => exact Extends.refl before

theorem matchAll_extends : (declareds actuals : List Ty) → (before : Bindings) →
    (before.matchAll declareds actuals).2.Extends before
  | [], actuals, before => Extends.refl before
  | declared :: declareds, actuals, before => by
      cases actuals with
      | nil => exact Extends.refl before
      | cons actual actuals =>
          have hfirst := matchOne_extends declared actual before
          simp only [matchAll]
          split
          · rename_i middle hmiddle
            rw [hmiddle] at hfirst
            exact (matchAll_extends declareds actuals middle).trans hfirst
          · rename_i middle hmiddle
            rw [hmiddle] at hfirst
            exact hfirst

end

/-! ## The least solution -/

section

variable {before after : Bindings} {pairs : List (Ty × Ty)}

theorem matchPairs_sound (h : before.matchPairs pairs = (true, after)) :
    Gains before after (holesAll (pairs.map Prod.fst)) ∧ after.Solves pairs := by
  obtain ⟨hgains, hsame⟩ := matchAll_sound _ _ (by simp) h
  exact ⟨hgains, solves_iff.2 ⟨fun name hname => hgains.binds hname, hsame⟩⟩

theorem matchPairs_complete {solution : Bindings}
    (hrefines : solution.Refines before) (hsolves : solution.Solves pairs) :
    ∃ after, before.matchPairs pairs = (true, after) ∧ solution.Refines after := by
  obtain ⟨hbinds, hsame⟩ := solves_iff.1 hsolves
  have hbefore := (refines_iff_agrees fun _ => hrefines.binds).1 hrefines
  obtain ⟨after, hafter, hagrees⟩ := matchAll_complete _ _ hbefore hsame
  refine ⟨after, hafter, (refines_iff_agrees ?_).2 hagrees⟩
  intro name hname
  rcases ((matchPairs_sound hafter).1.binds_iff name).1 hname with hold | hnew
  · exact hrefines.binds hold
  · exact hbinds name hnew

theorem refines_matchPairs {solution : Bindings}
    (hrefines : solution.Refines before) (hsolves : solution.Solves pairs) :
    solution.Refines (before.matchPairs pairs).2 := by
  obtain ⟨after, hafter, hsolution⟩ := matchPairs_complete hrefines hsolves
  rwa [hafter]

theorem matchPairs_eq_true_iff :
    (before.matchPairs pairs).1 = true ↔
      ∃ solution : Bindings, solution.Refines before ∧ solution.Solves pairs := by
  constructor
  · intro h
    obtain ⟨hgains, hsolves⟩ := matchPairs_sound (Prod.ext h rfl)
    exact ⟨_, hgains.extends_before.refines, hsolves⟩
  · rintro ⟨solution, hrefines, hsolves⟩
    obtain ⟨after, hafter, -⟩ := matchPairs_complete hrefines hsolves
    rw [hafter]

variable {others : List (Ty × Ty)} (hperm : pairs.Perm others)

include hperm

private theorem matchPairs_perm :
    (before.matchPairs others).1 = (before.matchPairs pairs).1 := by
  rw [Bool.eq_iff_iff, matchPairs_eq_true_iff, matchPairs_eq_true_iff]
  constructor
  · rintro ⟨solution, hrefines, hsolves⟩
    exact ⟨solution, hrefines, hsolves.of_perm hperm.symm⟩
  · rintro ⟨solution, hrefines, hsolves⟩
    exact ⟨solution, hrefines, hsolves.of_perm hperm⟩

private theorem refines_matchPairs_perm
    (hsuccess : (before.matchPairs pairs).1 = true) :
    (before.matchPairs pairs).2.Refines (before.matchPairs others).2 := by
  obtain ⟨hgains, hsolves⟩ := matchPairs_sound (Prod.ext hsuccess rfl)
  exact refines_matchPairs hgains.extends_before.refines (hsolves.of_perm hperm)

end

/-- Matching solves its pairs exactly when they have a solution that keeps the
bindings before, and its own solution is the least one: it binds no other holes than
it must, and every solution refines it.  So nothing depends on the order of the
pairs.  Bindings from before stay as they are, even when a pair does not match. -/
theorem matching_least_solution (before : Bindings) (pairs : List (Ty × Ty)) :
    let outcome := before.matchPairs pairs
    (outcome.1 = true ↔
        ∃ solution : Bindings, solution.Refines before ∧ solution.Solves pairs) ∧
      (outcome.1 = true →
        outcome.2.Solves pairs ∧
          (∀ name, outcome.2.Binds name ↔
            before.Binds name ∨ ∃ pair ∈ pairs, name ∈ pair.1.holes) ∧
          ∀ solution : Bindings, solution.Refines before → solution.Solves pairs →
            solution.Refines outcome.2) ∧
      (∀ others, pairs.Perm others →
        (before.matchPairs others).1 = outcome.1 ∧
          (outcome.1 = true →
            (before.matchPairs others).2.Refines outcome.2 ∧
              outcome.2.Refines (before.matchPairs others).2)) ∧
      outcome.2.Extends before := by
  intro outcome
  refine ⟨matchPairs_eq_true_iff, ?_, ?_, matchAll_extends _ _ before⟩
  · intro hsuccess
    obtain ⟨hgains, hsolves⟩ := matchPairs_sound (Prod.ext hsuccess rfl)
    refine ⟨hsolves, ?_, fun solution => refines_matchPairs⟩
    intro name
    rw [← mem_holesAll_map_iff]
    exact hgains.binds_iff name
  · intro others hperm
    have hsame : (before.matchPairs others).1 = outcome.1 := matchPairs_perm hperm
    refine ⟨hsame, ?_⟩
    intro hsuccess
    exact ⟨refines_matchPairs_perm hperm.symm (hsame.trans hsuccess),
      refines_matchPairs_perm hperm hsuccess⟩

end ExprLang.Bindings
