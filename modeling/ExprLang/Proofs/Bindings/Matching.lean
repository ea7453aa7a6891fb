import ExprLang.Proofs.Outcome
import ExprLang.Proofs.Ty.Hole

/-!
# Matching of declared types

Bindings are a substitution on the holes that they bind.  A match that succeeds
makes the actual type of the declared one, binds the holes of the declared type and
no others, and agrees with every substitution that makes the actual type of the
declared one; where there is such a substitution, the match succeeds.
-/

namespace ExprLang.Bindings

open Ty Outcome

/-! ## Bindings as substitutions -/

def substitution (bindings : Bindings) (name : String) : Ty :=
  (bindings.find? name).getD (.hole name)

def Binds (bindings : Bindings) (name : String) : Prop :=
  (bindings.find? name).isSome

def Extends (later earlier : Bindings) : Prop :=
  ∀ name type, earlier.find? name = some type → later.find? name = some type

def Agrees (bindings : Bindings) (substitution : String → Ty) : Prop :=
  ∀ name type,
    bindings.find? name = some type → type.same (substitution name) = true

theorem Extends.refl (bindings : Bindings) : bindings.Extends bindings :=
  fun _ _ h => h

theorem Extends.trans {first second third : Bindings} (h₁ : third.Extends second)
    (h₂ : second.Extends first) : third.Extends first :=
  fun name type h => h₁ name type (h₂ name type h)

private theorem Extends.substitution_eq {later earlier : Bindings}
    (h : later.Extends earlier) {name : String} (hbinds : earlier.Binds name) :
    later.substitution name = earlier.substitution name := by
  obtain ⟨type, htype⟩ := Option.isSome_iff_exists.1 hbinds
  simp [substitution, htype, h name type htype]

@[simp] theorem find?_nil (name : String) : find? name [] = none := rfl

theorem agrees_nil (substitution : String → Ty) : Agrees [] substitution := by
  intro name type h
  simp at h

theorem not_binds_nil (name : String) : ¬ Binds [] name := by
  simp [Binds]

theorem find?_append_singleton (bindings : Bindings) (hole name : String)
    (type : Ty) :
    (bindings ++ [(hole, type)]).find? name =
      (bindings.find? name).or (if hole = name then some type else none) := by
  induction bindings with
  | nil => simp [find?]
  | cons binding bindings ih =>
      obtain ⟨other, bound⟩ := binding
      by_cases h : other = name
      · simp [find?, h]
      · simpa [find?, h] using ih

def lacks (bindings : Bindings) (name : String) : Bool :=
  (bindings.find? name).isNone

theorem lacks_eq_true_iff {bindings : Bindings} {name : String} :
    bindings.lacks name = true ↔ ¬ bindings.Binds name := by
  simp [lacks, Binds]

theorem find?_lacks_eq_none_iff {bindings : Bindings} {names : List String} :
    names.find? bindings.lacks = none ↔ ∀ name ∈ names, bindings.Binds name := by
  simp [lacks_eq_true_iff]

mutual

/-- The first hole without a binding is the error; if there is none, the holes are
filled. -/
theorem substitute_eq (bindings : Bindings) :
    (type : Ty) →
      bindings.substitute type =
        (type.holes.find? bindings.lacks).elim
          (.ok (type.instantiate bindings.substitution)) .error
  | .primitive _ => rfl
  | .hole name => by
      cases h : bindings.find? name <;>
        simp [substitute, holes, instantiate, lacks, substitution, h]
  | .array element => by
      rw [substitute, substitute_eq bindings element, holes, instantiate]
      cases element.holes.find? bindings.lacks <;> rfl
  | .function arguments returns _ => by
      rw [substitute, substituteAll_eq bindings arguments,
        substituteAll_eq bindings returns, holes, instantiate, List.find?_append]
      cases (holesAll arguments).find? bindings.lacks <;>
        cases (holesAll returns).find? bindings.lacks <;> rfl

theorem substituteAll_eq (bindings : Bindings) :
    (types : List Ty) →
      bindings.substituteAll types =
        ((holesAll types).find? bindings.lacks).elim
          (.ok (instantiateAll bindings.substitution types)) .error
  | [] => rfl
  | type :: types => by
      rw [substituteAll, substitute_eq bindings type,
        substituteAll_eq bindings types, holesAll, instantiateAll,
        List.find?_append]
      cases type.holes.find? bindings.lacks <;>
        cases (holesAll types).find? bindings.lacks <;> rfl

end

theorem substitute_eq_ok_iff (bindings : Bindings) (type : Ty) {result : Ty} :
    bindings.substitute type = .ok result ↔
      (∀ name ∈ type.holes, bindings.Binds name) ∧
        result = type.instantiate bindings.substitution := by
  rw [substitute_eq, ← find?_lacks_eq_none_iff]
  cases type.holes.find? bindings.lacks <;> simp [eq_comm]

theorem substituteAll_eq_ok_iff (bindings : Bindings) (types : List Ty)
    {results : List Ty} :
    bindings.substituteAll types = .ok results ↔
      (∀ name ∈ holesAll types, bindings.Binds name) ∧
        results = instantiateAll bindings.substitution types := by
  rw [substituteAll_eq, ← find?_lacks_eq_none_iff]
  cases (holesAll types).find? bindings.lacks <;> simp [eq_comm]

/-! ## Successful matches -/

/-- What a successful match of declared types with the holes `names` adds to the
bindings. -/
structure Gains (before after : Bindings) (names : List String) : Prop where
  extends_before : after.Extends before
  binds_iff : ∀ name, after.Binds name ↔ before.Binds name ∨ name ∈ names

theorem Gains.nil (bindings : Bindings) : Gains bindings bindings [] :=
  ⟨Extends.refl bindings, by simp⟩

theorem Gains.append {first second third : Bindings} {names others : List String}
    (h₁ : Gains first second names) (h₂ : Gains second third others) :
    Gains first third (names ++ others) where
  extends_before := h₂.extends_before.trans h₁.extends_before
  binds_iff name := by
    rw [h₂.binds_iff, h₁.binds_iff, List.mem_append, or_assoc]

theorem Gains.binds {before after : Bindings} {names : List String}
    (h : Gains before after names) {name : String} (hname : name ∈ names) :
    after.Binds name :=
  (h.binds_iff name).2 (.inr hname)

theorem gains_append_singleton {bindings : Bindings} {hole : String}
    {type : Ty} (h : bindings.find? hole = none) :
    Gains bindings (bindings ++ [(hole, type)]) [hole] where
  extends_before := by
    intro name bound hbound
    simp [find?_append_singleton, hbound]
  binds_iff name := by
    by_cases hname : hole = name
    · subst hname
      simp [Binds, find?_append_singleton, h]
    · simp [Binds, find?_append_singleton, hname, Ne.symm hname]

theorem Extends.instantiateAll_same {later earlier : Bindings}
    (h : later.Extends earlier) (types : List Ty)
    (hbinds : ∀ name ∈ holesAll types, earlier.Binds name) :
    sameAll (instantiateAll earlier.substitution types)
        (instantiateAll later.substitution types) = true := by
  apply Ty.instantiateAll_same
  intro name hname
  rw [h.substitution_eq (hbinds name hname)]
  exact same_refl _

mutual

theorem matchOne_sound : (declared actual : Ty) → {before after : Bindings} →
    before.matchOne declared actual = (true, after) →
    Gains before after declared.holes ∧
      (declared.instantiate after.substitution).same actual = true
  | .hole name, actual, before, after => by
      intro h
      unfold matchOne at h
      split at h
      · rename_i bound hbound
        simp only [Prod.mk.injEq] at h
        obtain ⟨hsame, rfl⟩ := h
        refine ⟨⟨Extends.refl before, ?_⟩, ?_⟩
        · intro other
          have : before.Binds name := by simp [Binds, hbound]
          constructor
          · exact .inl
          · rintro (hother | hother)
            · exact hother
            · rw [holes, List.mem_singleton] at hother
              rwa [hother]
        · simpa [instantiate, substitution, hbound] using hsame
      · rename_i hbound
        simp only [Prod.mk.injEq, true_and] at h
        subst h
        refine ⟨gains_append_singleton hbound, ?_⟩
        simp [instantiate, substitution, find?_append_singleton, hbound]
  | .primitive base, actual, before, after => by
      intro h
      rw [matchOne] at h
      · simp only [Prod.mk.injEq] at h
        obtain ⟨hsame, rfl⟩ := h
        exact ⟨Gains.nil before, hsame⟩
      · simp
      · simp
      · simp
  | .array declared, actual, before, after => by
      intro h
      cases actual with
      | array actual => exact matchOne_sound declared actual h
      | primitive | function | hole => simp [matchOne, same] at h
  | .function declaredArguments declaredReturns index, actual, before, after => by
      intro h
      cases actual with
      | function arguments returns actualIndex =>
          simp only [matchOne] at h
          split at h
          · rename_i hlengths
            split at h
            · rename_i middle hmiddle
              have first :=
                matchAll_sound declaredArguments arguments hlengths.1 hmiddle
              have second := matchAll_sound declaredReturns returns hlengths.2 h
              refine ⟨first.1.append second.1, ?_⟩
              have kept := second.1.extends_before.instantiateAll_same
                declaredArguments fun name hname => first.1.binds hname
              simp [instantiate, same, second.2,
                sameAll_trans (sameAll_symm kept) first.2]
            · simp at h
          · simp at h
      | primitive | array | hole => simp [matchOne, same] at h

theorem matchAll_sound :
    (declareds actuals : List Ty) → declareds.length = actuals.length →
      {before after : Bindings} →
      before.matchAll declareds actuals = (true, after) →
      Gains before after (holesAll declareds) ∧
        sameAll (instantiateAll after.substitution declareds) actuals = true
  | [], actuals, hlength, before, after => by
      intro h
      cases actuals with
      | nil =>
          simp only [matchAll, Prod.mk.injEq, true_and] at h
          subst h
          exact ⟨Gains.nil before, rfl⟩
      | cons => simp at hlength
  | declared :: declareds, actuals, hlength, before, after => by
      intro h
      cases actuals with
      | nil => simp at hlength
      | cons actual actuals =>
          simp only [matchAll] at h
          split at h
          · rename_i middle hmiddle
            have first := matchOne_sound declared actual hmiddle
            have second :=
              matchAll_sound declareds actuals (by simpa using hlength) h
            refine ⟨first.1.append second.1, ?_⟩
            have kept := second.1.extends_before.instantiateAll_same [declared]
              fun name hname => first.1.binds (by simpa [holesAll] using hname)
            simp only [instantiateAll, sameAll, Bool.and_true] at kept
            simp [instantiateAll, sameAll, second.2,
              same_trans (same_symm kept) first.2]
          · simp at h

end

/-! ## Matches that must succeed -/

mutual

theorem matchOne_complete {substitution : String → Ty} :
    (declared actual : Ty) →
      {before : Bindings} → before.Agrees substitution →
      (declared.instantiate substitution).same actual = true →
      ∃ after,
        before.matchOne declared actual = (true, after) ∧ after.Agrees substitution
  | .hole name, actual, before => by
      intro hbefore h
      unfold matchOne
      split
      · rename_i bound hbound
        exact ⟨before, by simp [same_trans (hbefore name bound hbound) h], hbefore⟩
      · rename_i hbound
        refine ⟨_, rfl, ?_⟩
        intro other type htype
        rw [find?_append_singleton] at htype
        cases hother : before.find? other with
        | some found =>
            simp only [hother, Option.some_or, Option.some.injEq] at htype
            subst htype
            exact hbefore other found hother
        | none =>
            by_cases hname : name = other
            · simp only [hother, hname, if_true, Option.none_or,
                Option.some.injEq] at htype
              subst htype hname
              exact same_symm h
            · simp [hother, hname] at htype
  | .primitive base, actual, before => by
      intro hbefore h
      refine ⟨before, ?_, hbefore⟩
      rw [matchOne]
      · simpa [instantiate] using h
      · simp
      · simp
      · simp
  | .array declared, actual, before => by
      intro hbefore h
      cases actual with
      | array actual =>
          simpa [matchOne] using matchOne_complete declared actual hbefore
            (by simpa [instantiate, same] using h)
      | primitive | function | hole => simp [instantiate, same] at h
  | .function declaredArguments declaredReturns index, actual, before => by
      intro hbefore h
      cases actual with
      | function arguments returns actualIndex =>
          simp only [instantiate, same, Bool.and_eq_true] at h
          obtain ⟨middle, hmiddle, magrees⟩ :=
            matchAll_complete declaredArguments arguments hbefore h.1
          obtain ⟨after, hafter, agrees⟩ :=
            matchAll_complete declaredReturns returns magrees h.2
          have hargumentsLength := length_eq_of_sameAll h.1
          have hreturnsLength := length_eq_of_sameAll h.2
          simp only [length_instantiateAll] at hargumentsLength hreturnsLength
          exact ⟨after,
            by simp [matchOne, hargumentsLength, hreturnsLength, hmiddle, hafter],
            agrees⟩
      | primitive | array | hole => simp [instantiate, same] at h

theorem matchAll_complete {substitution : String → Ty} :
    (declareds actuals : List Ty) →
      {before : Bindings} → before.Agrees substitution →
      sameAll (instantiateAll substitution declareds) actuals = true →
      ∃ after, before.matchAll declareds actuals = (true, after) ∧
        after.Agrees substitution
  | [], actuals, before => by
      intro hbefore h
      exact ⟨before, by cases actuals <;> simp [matchAll], hbefore⟩
  | declared :: declareds, actuals, before => by
      intro hbefore h
      cases actuals with
      | nil => simp [instantiateAll, sameAll] at h
      | cons actual actuals =>
          simp only [instantiateAll, sameAll, Bool.and_eq_true] at h
          obtain ⟨middle, hmiddle, magrees⟩ :=
            matchOne_complete declared actual hbefore h.1
          obtain ⟨after, hafter, agrees⟩ :=
            matchAll_complete declareds actuals magrees h.2
          exact ⟨after, by simp [matchAll, hmiddle, hafter], agrees⟩

end

end ExprLang.Bindings
