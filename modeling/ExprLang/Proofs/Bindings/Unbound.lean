import ExprLang.Proofs.Bindings.Matching

/-!
# Holes without a binding

Three walks go over the holes of a type, each with a recursion of its own: the test
for a hole, the search for the first one, and the replacement of all of them by what
they are bound to.  They meet the same holes in the same order.
-/

namespace ExprLang.Bindings

open Ty

section Walks

variable {bindings : Bindings} {type : Ty}

private theorem isSome_firstHole?_iff :
    type.firstHole?.isSome = true ↔ type.hasHole = true := by
  rw [firstHole?_eq_head?, List.isSome_head?, ← Bool.not_eq_false type.hasHole,
    hasHole_eq_false_iff]

theorem substitute_eq_error_iff {name : String} :
    bindings.substitute type = .error name ↔
      type.holes.find? bindings.lacks = some name := by
  rw [substitute_eq]
  cases type.holes.find? bindings.lacks <;> simp

private theorem find?_lacks_eq_some_iff {names : List String} {name : String} :
    names.find? bindings.lacks = some name ↔
      ∃ before after, names = before ++ name :: after ∧
        (∀ earlier ∈ before, bindings.Binds earlier) ∧ ¬ bindings.Binds name := by
  have hbound (earlier : String) : (!bindings.lacks earlier) = true ↔
      bindings.Binds earlier := by
    rw [Bool.not_eq_true', ← Bool.not_eq_true, lacks_eq_true_iff, Classical.not_not]
  simp only [List.find?_eq_some_iff_append, lacks_eq_true_iff, hbound]
  constructor
  · rintro ⟨hname, before, after, hnames, hbefore⟩
    exact ⟨before, after, hnames, hbefore, hname⟩
  · rintro ⟨before, after, hnames, hbefore, hname⟩
    exact ⟨hname, before, after, hnames, hbefore⟩

private theorem exists_substitute_eq_error_iff :
    (∃ name, bindings.substitute type = .error name) ↔
      ∃ name ∈ type.holes, ¬ bindings.Binds name := by
  simp only [substitute_eq_error_iff, ← Option.isSome_iff_exists, List.find?_isSome,
    lacks_eq_true_iff]

private theorem substitute_nil_eq_error_iff {name : String} :
    substitute [] type = .error name ↔ type.firstHole? = some name := by
  have hall (names : List String) : names.find? (lacks []) = names.head? := by
    cases names <;> simp [lacks]
  rw [substitute_eq_error_iff, hall, firstHole?_eq_head?]

private theorem substitute_of_holeFree (h : type.hasHole = false) :
    bindings.substitute type = .ok type := by
  rw [hasHole_eq_false_iff] at h
  have hkept : type.instantiate bindings.substitution = type.instantiate .hole :=
    instantiate_congr type (by simp [h])
  rw [substitute_eq, h, List.find?_nil, hkept, instantiate_hole, Option.elim_none]

private theorem holeFree_of_substitute {result : Ty}
    (h : bindings.substitute type = .ok result)
    (hbound : ∀ name ∈ type.holes,
      ∀ bound, bindings.find? name = some bound → bound.hasHole = false) :
    result.hasHole = false := by
  obtain ⟨hbinds, rfl⟩ := (substitute_eq_ok_iff bindings type).1 h
  rw [hasHole_eq_false_iff, holes_instantiate, List.flatMap_eq_nil_iff]
  intro name hname
  obtain ⟨bound, hfind⟩ := Option.isSome_iff_exists.1 (hbinds name hname)
  rw [substitution, hfind, Option.getD_some, ← hasHole_eq_false_iff]
  exact hbound name hname bound hfind

private theorem substitute_congr {others : Bindings}
    (h : ∀ name ∈ type.holes, others.find? name = bindings.find? name) :
    others.substitute type = bindings.substitute type := by
  have hlacks :
      type.holes.find? others.lacks = type.holes.find? bindings.lacks := by
    rw [← List.head?_filter, ← List.head?_filter]
    refine congrArg List.head? (List.filter_congr fun name hname => ?_)
    rw [lacks, lacks, h name hname]
  have hfilled : type.instantiate others.substitution =
      type.instantiate bindings.substitution := by
    refine instantiate_congr type fun name hname => ?_
    rw [substitution, substitution, h name hname]
  rw [substitute_eq, substitute_eq, hlacks, hfilled]

end Walks

/-- The three walks agree on the holes of a type, and replacing depends on nothing
but the bindings of these. -/
theorem hole_walks_agree (bindings : Bindings) (type : Ty) :
    (type.firstHole?.isSome = true ↔ type.hasHole = true) ∧
      ((∃ name, bindings.substitute type = .error name) ↔
        ∃ name ∈ type.holes, ¬ bindings.Binds name) ∧
      (∀ name, bindings.substitute type = .error name ↔
        ∃ before after, type.holes = before ++ name :: after ∧
          (∀ earlier ∈ before, bindings.Binds earlier) ∧ ¬ bindings.Binds name) ∧
      (∀ name, substitute [] type = .error name ↔ type.firstHole? = some name) ∧
      (type.hasHole = false → bindings.substitute type = .ok type) ∧
      (∀ result, bindings.substitute type = .ok result →
        (∀ name ∈ type.holes,
          ∀ bound, bindings.find? name = some bound → bound.hasHole = false) →
        result.hasHole = false) ∧
      ∀ others : Bindings,
        (∀ name ∈ type.holes, others.find? name = bindings.find? name) →
        others.substitute type = bindings.substitute type :=
  ⟨isSome_firstHole?_iff, exists_substitute_eq_error_iff,
    fun _ => substitute_eq_error_iff.trans find?_lacks_eq_some_iff,
    fun _ => substitute_nil_eq_error_iff, substitute_of_holeFree,
    fun _ => holeFree_of_substitute, fun _ => substitute_congr⟩

theorem callback_hole_walks_agree :
    let type : Ty := .function [.hole "a", .array (.hole "b")] [.hole "c"] none
    let bindings : Bindings := [("a", .int)]
    bindings.substitute type = .error "b" ∧
      substitute (("d", .bool) :: bindings) type = .error "b" ∧
      substitute [] type = .error "a" := by
  intro type bindings
  obtain ⟨-, -, hfirst, hnil, -, -, hcongr⟩ := hole_walks_agree bindings type
  have hunbound : bindings.substitute type = .error "b" :=
    (hfirst "b").2 ⟨["a"], ["c"], rfl, by simp [bindings, Binds, find?],
      by simp [bindings, Binds, find?]⟩
  refine ⟨hunbound, ?_, (hnil "a").2 rfl⟩
  rw [hcongr (("d", .bool) :: bindings)
    (by simp [type, bindings, holes, holesAll, find?]),
    hunbound]

end ExprLang.Bindings
