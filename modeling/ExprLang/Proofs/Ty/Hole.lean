import ExprLang.Proofs.Ty.Same

/-!
# Holes of types

The names of the holes of a type, and what becomes of a type when its holes are
filled.
-/

namespace ExprLang.Ty

/-! ## Names of holes -/

mutual

/-- The names of the holes, from the left, arguments before returns. -/
def holes : Ty → List String
  | .primitive _ => []
  | .hole name => [name]
  | .array element => holes element
  | .function arguments returns _ => holesAll arguments ++ holesAll returns

def holesAll : List Ty → List String
  | [] => []
  | type :: types => holes type ++ holesAll types

end

mutual

theorem hasHole_eq_false_iff : (type : Ty) → type.hasHole = false ↔ type.holes = []
  | .primitive _ | .hole _ => by simp [hasHole, holes]
  | .array element => by simpa [hasHole, holes] using hasHole_eq_false_iff element
  | .function arguments returns _ => by
      simp [hasHole, holes, anyHasHole_eq_false_iff arguments,
        anyHasHole_eq_false_iff returns]

theorem anyHasHole_eq_false_iff :
    (types : List Ty) → anyHasHole types = false ↔ holesAll types = []
  | [] => by simp [anyHasHole, holesAll]
  | type :: types => by
      simp [anyHasHole, holesAll, hasHole_eq_false_iff type,
        anyHasHole_eq_false_iff types]

end

mutual

theorem firstHole?_eq_head? : (type : Ty) → type.firstHole? = type.holes.head?
  | .primitive _ | .hole _ => rfl
  | .array element => firstHole?_eq_head? element
  | .function arguments returns _ => by
      simp [firstHole?, holes, firstHoleIn?_eq_head? arguments,
        firstHoleIn?_eq_head? returns, List.head?_append, Option.orElse_eq_or]

theorem firstHoleIn?_eq_head? :
    (types : List Ty) → firstHoleIn? types = (holesAll types).head?
  | [] => rfl
  | type :: types => by
      simp [firstHoleIn?, holesAll, firstHole?_eq_head? type,
        firstHoleIn?_eq_head? types, List.head?_append, Option.orElse_eq_or]

end

theorem firstHoleIn?_eq_none_iff {types : List Ty} :
    firstHoleIn? types = none ↔ anyHasHole types = false := by
  rw [firstHoleIn?_eq_head?, List.head?_eq_none_iff, anyHasHole_eq_false_iff]

theorem anyHasHole_iff_mem {types : List Ty} :
    anyHasHole types = false ↔ ∀ type ∈ types, type.hasHole = false := by
  induction types with
  | nil => simp [anyHasHole]
  | cons type types ih => simp [anyHasHole, ih]

mutual

@[simp] theorem holes_plain : (type : Ty) → type.plain.holes = type.holes
  | .primitive _ | .hole _ => rfl
  | .array element => by simpa [plain, holes] using holes_plain element
  | .function arguments returns _ => by
      simp [plain, holes, holesAll_plainAll arguments, holesAll_plainAll returns]

@[simp] theorem holesAll_plainAll :
    (types : List Ty) → holesAll (plainAll types) = holesAll types
  | [] => rfl
  | type :: types => by
      simp [plainAll, holesAll, holes_plain type, holesAll_plainAll types]

end

theorem holes_eq_of_same {left right : Ty} (h : left.same right = true) :
    left.holes = right.holes := by
  rw [← holes_plain left, (same_iff_plain left right).1 h, holes_plain]

theorem holesAll_eq_of_sameAll {lefts rights : List Ty}
    (h : sameAll lefts rights = true) :
    holesAll lefts = holesAll rights := by
  rw [← holesAll_plainAll lefts, (sameAll_iff_plainAll lefts rights).1 h,
    holesAll_plainAll]

theorem anyHasHole_eq_of_sameAll {lefts rights : List Ty}
    (h : sameAll lefts rights = true) (hlefts : anyHasHole lefts = false) :
    anyHasHole rights = false := by
  rw [anyHasHole_eq_false_iff] at hlefts ⊢
  rw [← holesAll_eq_of_sameAll h, hlefts]

/-! ## Filling holes -/

mutual

/-- The type with every hole replaced by what the substitution gives for it. -/
def instantiate (substitution : String → Ty) : Ty → Ty
  | .primitive base => .primitive base
  | .hole name => substitution name
  | .array element => .array (instantiate substitution element)
  | .function arguments returns tableIndex =>
      .function (instantiateAll substitution arguments)
        (instantiateAll substitution returns) tableIndex

def instantiateAll (substitution : String → Ty) : List Ty → List Ty
  | [] => []
  | type :: types =>
      instantiate substitution type :: instantiateAll substitution types

end

@[simp] theorem length_instantiateAll (substitution : String → Ty)
    (types : List Ty) :
    (instantiateAll substitution types).length = types.length := by
  induction types with
  | nil => rfl
  | cons type types ih => simp [instantiateAll, ih]

mutual

@[simp] theorem instantiate_hole : (type : Ty) → type.instantiate .hole = type
  | .primitive _ | .hole _ => rfl
  | .array element => by rw [instantiate, instantiate_hole element]
  | .function arguments returns _ => by
      rw [instantiate, instantiateAll_hole arguments, instantiateAll_hole returns]

@[simp] theorem instantiateAll_hole :
    (types : List Ty) → instantiateAll .hole types = types
  | [] => rfl
  | type :: types => by
      rw [instantiateAll, instantiate_hole type, instantiateAll_hole types]

end

mutual

theorem instantiate_congr {first second : String → Ty} :
    (type : Ty) →
      (∀ name ∈ type.holes, first name = second name) →
      type.instantiate first = type.instantiate second
  | .primitive _, _ => rfl
  | .hole name, h => h name (by simp [holes])
  | .array element, h => by
      rw [instantiate, instantiate, instantiate_congr element h]
  | .function arguments returns _, h => by
      rw [holes, List.forall_mem_append] at h
      rw [instantiate, instantiate, instantiateAll_congr arguments h.1,
        instantiateAll_congr returns h.2]

theorem instantiateAll_congr {first second : String → Ty} :
    (types : List Ty) →
      (∀ name ∈ holesAll types, first name = second name) →
      instantiateAll first types = instantiateAll second types
  | [], _ => rfl
  | type :: types, h => by
      rw [holesAll, List.forall_mem_append] at h
      rw [instantiateAll, instantiateAll, instantiate_congr type h.1,
        instantiateAll_congr types h.2]

end

mutual

theorem plain_instantiate (substitution : String → Ty) : (type : Ty) →
    (type.instantiate substitution).plain =
      type.plain.instantiate fun name => (substitution name).plain
  | .primitive _ | .hole _ => by simp [instantiate, plain]
  | .array element => by
      simp [instantiate, plain, plain_instantiate substitution element]
  | .function arguments returns _ => by
      simp [instantiate, plain, plainAll_instantiateAll substitution arguments,
        plainAll_instantiateAll substitution returns]

theorem plainAll_instantiateAll (substitution : String → Ty) : (types : List Ty) →
    plainAll (instantiateAll substitution types) =
      instantiateAll (fun name => (substitution name).plain) (plainAll types)
  | [] => rfl
  | type :: types => by
      simp [instantiateAll, plainAll, plain_instantiate substitution type,
        plainAll_instantiateAll substitution types]

end

theorem instantiateAll_same (first second : String → Ty) (types : List Ty)
    (h : ∀ name ∈ holesAll types, (first name).same (second name) = true) :
    sameAll (instantiateAll first types) (instantiateAll second types) = true := by
  rw [sameAll_iff_plainAll, plainAll_instantiateAll, plainAll_instantiateAll]
  refine instantiateAll_congr (plainAll types) fun name hname => ?_
  rw [holesAll_plainAll] at hname
  exact (same_iff_plain _ _).1 (h name hname)

theorem sameAll_instantiateAll {lefts rights : List Ty} (substitution : String → Ty)
    (h : sameAll lefts rights = true) :
    sameAll (instantiateAll substitution lefts)
        (instantiateAll substitution rights) = true := by
  rw [sameAll_iff_plainAll] at h ⊢
  rw [plainAll_instantiateAll, plainAll_instantiateAll, h]

mutual

theorem holes_instantiate (substitution : String → Ty) :
    (type : Ty) →
      (type.instantiate substitution).holes =
        type.holes.flatMap fun name => (substitution name).holes
  | .primitive _ => rfl
  | .hole name => by simp [instantiate, holes]
  | .array element => by
      simpa [instantiate, holes] using holes_instantiate substitution element
  | .function arguments returns _ => by
      simp [instantiate, holes, holesAll_instantiateAll substitution arguments,
        holesAll_instantiateAll substitution returns]

theorem holesAll_instantiateAll (substitution : String → Ty) : (types : List Ty) →
    holesAll (instantiateAll substitution types) =
      (holesAll types).flatMap fun name => (substitution name).holes
  | [] => rfl
  | type :: types => by
      simp [instantiateAll, holesAll, holes_instantiate substitution type,
        holesAll_instantiateAll substitution types]

end

end ExprLang.Ty
