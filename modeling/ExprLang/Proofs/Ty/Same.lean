import ExprLang.Ty.Basic

/-!
# Equality of types

Types are compared without their table indices.  `Ty.plain` drops the indices, and
two types are the same exactly when their plain forms are equal, so that sameness is
an equivalence.
-/

namespace ExprLang.Ty

/-! ## Plain forms -/

mutual

/-- The type without table indices. -/
def plain : Ty → Ty
  | .primitive base => .primitive base
  | .array element => .array (plain element)
  | .function arguments returns _ =>
      .function (plainAll arguments) (plainAll returns) none
  | .hole name => .hole name

def plainAll : List Ty → List Ty
  | [] => []
  | type :: types => plain type :: plainAll types

end

theorem plainAll_eq_map (types : List Ty) : plainAll types = types.map plain := by
  induction types with
  | nil => rfl
  | cons type types ih => simp [plainAll, ih]

@[simp] theorem length_plainAll (types : List Ty) :
    (plainAll types).length = types.length := by
  simp [plainAll_eq_map]

mutual

@[simp] theorem plain_plain : (type : Ty) → type.plain.plain = type.plain
  | .primitive base => rfl
  | .array element => by simp [plain, plain_plain element]
  | .function arguments returns tableIndex => by
      simp [plain, plainAll_plainAll arguments, plainAll_plainAll returns]
  | .hole name => rfl

@[simp] theorem plainAll_plainAll :
    (types : List Ty) → plainAll (plainAll types) = plainAll types
  | [] => rfl
  | type :: types => by simp [plainAll, plain_plain type, plainAll_plainAll types]

end

@[simp] theorem plain_eq_primitive_iff {type : Ty} {base : Primitive} :
    type.plain = .primitive base ↔ type = .primitive base := by
  cases type <;> simp [plain]

/-! ## Sameness -/

mutual

theorem same_iff_plain :
    (left right : Ty) → left.same right = true ↔ left.plain = right.plain
  | .primitive left, right => by cases right <;> simp [same, plain]
  | .array left, right => by
      cases right with
      | array right => simpa [same, plain] using same_iff_plain left right
      | primitive | function | hole => simp [same, plain]
  | .function leftArguments leftReturns leftIndex, right => by
      cases right with
      | function rightArguments rightReturns rightIndex =>
          simp [same, plain, sameAll_iff_plainAll leftArguments rightArguments,
            sameAll_iff_plainAll leftReturns rightReturns]
      | primitive | array | hole => simp [same, plain]
  | .hole left, right => by cases right <;> simp [same, plain]

theorem sameAll_iff_plainAll :
    (lefts rights : List Ty) → sameAll lefts rights = true ↔
      plainAll lefts = plainAll rights
  | [], rights => by cases rights <;> simp [sameAll, plainAll]
  | left :: lefts, rights => by
      cases rights with
      | nil => simp [sameAll, plainAll]
      | cons right rights =>
          simp [sameAll, plainAll, same_iff_plain left right,
            sameAll_iff_plainAll lefts rights]

end

@[simp] theorem same_refl (type : Ty) : type.same type = true :=
  (same_iff_plain type type).2 rfl

@[simp] theorem sameAll_refl (types : List Ty) : sameAll types types = true :=
  (sameAll_iff_plainAll types types).2 rfl

theorem same_symm {left right : Ty} (h : left.same right = true) :
    right.same left = true :=
  (same_iff_plain right left).2 ((same_iff_plain left right).1 h).symm

theorem same_trans {first second third : Ty} (h₁ : first.same second = true)
    (h₂ : second.same third = true) : first.same third = true := by
  rw [same_iff_plain] at h₁ h₂ ⊢
  exact h₁.trans h₂

theorem sameAll_symm {lefts rights : List Ty} (h : sameAll lefts rights = true) :
    sameAll rights lefts = true :=
  (sameAll_iff_plainAll rights lefts).2
    ((sameAll_iff_plainAll lefts rights).1 h).symm

theorem sameAll_trans {first second third : List Ty}
    (h₁ : sameAll first second = true) (h₂ : sameAll second third = true) :
    sameAll first third = true := by
  rw [sameAll_iff_plainAll] at h₁ h₂ ⊢
  exact h₁.trans h₂

theorem sameAll_nil_iff {types : List Ty} :
    sameAll [] types = true ↔ types = [] := by
  cases types <;> simp [sameAll]

theorem length_eq_of_sameAll {lefts rights : List Ty}
    (h : sameAll lefts rights = true) :
    lefts.length = rights.length := by
  have := congrArg List.length ((sameAll_iff_plainAll lefts rights).1 h)
  simpa using this

@[simp] theorem sameAll_primitive_iff {types : List Ty} {base : Primitive} :
    sameAll types [.primitive base] = true ↔ types = [.primitive base] := by
  rw [sameAll_iff_plainAll]
  cases types with
  | nil => simp [plainAll]
  | cons type types => cases types <;> simp [plainAll, plain]

theorem sameAll_append {lefts rights others more : List Ty}
    (h : sameAll lefts rights = true) (hothers : sameAll others more = true) :
    sameAll (lefts ++ others) (rights ++ more) = true := by
  rw [sameAll_iff_plainAll] at h hothers ⊢
  simp only [plainAll_eq_map, List.map_append] at h hothers ⊢
  rw [h, hothers]

theorem same_of_mem_of_sameAll {type : Ty} {lefts rights : List Ty}
    (h : sameAll lefts rights = true)
    (hrights : ∀ right ∈ rights, type.same right = true) :
    ∀ left ∈ lefts, type.same left = true := by
  rw [sameAll_iff_plainAll, plainAll_eq_map, plainAll_eq_map] at h
  intro left hleft
  have hmem : left.plain ∈ rights.map plain := h ▸ List.mem_map_of_mem hleft
  obtain ⟨right, hright, hplain⟩ := List.mem_map.1 hmem
  exact same_trans (hrights right hright) ((same_iff_plain right left).2 hplain)

theorem exists_of_sameAll_singleton {types : List Ty} {type : Ty}
    (h : sameAll types [type] = true) :
    ∃ found, types = [found] ∧ found.same type = true := by
  match types with
  | [found] => exact ⟨found, rfl, by simpa [sameAll] using h⟩
  | [] => simp [sameAll] at h
  | _ :: _ :: _ => simp [sameAll] at h

theorem exists_of_same_function {type : Ty} {arguments returns : List Ty}
    {index : Option UInt32}
    (h : type.same (.function arguments returns index) = true) :
    ∃ otherArguments otherReturns otherIndex,
      type = .function otherArguments otherReturns otherIndex ∧
      sameAll otherArguments arguments = true ∧
      sameAll otherReturns returns = true := by
  cases type with
  | function otherArguments otherReturns otherIndex =>
      simp only [same, Bool.and_eq_true] at h
      exact ⟨otherArguments, otherReturns, otherIndex, rfl, h.1, h.2⟩
  | primitive | array | hole => simp [same] at h

end ExprLang.Ty
