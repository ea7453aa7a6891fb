import ExprLang.Bindings

/-!
# Outcomes in sequence

When a sequence of computations that may fail succeeds, and what holds of its result
or of its error.
-/

namespace ExprLang.Outcome

variable {ε α β : Type}

@[simp] theorem bind_eq_ok_iff {outcome : Except ε α} {next : α → Except ε β}
    {result : β} :
    (outcome >>= next) = .ok result ↔
      ∃ value, outcome = .ok value ∧ next value = .ok result := by
  cases outcome <;> simp [bind, Except.bind]

@[simp] theorem pure_eq_ok_iff {value result : α} :
    (pure value : Except ε α) = .ok result ↔ value = result := by
  simp [pure, Except.pure]

@[simp] theorem map_eq_ok_iff {outcome : Except ε α} {change : α → β} {result : β} :
    outcome.map change = .ok result ↔
      ∃ value, outcome = .ok value ∧ change value = result := by
  cases outcome <;> simp [Except.map]

@[simp] theorem functorMap_eq_ok_iff {outcome : Except ε α} {change : α → β}
    {result : β} :
    change <$> outcome = .ok result ↔
      ∃ value, outcome = .ok value ∧ change value = result :=
  map_eq_ok_iff

@[simp] theorem throw_ne_ok {fault : ε} {result : α} :
    (throw fault : Except ε α) ≠ .ok result := by
  simp [throw, throwThe, MonadExceptOf.throw]

/-! ## Results and errors -/

/-- Results satisfy `accepts`, errors satisfy `blames`. -/
def Meets (outcome : Except ε α) (accepts : α → Prop) (blames : ε → Prop) : Prop :=
  match outcome with
  | .ok value => accepts value
  | .error fault => blames fault

variable {accepts : α → Prop} {blames : ε → Prop}

@[simp] theorem meets_ok_iff {value : α} :
    Meets (.ok value) accepts blames ↔ accepts value :=
  Iff.rfl

@[simp] theorem meets_error_iff {fault : ε} :
    Meets (.error fault) accepts blames ↔ blames fault :=
  Iff.rfl

theorem meets_iff {outcome : Except ε α} :
    Meets outcome accepts blames ↔
      (∀ value, outcome = .ok value → accepts value) ∧
        ∀ fault, outcome = .error fault → blames fault := by
  cases outcome <;> simp

namespace Meets

variable {outcome : Except ε α}

theorem of_ok (h : Meets outcome accepts blames) {value : α}
    (hok : outcome = .ok value) :
    accepts value :=
  (meets_iff.1 h).1 value hok

theorem of_error (h : Meets outcome accepts blames) {fault : ε}
    (herror : outcome = .error fault) : blames fault :=
  (meets_iff.1 h).2 fault herror

theorem mono {others : α → Prop} (h : Meets outcome accepts blames)
    (hothers : ∀ value, outcome = .ok value → accepts value → others value) :
    Meets outcome others blames := by
  cases outcome with
  | ok value => exact hothers value rfl h
  | error fault => exact h

theorem bind {others : β → Prop} {next : α → Except ε β}
    (h : Meets outcome accepts blames)
    (hnext : ∀ value,
      outcome = .ok value → accepts value → Meets (next value) others blames) :
    Meets (outcome >>= next) others blames := by
  cases outcome with
  | ok value => exact hnext value rfl h
  | error fault => exact h

theorem map {others : β → Prop} {change : α → β} (h : Meets outcome accepts blames)
    (hothers : ∀ value, accepts value → others (change value)) :
    Meets (outcome.map change) others blames := by
  cases outcome with
  | ok value => exact hothers value h
  | error fault => exact h

end Meets

/-! ## Changed outcomes -/

variable {γ δ : Type} {changeError : ε → ε} {change : α → β}

def mapBoth (changeError : ε → ε) (change : α → β) : Except ε α → Except ε β
  | .ok value => .ok (change value)
  | .error fault => .error (changeError fault)

@[simp] theorem mapBoth_ok {value : α} :
    mapBoth changeError change (.ok value) = .ok (change value) := rfl

@[simp] theorem mapBoth_error {fault : ε} :
    mapBoth changeError change (.error fault) = .error (changeError fault) := rfl

theorem mapBoth_bind {outcome : Except ε α} {next : α → Except ε γ}
    {changeNext : γ → δ} {other : β → Except ε δ}
    (h : ∀ value,
      other (change value) = mapBoth changeError changeNext (next value)) :
    (mapBoth changeError change outcome >>= other) =
      mapBoth changeError changeNext (outcome >>= next) := by
  cases outcome with
  | ok value => exact h value
  | error fault => rfl

theorem mapBoth_map {outcome : Except ε α} {next : α → γ} {changeNext : γ → δ}
    {other : β → δ} (h : ∀ value, other (change value) = changeNext (next value)) :
    (mapBoth changeError change outcome).map other =
      mapBoth changeError changeNext (outcome.map next) := by
  cases outcome with
  | ok value => exact congrArg Except.ok (h value)
  | error fault => rfl

theorem alike_of_mapBoth_eq {left right : Except ε α}
    (h : mapBoth changeError change left = mapBoth changeError change right) :
    (∃ first second,
        left = .ok first ∧ right = .ok second ∧ change first = change second) ∨
      ∃ first second, left = .error first ∧ right = .error second ∧
        changeError first = changeError second := by
  cases left with
  | ok first =>
      cases right with
      | ok second => exact .inl ⟨first, second, rfl, rfl, Except.ok.inj h⟩
      | error second => cases h
  | error first =>
      cases right with
      | ok second => cases h
      | error second => exact .inr ⟨first, second, rfl, rfl, Except.error.inj h⟩

end ExprLang.Outcome
