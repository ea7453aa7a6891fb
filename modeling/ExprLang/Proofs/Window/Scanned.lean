import ExprLang.Proofs.Window.Juxtaposed

/-!
# Where a window of juxtaposed units is cut

The scan of a window goes from unit to unit and from operator to operator.  A piece
ends exactly where one unit comes directly after another: never inside a unit,
before an operator or after what takes the rest of the window.  This holds of all
windows, whether or not their brackets match.
-/

namespace ExprLang.Juxtaposed

variable {tokens rest piece : List Token} {position other : Nat} {token : Token}

/-! ## Units -/

theorem unitLength_bounds (h : tokens ≠ []) :
    0 < unitLength tokens ∧ unitLength tokens ≤ tokens.length := by
  have hpos := List.length_pos_iff.2 h
  unfold unitLength
  split
  · rename_i literal hliteral
    have := FunctionLiteral.length_of_ofTokens? hliteral
    omega
  · split
    · rename_i enclosed henclosed
      have := Enclosed.length_of_ofTokens? henclosed
      omega
    · split
      · rename_i enclosed henclosed
        have := Enclosed.length_of_ofTokens? henclosed
        omega
      · omega

theorem unitEnd_bounds (h : position < tokens.length) :
    position < unitEnd tokens position ∧
      unitEnd tokens position ≤ tokens.length := by
  have hrest : tokens.drop position ≠ [] := by
    rw [Ne, List.drop_eq_nil_iff]
    omega
  have hbounds := unitLength_bounds hrest
  rw [List.length_drop] at hbounds
  unfold unitEnd
  omega

/-! ## The scan -/

def next (tokens : List Token) (position : Nat) : Nat :=
  match tokens[position]? with
  | none => position
  | some token =>
      if token.kind.isOperator then position + 1
      else if token.kind.takesRest then tokens.length
      else unitEnd tokens position

/-- The positions that the scan comes to. -/
inductive Scanned (tokens : List Token) : Nat → Prop
  | start : Scanned tokens 0
  | step {position : Nat} (h : Scanned tokens position)
      (hlt : position < tokens.length) :
      Scanned tokens (next tokens position)

theorem next_of_operator (htoken : tokens[position]? = some token)
    (hoperator : token.kind.isOperator = true) :
    next tokens position = position + 1 := by
  simp [next, htoken, hoperator]

theorem isOperator_of_takesRest {kind : Kind} (h : kind.takesRest = true) :
    kind.isOperator = false := by
  cases kind <;> simp_all [Kind.isOperator, Kind.operator?, Kind.takesRest]

theorem next_of_takesRest (htoken : tokens[position]? = some token)
    (hrest : token.kind.takesRest = true) :
    next tokens position = tokens.length := by
  simp [next, htoken, isOperator_of_takesRest hrest, hrest]

theorem next_of_unit (htoken : tokens[position]? = some token)
    (hoperator : token.kind.isOperator = false)
    (hrest : token.kind.takesRest = false) :
    next tokens position = unitEnd tokens position := by
  simp [next, htoken, hoperator, hrest]

theorem next_bounds (h : position < tokens.length) :
    position < next tokens position ∧ next tokens position ≤ tokens.length := by
  have hbounds := unitEnd_bounds h
  unfold next
  split
  · rename_i hnone
    have := List.getElem?_eq_none_iff.1 hnone
    omega
  · split
    · omega
    · split <;> omega

theorem Scanned.next_le (h : Scanned tokens position)
    (hother : Scanned tokens other) (hlt : position < other) :
    next tokens position ≤ other := by
  -- The induction is on the later of two positions of the scan, so that its
  -- hypothesis also serves the case in which the step to `other` starts before
  -- `position` and would pass over it.
  induction other using Nat.strongRecOn generalizing position with
  | ind other ih =>
      cases hother with
      | start => omega
      | @step previous hprevious hinside =>
          have hbounds := next_bounds hinside
          rcases Nat.lt_trichotomy position previous with hbefore | rfl | hafter
          · have := ih previous hbounds.1 h hprevious hbefore
            omega
          · exact Nat.le_refl _
          · have := ih position hlt hprevious h hafter
            omega

/-! ## Neighbouring units -/

def BeginsUnit (tokens : List Token) (position : Nat) : Prop :=
  Scanned tokens position ∧
    ∃ token, tokens[position]? = some token ∧ token.kind.isOperator = false

def EndsUnit (tokens : List Token) (position : Nat) : Prop :=
  ∃ first token, Scanned tokens first ∧ tokens[first]? = some token ∧
    token.kind.isOperator = false ∧
    token.kind.takesRest = false ∧ unitEnd tokens first = position

/-- One unit comes directly after another. -/
def Adjoins (tokens : List Token) (position : Nat) : Prop :=
  EndsUnit tokens position ∧ BeginsUnit tokens position

theorem BeginsUnit.lt_length (h : BeginsUnit tokens position) :
    position < tokens.length := by
  obtain ⟨-, token, htoken, -⟩ := h
  exact (List.getElem?_eq_some_iff.1 htoken).1

theorem not_endsUnit_succ (h : Scanned tokens position)
    (htoken : tokens[position]? = some token)
    (hoperator : token.kind.isOperator = true) :
    ¬ EndsUnit tokens (position + 1) := by
  rintro ⟨first, begins, hfirst, hbegins, hplain, hrest, hend⟩
  have hinside := (List.getElem?_eq_some_iff.1 hbegins).1
  have hlt := (unitEnd_bounds hinside).1
  rcases Nat.lt_or_ge first position with hbefore | hge
  · have := hfirst.next_le h hbefore
    rw [next_of_unit hbegins hplain hrest] at this
    omega
  · obtain rfl : first = position := by omega
    rw [hbegins] at htoken
    cases htoken
    rw [hplain] at hoperator
    cases hoperator

section From

variable (h : Scanned tokens position) (htoken : tokens[position]? = some token)

include h htoken

theorem beginsUnit_iff :
    BeginsUnit tokens position ↔ token.kind.isOperator = false := by
  simp [BeginsUnit, h, htoken]

theorem adjoins_from_iff :
    position ≤ other ∧ Adjoins tokens other ↔
      (other = position ∧ Adjoins tokens position) ∨
        (next tokens position ≤ other ∧ Adjoins tokens other) := by
  have hnext := (next_bounds (List.getElem?_eq_some_iff.1 htoken).1).1
  constructor
  · rintro ⟨hle, hadjoins⟩
    rcases Nat.lt_or_eq_of_le hle with hbefore | rfl
    · exact .inr ⟨h.next_le hadjoins.2.1 hbefore, hadjoins⟩
    · exact .inl ⟨rfl, hadjoins⟩
  · rintro (⟨rfl, hadjoins⟩ | ⟨hle, hadjoins⟩)
    · exact ⟨Nat.le_refl _, hadjoins⟩
    · exact ⟨by omega, hadjoins⟩

private theorem adjoins_from_operator_iff
    (hoperator : token.kind.isOperator = true) :
    position ≤ other ∧ Adjoins tokens other ↔
      position + 1 ≤ other ∧ Adjoins tokens other := by
  rw [adjoins_from_iff h htoken, next_of_operator htoken hoperator]
  simp [Adjoins, beginsUnit_iff h htoken, hoperator]

private theorem adjoins_from_takesRest_iff (hrest : token.kind.takesRest = true) :
    position ≤ other ∧ Adjoins tokens other ↔
      other = position ∧ EndsUnit tokens position := by
  have hbeyond : ¬ (tokens.length ≤ other ∧ Adjoins tokens other) := by
    rintro ⟨hle, hadjoins⟩
    have := hadjoins.2.lt_length
    omega
  rw [adjoins_from_iff h htoken, next_of_takesRest htoken hrest,
    or_iff_left hbeyond]
  simp [Adjoins, beginsUnit_iff h htoken, isOperator_of_takesRest hrest]

private theorem adjoins_from_unit_iff (hoperator : token.kind.isOperator = false)
    (hrest : token.kind.takesRest = false) :
    position ≤ other ∧ Adjoins tokens other ↔
      (other = position ∧ EndsUnit tokens position) ∨
        (unitEnd tokens position ≤ other ∧ Adjoins tokens other) := by
  rw [adjoins_from_iff h htoken, next_of_unit htoken hoperator hrest]
  simp [Adjoins, beginsUnit_iff h htoken, hoperator]

end From

/-! ## Boundaries -/

/-- Where the pieces after the first begin, if the first begins at `start`. -/
def boundaries (start : Nat) : List (List Token) → List Nat
  | piece :: following :: pieces =>
      (start + piece.length) ::
        boundaries (start + piece.length) (following :: pieces)
  | _ => []

private theorem boundaries_cons (start : Nat) (piece : List Token)
    {pieces : List (List Token)} (h : pieces ≠ []) :
    boundaries start (piece :: pieces) =
      (start + piece.length) :: boundaries (start + piece.length) pieces := by
  cases pieces with
  | nil => exact absurd rfl h
  | cons following pieces => rfl

private theorem length_unit (token : Token) (rest : List Token) :
    (token :: rest.take (unitLength (token :: rest) - 1)).length =
      unitLength (token :: rest) := by
  have hbounds := unitLength_bounds (List.cons_ne_nil token rest)
  rw [List.length_cons] at hbounds
  rw [List.length_cons, List.length_take]
  omega

section Run

variable {earlier : List Token}
    (hwhole : tokens = earlier ++ (piece ++ token :: rest))

include hwhole

theorem token_at : tokens[earlier.length + piece.length]? = some token := by
  simp [hwhole]

theorem unitEnd_at :
    unitEnd tokens (earlier.length + piece.length) =
      earlier.length +
        (piece ++ token :: rest.take (unitLength (token :: rest) - 1)).length := by
  rw [List.length_append, length_unit]
  simp [unitEnd, hwhole, Nat.add_assoc]

private theorem scanned_unitEnd
    (hscanned : Scanned tokens (earlier.length + piece.length))
    (hunit : token.kind.isOperator = false)
    (hplain : token.kind.takesRest = false) :
    Scanned tokens (earlier.length +
          (piece ++ token :: rest.take (unitLength (token :: rest) - 1)).length) ∧
      EndsUnit tokens
        (earlier.length +
          (piece ++ token :: rest.take (unitLength (token :: rest) - 1)).length) := by
  have htoken := token_at hwhole
  have hend := unitEnd_at hwhole
  have hnext := hscanned.step (List.getElem?_eq_some_iff.1 htoken).1
  rw [next_of_unit htoken hunit hplain, hend] at hnext
  exact ⟨hnext, _, _, hscanned, htoken, hunit, hplain, hend⟩

end Run

/-- The scan has come to the end of `piece`, and a new piece begins with the next
unit unless it is joined. -/
theorem mem_boundaries_piecesFrom (earlier : List Token) (joined : Bool)
    (piece rest : List Token) (hwhole : tokens = earlier ++ (piece ++ rest))
    (hscanned : Scanned tokens (earlier.length + piece.length))
    (hjoined : joined = false ↔ EndsUnit tokens (earlier.length + piece.length)) :
    position ∈ boundaries earlier.length (piecesFrom joined piece rest) ↔
      earlier.length + piece.length ≤ position ∧ Adjoins tokens position := by
  -- A cut moves `piece` over to `earlier`, and positions stay those of the whole
  -- window.
  fun_induction piecesFrom joined piece rest generalizing earlier with
  | case1 joined piece =>
      have hlength : tokens.length = earlier.length + piece.length := by
        simp [hwhole]
      rw [← hlength]
      simpa [boundaries] using fun hle (hadjoins : Adjoins tokens position) => by
        have := hadjoins.2.lt_length
        omega
  | case2 joined piece token rest hoperator ih =>
      have htoken := token_at hwhole
      have hstep : earlier.length + (piece ++ [token]).length =
          earlier.length + piece.length + 1 := by
        simp [Nat.add_assoc]
      have hnext := hscanned.step (List.getElem?_eq_some_iff.1 htoken).1
      rw [next_of_operator htoken hoperator, ← hstep] at hnext
      have hends := not_endsUnit_succ hscanned htoken hoperator
      rw [← hstep] at hends
      rw [adjoins_from_operator_iff hscanned htoken hoperator, ← hstep]
      exact ih earlier (by simp [hwhole]) hnext (iff_of_false (by simp) hends)
  | case3 piece token rest hoperator hrest =>
      have hends : ¬ EndsUnit tokens (earlier.length + piece.length) :=
        fun h => by cases hjoined.2 h
      rw [adjoins_from_takesRest_iff hscanned (token_at hwhole) hrest]
      simp [boundaries, hends]
  | case4 joined piece token rest hoperator hrest hnot =>
      have hends := hjoined.1 (by simpa using hnot)
      rw [adjoins_from_takesRest_iff hscanned (token_at hwhole) hrest]
      simp [boundaries, hends]
  | case5 piece token rest hoperator hrest extra ih =>
      have hunit : token.kind.isOperator = false := by simpa using hoperator
      have hplain : token.kind.takesRest = false := by simpa using hrest
      have hends : ¬ EndsUnit tokens (earlier.length + piece.length) :=
        fun h => by cases hjoined.2 h
      obtain ⟨hnext, hended⟩ := scanned_unitEnd hwhole hscanned hunit hplain
      rw [adjoins_from_unit_iff hscanned (token_at hwhole) hunit hplain,
        unitEnd_at hwhole, or_iff_right fun h => hends h.2]
      exact ih earlier (by simp [hwhole]) hnext (iff_of_true rfl hended)
  | case6 joined piece token rest hoperator hrest extra hnot ih =>
      have hunit : token.kind.isOperator = false := by simpa using hoperator
      have hplain : token.kind.takesRest = false := by simpa using hrest
      have hends := hjoined.1 (by simpa using hnot)
      obtain ⟨hnext, hended⟩ := scanned_unitEnd hwhole hscanned hunit hplain
      have hlength : earlier.length + (piece ++ token :: rest.take extra).length =
          (earlier ++ piece).length + (token :: rest.take extra).length := by
        simp [Nat.add_assoc]
      rw [hlength] at hnext hended
      rw [adjoins_from_unit_iff hscanned (token_at hwhole) hunit hplain,
        unitEnd_at hwhole, boundaries_cons _ _ (piecesFrom_ne_nil _ _ _),
        ← List.length_append, List.mem_cons,
        ih (earlier ++ piece) (by simp [hwhole]) hnext (iff_of_true rfl hended),
        ← hlength, List.length_append, and_iff_left hends]

/-- A window is cut exactly where one unit comes directly after another. -/
theorem mem_boundaries_pieces :
    position ∈ boundaries 0 (pieces tokens) ↔ Adjoins tokens position := by
  have hstart : ¬ EndsUnit tokens 0 := by
    rintro ⟨first, token, -, htoken, -, -, hend⟩
    have := (unitEnd_bounds (List.getElem?_eq_some_iff.1 htoken).1).1
    omega
  have hmem := @mem_boundaries_piecesFrom tokens position [] true [] tokens rfl
    .start (iff_of_false (by simp) hstart)
  simpa [pieces] using hmem

/-! ## Pieces -/

def Plain (piece : List Token) : Prop :=
  ∃ first rest, piece = first :: rest ∧ first.kind.isOperator = false

private theorem Plain.append (h : Plain piece) (rest : List Token) :
    Plain (piece ++ rest) := by
  obtain ⟨first, others, rfl, hfirst⟩ := h
  exact ⟨first, others ++ rest, rfl, hfirst⟩

private theorem plain_piecesFrom (joined : Bool) (piece rest : List Token)
    (h : Plain piece) :
    ∀ other ∈ piecesFrom joined piece rest, Plain other := by
  fun_induction piecesFrom joined piece rest with
  | case1 => simpa using h
  | case2 joined piece token rest hoperator ih => exact ih (h.append _)
  | case3 piece token rest => simpa using h.append _
  | case4 joined piece token rest hoperator =>
      simpa [h] using ⟨token, rest, rfl, by simpa using hoperator⟩
  | case5 piece token rest hoperator hrest extra ih => exact ih (h.append _)
  | case6 joined piece token rest hoperator hrest extra hnot ih =>
      simpa [h] using ih ⟨token, rest.take extra, rfl, by simpa using hoperator⟩

theorem plain_tail_piecesFrom (joined : Bool) (piece rest : List Token) :
    ∀ other ∈ (piecesFrom joined piece rest).tail, Plain other := by
  fun_induction piecesFrom joined piece rest with
  | case1 => simp
  | case2 joined piece token rest hoperator ih => exact ih
  | case3 => simp
  | case4 joined piece token rest hoperator =>
      simpa using ⟨token, rest, rfl, by simpa using hoperator⟩
  | case5 piece token rest hoperator hrest extra ih => exact ih
  | case6 joined piece token rest hoperator hrest extra hnot ih =>
      exact plain_piecesFrom false _ _
        ⟨token, rest.take extra, rfl, by simpa using hoperator⟩

private theorem head_piecesFrom (joined : Bool) (piece rest : List Token)
    (h : piece ≠ [] ∨ joined = true ∧ rest ≠ []) :
    ∀ first ∈ (piecesFrom joined piece rest).head?, first ≠ [] := by
  fun_induction piecesFrom joined piece rest with
  | case1 => simpa using h
  | case2 joined piece token rest hoperator ih => exact ih (.inl (by simp))
  | case3 => simp
  | case4 => simp_all
  | case5 piece token rest hoperator hrest extra ih => exact ih (.inl (by simp))
  | case6 => simp_all

private theorem pieces_nonempty (h : tokens ≠ []) :
    ∀ piece ∈ pieces tokens, piece ≠ [] := by
  intro piece hpiece
  have hhead := head_piecesFrom true [] tokens (.inr ⟨rfl, h⟩)
  have htail := plain_tail_piecesFrom true [] tokens
  rw [pieces] at hpiece
  cases hpieces : piecesFrom true [] tokens with
  | nil => simp [hpieces] at hpiece
  | cons first others =>
      rw [hpieces] at hpiece hhead htail
      rcases List.mem_cons.1 hpiece with rfl | hother
      · exact hhead piece rfl
      · obtain ⟨_, _, rfl, -⟩ := htail piece hother
        exact List.cons_ne_nil _ _

/-! ## Consecutive units -/

private theorem next_le_of_mem_boundaries (hscanned : Scanned tokens position)
    (hboundary : other ∈ boundaries 0 (pieces tokens)) (hlt : position < other) :
    next tokens position ≤ other ∧ other < tokens.length := by
  have hbegins := (mem_boundaries_pieces.1 hboundary).2
  exact ⟨hscanned.next_le hbegins.1 hlt, hbegins.lt_length⟩

private theorem unitEnd_le_next (h : position < tokens.length) :
    unitEnd tokens position ≤ next tokens position := by
  have hbounds := unitEnd_bounds h
  have htoken := List.getElem?_eq_getElem h
  by_cases hoperator : tokens[position].kind.isOperator = true
  · have hlength : unitLength (tokens.drop position) = 1 := by
      rw [List.drop_eq_getElem_cons h]
      refine unitLength_of_head (fun bracket hkind => ?_) _
      rw [hkind] at hoperator
      cases hoperator
    exact Nat.le_of_eq (by rw [next_of_operator htoken hoperator, unitEnd, hlength])
  · by_cases hrest : tokens[position].kind.takesRest = true
    · rw [next_of_takesRest htoken hrest]
      exact hbounds.2
    · exact Nat.le_of_eq
        (next_of_unit htoken (by simpa using hoperator) (by simpa using hrest)).symm

private theorem operators_between {first last : Nat} (hfirst : Scanned tokens first)
    (hlast : last ≤ tokens.length)
    (hnone : ∀ position,
      first ≤ position → position < last → ¬ BeginsUnit tokens position) :
    ∀ position, first ≤ position → position < last →
      Scanned tokens position ∧
        ∃ token, tokens[position]? = some token ∧ token.kind.isOperator = true := by
  have hoperator (position : Nat) (hscanned : Scanned tokens position)
      (hge : first ≤ position) (hlt : position < last) : ∃ token,
      tokens[position]? = some token ∧ token.kind.isOperator = true := by
    have htoken := List.getElem?_eq_getElem (Nat.lt_of_lt_of_le hlt hlast)
    have hbegins := hnone position hge hlt
    rw [beginsUnit_iff hscanned htoken] at hbegins
    exact ⟨_, htoken, by simpa using hbegins⟩
  intro position hge
  induction hge with
  | refl => exact fun hlt => ⟨hfirst, hoperator first hfirst (Nat.le_refl _) hlt⟩
  | @step position hge ih =>
      intro hlt
      obtain ⟨hscanned, token, htoken, hplain⟩ := ih (by omega)
      have hnext := hscanned.step (List.getElem?_eq_some_iff.1 htoken).1
      rw [next_of_operator htoken hplain] at hnext
      exact ⟨hnext, hoperator _ hnext (Nat.le_succ_of_le hge) hlt⟩

private theorem operators_of_consecutive {first last : Nat}
    (hfirst : BeginsUnit tokens first) (hlast : BeginsUnit tokens last)
    (hlt : first < last)
    (hnone : ∀ position,
      first < position → position < last → ¬ BeginsUnit tokens position)
    (hpiece : ∀ boundary ∈ boundaries 0 (pieces tokens),
      ¬ (first < boundary ∧ boundary ≤ last)) :
    unitEnd tokens first < last ∧
      ∀ position, unitEnd tokens first ≤ position → position < last →
        ∃ token, tokens[position]? = some token ∧ token.kind.isOperator = true := by
  obtain ⟨hscanned, token, htoken, hoperator⟩ := hfirst
  have hinside := (List.getElem?_eq_some_iff.1 htoken).1
  have hbounds := unitEnd_bounds hinside
  have hle := hscanned.next_le hlast.1 hlt
  have hend := hlast.lt_length
  have hplain : token.kind.takesRest = false := by
    refine Bool.eq_false_iff.2 fun hrest => ?_
    rw [next_of_takesRest htoken hrest] at hle
    omega
  have hnext := hscanned.step hinside
  rw [next_of_unit htoken hoperator hplain] at hle hnext
  constructor
  · refine Nat.lt_of_le_of_ne hle fun heq =>
      hpiece last (mem_boundaries_pieces.2 ?_) ⟨hlt, Nat.le_refl _⟩
    exact ⟨⟨first, token, hscanned, htoken, hoperator, hplain, heq⟩, hlast⟩
  · intro position hge hbefore
    have hbetween :=
      operators_between hnext (by omega) fun other hother => hnone other (by omega)
    exact (hbetween position hge hbefore).2

/-! ## The partition -/

/-- The pieces cover the window, and are cut between units only. -/
structure IsPartition (tokens : List Token) (pieces : List (List Token)) :
    Prop where
  flatten : pieces.flatten = tokens
  nonempty : tokens ≠ [] → ∀ piece ∈ pieces, piece ≠ []
  plain : ∀ piece ∈ pieces.tail, Plain piece
  whole : ∀ position, Scanned tokens position → ∀ boundary ∈ boundaries 0 pieces,
    ¬ (position < boundary ∧ boundary < unitEnd tokens position)
  rest : ∀ position token, Scanned tokens position →
    tokens[position]? = some token → token.kind.takesRest = true →
    ∀ boundary ∈ boundaries 0 pieces, boundary ≤ position
  separated : ∀ first last,
    BeginsUnit tokens first → BeginsUnit tokens last → first < last →
    (∀ position,
      first < position → position < last → ¬ BeginsUnit tokens position) →
    (∀ boundary ∈ boundaries 0 pieces, ¬ (first < boundary ∧ boundary ≤ last)) →
    unitEnd tokens first < last ∧
      ∀ position, unitEnd tokens first ≤ position → position < last →
        ∃ token, tokens[position]? = some token ∧ token.kind.isOperator = true

/-- Every window falls into its pieces, and the scan that finds them always moves
forward inside the window. -/
theorem pieces_isPartition (tokens : List Token) :
    IsPartition tokens (pieces tokens) ∧
      ∀ position, position < tokens.length →
        (position < unitEnd tokens position ∧
            unitEnd tokens position ≤ tokens.length) ∧
          position < next tokens position ∧
          next tokens position ≤ tokens.length := by
  refine ⟨⟨flatten_pieces tokens, pieces_nonempty,
    plain_tail_piecesFrom true [] tokens, ?_, ?_, ?_⟩,
    ?_⟩
  · rintro position hscanned boundary hboundary ⟨hlt, hinside⟩
    have hnext := next_le_of_mem_boundaries hscanned hboundary hlt
    have hend := unitEnd_le_next (Nat.lt_trans hlt hnext.2)
    omega
  · intro position token hscanned htoken hrest boundary hboundary
    refine Nat.le_of_not_lt fun hlt => ?_
    have hnext := next_le_of_mem_boundaries hscanned hboundary hlt
    rw [next_of_takesRest htoken hrest] at hnext
    omega
  · exact fun _ _ hfirst hlast hlt hnone hpiece =>
      operators_of_consecutive hfirst hlast hlt hnone hpiece
  · exact fun position hposition =>
      ⟨unitEnd_bounds hposition, next_bounds hposition⟩

def unclosed : List Token :=
  [.ofKind .identifier 1, .ofKind (.operator .add) 1, .ofKind (.opening .paren) 1,
    .ofKind .identifier 1, .ofKind .bang 1, .ofKind .identifier 1]

theorem unclosed_isPartition :
    (unclosed ≠ [] ∧ ∀ piece ∈ pieces unclosed, piece ≠ []) ∧
      BeginsUnit unclosed 0 ∧ BeginsUnit unclosed 2 ∧
      ¬ BeginsUnit unclosed 1 ∧
      (∀ boundary ∈ boundaries 0 (pieces unclosed),
        ¬ (0 < boundary ∧ boundary ≤ 2)) ∧
      unitEnd unclosed 0 < 2 := by
  have hsecond : Scanned unclosed 1 := .step .start (by decide)
  have hfirst : BeginsUnit unclosed 0 := ⟨.start, _, rfl, rfl⟩
  have hlast : BeginsUnit unclosed 2 := ⟨.step hsecond (by decide), _, rfl, rfl⟩
  have hnone : ¬ BeginsUnit unclosed 1 := by
    simp [beginsUnit_iff hsecond rfl, Kind.isOperator, Kind.operator?]
  have hpiece : ∀ boundary ∈ boundaries 0 (pieces unclosed),
      ¬ (0 < boundary ∧ boundary ≤ 2) := by
    rintro boundary hboundary ⟨hpos, hle⟩
    obtain ⟨hends, hbegins⟩ := mem_boundaries_pieces.1 hboundary
    obtain rfl | rfl : boundary = 1 ∨ boundary = 2 := by omega
    · exact hnone hbegins
    · exact not_endsUnit_succ hsecond rfl rfl hends
  have hpartition := (pieces_isPartition unclosed).1
  refine ⟨⟨by decide, hpartition.nonempty (by decide)⟩, hfirst, hlast, hnone,
    hpiece, ?_⟩
  refine (hpartition.separated 0 2 hfirst hlast (by decide)
    (fun position hgt hlt => ?_) hpiece).1
  obtain rfl : position = 1 := by omega
  exact hnone

end ExprLang.Juxtaposed
