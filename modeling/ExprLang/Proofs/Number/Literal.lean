import ExprLang.Number.Literal
import ExprLang.Tree.Printer

/-!
# Number literals are read

The digits of a number have its value, and a printed integer that is not negative is
read as itself.  Digits with a point among or after them are read as some number.
-/

namespace ExprLang.Number

theorem all_isDigit_toDigits (number : Nat) :
    ∀ digit ∈ Nat.toDigits 10 number, digit.isDigit = true :=
  fun _ hdigit => Nat.isDigit_of_mem_toDigits (by decide) (by decide) hdigit

private theorem natural?_toDigits (number : Nat) :
    natural? (Nat.toDigits 10 number) = some number := by
  have hall : (Nat.toDigits 10 number).all Char.isDigit = true :=
    List.all_eq_true.2 (all_isDigit_toDigits number)
  have hvalue : value (Nat.toDigits 10 number) = number :=
    Nat.ofDigitChars_ten_toDigits
  rw [natural?, hall, hvalue, if_pos]
  simp [Nat.toDigits_ne_nil]

theorem spanSign_of_isDigit {first : Char} (h : first.isDigit = true)
    (rest : List Char) :
    spanSign (first :: rest) = (false, first :: rest) := by
  unfold spanSign
  split
  · rename_i heq
    cases heq
    exact absurd h (by decide)
  · rename_i heq
    cases heq
    exact absurd h (by decide)
  · rfl

theorem int64?_printInteger {number : Int64} (h : 0 ≤ number.toInt) :
    int64? (printInteger number) = some number := by
  have hbound := number.toInt_lt
  have hcast : (number.toInt.natAbs : Int) = number.toInt := Int.natAbs_of_nonneg h
  have hvalue := natural?_toDigits number.toInt.natAbs
  have hdigits := all_isDigit_toDigits number.toInt.natAbs
  rw [printInteger, if_neg (by omega), int64?, Nat.toList_repr]
  cases htext : Nat.toDigits 10 number.toInt.natAbs with
  | nil => exact absurd htext Nat.toDigits_ne_nil
  | cons first rest =>
      rw [htext] at hvalue hdigits
      rw [spanSign_of_isDigit (hdigits first List.mem_cons_self)]
      simp only [hvalue, Bool.false_eq_true, if_false]
      rw [if_pos (by omega), hcast, Int64.ofInt_toInt]

/-! ## Numbers with a point -/

private theorem spanDigits_append {digits : List Char}
    (h : digits.all Char.isDigit = true) (rest : List Char)
    (hrest : rest.head?.any Char.isDigit = false) :
    spanDigits (digits ++ rest) = (digits, rest) := by
  have hall := List.all_eq_true.1 h
  unfold spanDigits
  rw [List.takeWhile_append_of_pos hall, List.dropWhile_append_of_pos hall]
  cases rest with
  | nil => simp
  | cons other rest =>
      have hother : ¬ other.isDigit = true := by simpa using hrest
      rw [List.takeWhile_cons_of_neg hother, List.dropWhile_cons_of_neg hother,
        List.append_nil]

theorem exists_float_of_isDigit {first : Char} {whole fraction : List Char}
    (hfirst : first.isDigit = true) (hwhole : whole.all Char.isDigit = true)
    (hfraction : fraction.all Char.isDigit = true) :
    ∃ number,
      float (String.ofList (first :: (whole ++ '.' :: fraction))) = .ok number := by
  have hdigits : (first :: whole).all Char.isDigit = true := by
    simp [hfirst, hwhole]
  have hwholeSpan := spanDigits_append hdigits ('.' :: fraction) rfl
  have hfractionSpan := spanDigits_append hfraction [] rfl
  rw [List.append_nil] at hfractionSpan
  rw [List.cons_append] at hwholeSpan
  simp [float, spanSign_of_isDigit hfirst, unsignedDecimal?, hwholeSpan,
    hfractionSpan, exponent?]

end ExprLang.Number
