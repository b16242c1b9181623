import GatedConsole.Json.Reader
import GatedConsole.Json.Writer
import GatedConsole.Proofs.Text.Numeral
import GatedConsole.Proofs.Text.Words

/-!
Whole numbers and the words for values, there and back. Main statement: a scalar that is no string
and no float is read as it was written, if what stands behind it does not go on with the number.
-/

set_option autoImplicit false
set_option relaxedAutoImplicit false

namespace GatedConsole

namespace Json

theorem asciiValue_ofNat (n : Nat) : asciiValue (Text.ofNat n) = n :=
  Text.ofDigits_ofNat n

/-- What stands behind a value that is written: nothing, the end of a line or a comma. -/
def Stops (rest : Text) : Prop :=
  ∀ c r, rest = c :: r → c = CodePoint.ofChar ',' ∨ c = CodePoint.ofChar '\n'

theorem stops_nil : Stops [] := nofun

theorem stops_comma (r : Text) : Stops (CodePoint.ofChar ',' :: r) := by
  rintro c r' ⟨⟩
  exact .inl rfl

theorem stops_newline (r : Text) : Stops (CodePoint.ofChar '\n' :: r) := by
  rintro c r' ⟨⟩
  exact .inr rfl

section Number

variable {rest : Text}

private theorem takeWhile_digits (stops : Stops rest) (n : Nat) :
    (Text.ofNat n ++ rest).takeWhile CodePoint.isAsciiDigit = Text.ofNat n := by
  rw [List.takeWhile_append_of_pos fun c mem => Text.isAsciiDigit_of_mem_ofNat mem]
  cases rest with
  | nil => rw [List.takeWhile_nil, List.append_nil]
  | cons c r =>
    have other : ¬c.isAsciiDigit = true := by
      rcases stops c r rfl with rfl | rfl <;> decide
    rw [List.takeWhile_cons_of_neg other, List.append_nil]

theorem wholePart_ofNat (stops : Stops rest) (n : Nat) :
    wholePart (Text.ofNat n ++ rest) = Text.ofNat n := by
  rw [wholePart, takeWhile_digits stops]
  by_cases positive : 0 < n
  · obtain ⟨c, digits, head, other⟩ := Text.ofNat_eq_cons positive
    rw [head]
    exact if_neg other
  · obtain rfl : n = 0 := by omega
    rfl

theorem fractionPart_of_stops (stops : Stops rest) : fractionPart rest = ([], rest) := by
  cases rest with
  | nil => rfl
  | cons c r =>
    have other : c ≠ CodePoint.ofChar '.' := by
      rcases stops c r rfl with rfl | rfl <;> decide
    exact if_neg fun point => other point.1

theorem exponentPart?_of_stops (stops : Stops rest) : exponentPart? rest = none := by
  cases rest with
  | nil => rfl
  | cons c r =>
    have other : ¬(c = CodePoint.ofChar 'e' ∨ c = CodePoint.ofChar 'E') := by
      rcases stops c r rfl with rfl | rfl <;> decide
    exact if_neg other

theorem readNumber_ofNat (stops : Stops rest) {n : Nat}
    (short : (Text.ofNat n).length ≤ Text.numeralLimit) (negative : Bool) :
    readNumber negative (Text.ofNat n ++ rest) = .ok (.int (if negative then -n else n), rest) := by
  simp only [readNumber, wholePart_ofNat stops, if_neg (Text.ofNat_ne_nil n), List.drop_left,
    fractionPart_of_stops stops, exponentPart?_of_stops stops, if_neg (Nat.not_lt.2 short),
    asciiValue_ofNat, ne_eq, not_true_eq_false, if_false]

end Number

private theorem readScalar_of_no_word {c : CodePoint} {r : Text}
    (h : ∀ entry ∈ wordsForValues, Text.behind? (c :: r) entry.1 = none) :
    readScalar (c :: r) =
      if c = CodePoint.ofChar '-' then readNumber true r else readNumber false (c :: r) := by
  rw [readScalar.eq_def]
  split
  · rename_i found
    obtain ⟨entry, mem, word⟩ := List.exists_of_findSome?_eq_some found
    dsimp only at word
    rw [h entry mem] at word
    cases word
  · rfl

private theorem no_word_of_digit {c : CodePoint} (digit : c.isAsciiDigit = true) (r : Text) :
    ∀ entry ∈ wordsForValues, Text.behind? (c :: r) entry.1 = none := by
  have first (d : CodePoint) (mark : Text) (letter : d.isAsciiDigit = false) :
      Text.behind? (c :: r) (d :: mark) = none := by
    apply Text.behind?_of_ne
    rintro rfl
    rw [digit] at letter
    cases letter
  simp only [wordsForValues, List.mem_cons, List.not_mem_nil, or_false]
  rintro entry (rfl | rfl | rfl | rfl | rfl | rfl)
  · exact first 'n' "ull" (by decide)
  · exact first 't' "rue" (by decide)
  · exact first 'f' "alse" (by decide)
  · exact first 'N' "aN" (by decide)
  · exact first 'I' "nfinity" (by decide)
  · exact first '-' "Infinity" (by decide)

private theorem no_word_of_minus {c : CodePoint} (digit : c.isAsciiDigit = true) (r : Text) :
    ∀ entry ∈ wordsForValues, Text.behind? (CodePoint.ofChar '-' :: c :: r) entry.1 = none := by
  have first (d : CodePoint) (mark : Text) (other : d ≠ CodePoint.ofChar '-') :
      Text.behind? (CodePoint.ofChar '-' :: c :: r) (d :: mark) = none :=
    Text.behind?_of_ne other _ _
  simp only [wordsForValues, List.mem_cons, List.not_mem_nil, or_false]
  rintro entry (rfl | rfl | rfl | rfl | rfl | rfl)
  · exact first 'n' "ull" (by decide)
  · exact first 't' "rue" (by decide)
  · exact first 'f' "alse" (by decide)
  · exact first 'N' "aN" (by decide)
  · exact first 'I' "nfinity" (by decide)
  · have other : CodePoint.ofChar 'I' ≠ c := by
      rintro rfl
      cases digit
    change Text.behind? _
      (CodePoint.ofChar '-' :: CodePoint.ofChar 'I' :: ("nfinity" : Text)) = none
    simp [Text.behind?, other]

/-- A whole number begins with a digit, or with its sign. -/
theorem ofInt_eq_cons (i : Int) :
    ∃ c r, Text.ofInt i = c :: r ∧ (c = CodePoint.ofChar '-' ∨ c.isAsciiDigit = true) := by
  unfold Text.ofInt
  split
  · exact ⟨'-', _, rfl, .inl rfl⟩
  · cases head : Text.ofNat i.natAbs with
    | nil => exact absurd head (Text.ofNat_ne_nil _)
    | cons c digits =>
      exact ⟨c, digits, rfl, .inr (Text.isAsciiDigit_of_mem_ofNat (head ▸ List.mem_cons_self))⟩

/-- A whole number is read as it was written. -/
theorem readScalar_ofInt {rest : Text} (stops : Stops rest) {i : Int}
    (short : (Text.ofNat i.natAbs).length ≤ Text.numeralLimit) :
    readScalar (Text.ofInt i ++ rest) = .ok (.int i, rest) := by
  have digit (c : CodePoint) (digits : Text) (head : Text.ofNat i.natAbs = c :: digits) :
      c.isAsciiDigit = true :=
    Text.isAsciiDigit_of_mem_ofNat (head ▸ List.mem_cons_self)
  cases head : Text.ofNat i.natAbs with
  | nil => exact absurd head (Text.ofNat_ne_nil _)
  | cons c digits =>
    have its_digit := digit c digits head
    unfold Text.ofInt
    split
    · rename_i negative
      have parts : ("-" ++ Text.ofNat i.natAbs : Text) ++ rest =
          CodePoint.ofChar '-' :: (Text.ofNat i.natAbs ++ rest) := rfl
      have no_word := no_word_of_minus its_digit (digits ++ rest)
      rw [← List.cons_append, ← head] at no_word
      rw [parts, readScalar_of_no_word no_word, if_pos rfl, readNumber_ofNat stops short,
        if_pos rfl]
      congr 3
      omega
    · rename_i positive
      have other : c ≠ CodePoint.ofChar '-' := by
        rintro rfl
        cases its_digit
      rw [head, List.cons_append, readScalar_of_no_word (no_word_of_digit its_digit _),
        if_neg other, ← List.cons_append, ← head, readNumber_ofNat stops short]
      congr 3
      simp only [Bool.false_eq_true, if_false]
      omega

end Json

end GatedConsole
