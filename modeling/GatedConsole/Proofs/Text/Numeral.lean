import GatedConsole.Text.Numeral

/-!
The numerals of naturals, as they are written, and the numerals of integers, as they are typed. The
first are digits of ASCII, they do not begin with a zero unless the number is zero, and they are
worth their number. Main statement: a text is read as a number exactly when it is a numeral of that
number.
-/

set_option autoImplicit false
set_option relaxedAutoImplicit false

namespace GatedConsole.Text

theorem isAsciiDigit_of_isDigit {d : Char} (h : d.isDigit = true) :
    (CodePoint.ofChar d).isAsciiDigit = true := by
  simp only [Char.isDigit, Bool.and_eq_true, decide_eq_true_eq, ge_iff_le, UInt32.le_iff_toNat_le]
    at h
  have low : 48 ≤ d.val.toNat := h.1
  have high : d.val.toNat ≤ 57 := h.2
  exact Bool.and_eq_true_iff.2 ⟨decide_eq_true low, decide_eq_true high⟩

theorem isAsciiDigit_of_mem_map {digits : List Char} (h : ∀ d ∈ digits, d.isDigit = true)
    {c : CodePoint} (mem : c ∈ digits.map CodePoint.ofChar) : c.isAsciiDigit = true := by
  obtain ⟨d, among, rfl⟩ := List.mem_map.1 mem
  exact isAsciiDigit_of_isDigit (h d among)

theorem isAsciiDigit_of_mem_ofNat {n : Nat} {c : CodePoint} (h : c ∈ ofNat n) :
    c.isAsciiDigit = true :=
  isAsciiDigit_of_mem_map (fun _ => Nat.isDigit_of_mem_toDigits (by decide) (by decide)) h

theorem ofNat_ne_nil (n : Nat) : ofNat n ≠ [] := by
  simp only [ofNat, ne_eq, List.map_eq_nil_iff]
  exact Nat.toDigits_ne_nil

/-- The numeral of a positive number does not begin with a zero. -/
theorem ofNat_eq_cons {n : Nat} (positive : 0 < n) :
    ∃ c digits, ofNat n = c :: digits ∧ c ≠ CodePoint.ofChar '0' := by
  induction n using Nat.strongRecOn with
  | ind n ih =>
    by_cases small : n < 10
    · have all : ∀ m < 10, 0 < m → CodePoint.ofChar (Nat.digitChar m) ≠ CodePoint.ofChar '0' := by
        decide
      exact ⟨_, [], by rw [ofNat, Nat.toDigits_of_lt_base small]; rfl, all n small positive⟩
    · obtain ⟨c, digits, head, other⟩ := ih (n / 10) (by omega) (by omega)
      refine ⟨c, digits ++ [CodePoint.ofChar (Nat.digitChar (n % 10))], ?_, other⟩
      rw [ofNat] at head
      rw [ofNat, Nat.toDigits_of_base_le (by decide) (by omega), List.map_append, head]
      rfl

private theorem ofDigits_map (digits : List Char) (start : Nat) :
    ((digits.map CodePoint.ofChar).map (·.val - 0x30)).foldl (fun n d => 10 * n + d) start =
      Nat.ofDigitChars 10 digits start := by
  induction digits generalizing start with
  | nil => rfl
  | cons d digits ih =>
    rw [Nat.ofDigitChars_cons, List.map_cons, List.map_cons, List.foldl_cons, ih]
    rfl

/-- A numeral is worth its number. -/
theorem ofDigits_ofNat (n : Nat) : ofDigits ((ofNat n).map (·.val - 0x30)) = n :=
  (ofDigits_map _ 0).trans Nat.ofDigitChars_ten_toDigits

/-! ## Typed numerals -/

/-- Digits of any script in a row, with the values of the digits. Between two of them there may be a
low line. -/
inductive DigitRow : Text → List Nat → Prop
  | last {c : CodePoint} {d : Nat} (digit : c.digit? = some d) : DigitRow [c] [d]
  | next {c : CodePoint} {d : Nat} {t : Text} {ds : List Nat} (digit : c.digit? = some d)
      (h : DigitRow t ds) : DigitRow (c :: t) (d :: ds)
  | spaced {c : CodePoint} {d : Nat} {t : Text} {ds : List Nat} (digit : c.digit? = some d)
      (h : DigitRow t ds) : DigitRow (c :: CodePoint.ofChar '_' :: t) (d :: ds)

/-- The text is a numeral of the number. -/
inductive Denotes : Text → Int → Prop
  | unsigned {t : Text} {ds : List Nat} (row : DigitRow t ds) (short : ds.length ≤ numeralLimit) :
      Denotes t (ofDigits ds)
  | plus {t : Text} {ds : List Nat} (row : DigitRow t ds) (short : ds.length ≤ numeralLimit) :
      Denotes (CodePoint.ofChar '+' :: t) (ofDigits ds)
  | minus {t : Text} {ds : List Nat} (row : DigitRow t ds) (short : ds.length ≤ numeralLimit) :
      Denotes (CodePoint.ofChar '-' :: t) (-ofDigits ds)

theorem DigitRow.exists_cons {t : Text} {ds : List Nat} (h : DigitRow t ds) :
    ∃ c d r, t = c :: r ∧ c.digit? = some d := by
  cases h with
  | last digit | next digit | spaced digit => exact ⟨_, _, _, rfl, digit⟩

theorem ne_of_digit? {c other : CodePoint} {d : Nat} (digit : c.digit? = some d)
    (none : other.digit? = none) : c ≠ other := by
  rintro rfl
  rw [none] at digit
  cases digit

theorem numeralDigits?_cons_cons (c d : CodePoint) (r : Text) :
    numeralDigits? (c :: d :: r) = c.digit?.bind fun value =>
      (if d = '_' then numeralDigits? r else numeralDigits? (d :: r)).map (value :: ·) := by
  rw [numeralDigits?]
  cases c.digit? with
  | none => rfl
  | some value =>
    dsimp only [Option.bind_eq_bind, Option.bind_some]
    split <;> exact Option.map_eq_bind.symm

theorem numeralDigits?_eq_some_iff {t : Text} {ds : List Nat} :
    numeralDigits? t = some ds ↔ DigitRow t ds := by
  constructor
  · intro h
    fun_induction numeralDigits? t generalizing ds with
    | case1 => cases h
    | case2 c =>
      obtain ⟨d, digit, rfl⟩ := Option.map_eq_some_iff.1 h
      exact .last digit
    | case3 c second r skip go =>
      rw [← numeralDigits?.eq_3, numeralDigits?_cons_cons, Option.bind_eq_some_iff] at h
      obtain ⟨d, digit, h⟩ := h
      obtain ⟨ds, rest, rfl⟩ := Option.map_eq_some_iff.1 h
      split at rest
      · rename_i low
        subst low
        exact .spaced digit (skip rest)
      · exact .next digit (go rest)
  · intro h
    induction h with
    | last digit => simp [numeralDigits?, digit]
    | next digit h ih =>
      obtain ⟨c, d, r, rfl, first⟩ := h.exists_cons
      have apart : c ≠ CodePoint.ofChar '_' := ne_of_digit? first rfl
      rw [numeralDigits?_cons_cons, digit, if_neg apart, ih]
      rfl
    | spaced digit h ih =>
      rw [numeralDigits?_cons_cons, digit, if_pos rfl, ih]
      rfl

theorem natural?_eq_some_iff {t : Text} {n : Nat} :
    natural? t = some n ↔ ∃ ds, DigitRow t ds ∧ ds.length ≤ numeralLimit ∧ ofDigits ds = n := by
  simp only [natural?, Option.bind_eq_bind, Option.bind_eq_some_iff, numeralDigits?_eq_some_iff]
  refine exists_congr fun ds => and_congr_right fun _ => ?_
  split <;> simp [*]

/-- What is read as a number is a numeral of it, and all its numerals are read so. -/
theorem integer?_eq_some_iff {t : Text} {n : Int} : t.integer? = some n ↔ Denotes t n := by
  constructor
  · intro h
    cases t with
    | nil => cases h
    | cons c r =>
      rw [integer?] at h
      split at h
      · rename_i minus
        obtain ⟨m, read, rfl⟩ := Option.map_eq_some_iff.1 h
        obtain ⟨ds, row, short, rfl⟩ := natural?_eq_some_iff.1 read
        exact minus ▸ .minus row short
      · split at h
        · rename_i plus
          obtain ⟨m, read, rfl⟩ := Option.map_eq_some_iff.1 h
          obtain ⟨ds, row, short, rfl⟩ := natural?_eq_some_iff.1 read
          exact plus ▸ .plus row short
        · obtain ⟨m, read, rfl⟩ := Option.map_eq_some_iff.1 h
          obtain ⟨ds, row, short, rfl⟩ := natural?_eq_some_iff.1 read
          exact .unsigned row short
  · intro h
    have read {t : Text} {ds : List Nat} (row : DigitRow t ds) (short : ds.length ≤ numeralLimit) :
        natural? t = some (ofDigits ds) := natural?_eq_some_iff.2 ⟨ds, row, short, rfl⟩
    cases h with
    | unsigned row short =>
      obtain ⟨c, d, r, rfl, first⟩ := row.exists_cons
      rw [integer?, if_neg (ne_of_digit? first rfl), if_neg (ne_of_digit? first rfl),
        read row short]
      rfl
    | plus row short =>
      rw [integer?, if_neg (by decide), if_pos rfl, read row short]
      rfl
    | minus row short =>
      rw [integer?, if_pos rfl, read row short]
      rfl

end GatedConsole.Text
