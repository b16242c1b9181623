import GatedConsole.Json.Reader
import GatedConsole.Json.Writer

/-!
Strings there and back: every code point is written as its units, each by itself or escaped, and two
units that belong together are joined again. Main statements: a text is read with its split pairs of
surrogates joined, so as it was written if it has none; and joining them first writes the same.
-/

set_option autoImplicit false
set_option relaxedAutoImplicit false

namespace GatedConsole.Json

/-- The units of a code point as code points of their own. -/
def unitPoints (c : CodePoint) : Text := (units c).map CodePoint.ofNat

theorem hexValue?_hexDigit (n : Nat) : hexValue? (Text.hexDigit n) = some (n % 16) := by
  have all : ∀ m < 16, hexValue? (CodePoint.ofChar (Nat.digitChar m)) = some m := by decide
  exact all (n % 16) (Nat.mod_lt n (by decide))

theorem unitsOf_unit {unit : Nat} (small : unit < 0x10000) (rest : Text) :
    unitsOf ("\\u" ++ Text.hex 4 unit ++ rest) = (unitsOf rest).prepend (.ofNat unit) := by
  have digits : ("\\u" ++ Text.hex 4 unit : Text) ++ rest =
      CodePoint.ofChar '\\' :: CodePoint.ofChar 'u' :: Text.hexDigit (unit / 16 / 16 / 16) ::
        Text.hexDigit (unit / 16 / 16) :: Text.hexDigit (unit / 16) :: Text.hexDigit unit ::
          rest := rfl
  have value : unit? (Text.hexDigit (unit / 16 / 16 / 16)) (Text.hexDigit (unit / 16 / 16))
      (Text.hexDigit (unit / 16)) (Text.hexDigit unit) = some (.ofNat unit) := by
    simp only [unit?, hexValue?_hexDigit, Option.bind_eq_bind, Option.bind_some]
    congr 2
    omega
  rw [digits, unitsOf.eq_def]
  simp only [value]
  rfl

theorem unitsOf_short {e c : CodePoint} (short : shortEscape? e = some c)
    (other : e ≠ CodePoint.ofChar 'u') (rest : Text) :
    unitsOf (CodePoint.ofChar '\\' :: e :: rest) = (unitsOf rest).prepend c := by
  rw [unitsOf.eq_def]
  simp only [if_neg other, short]
  rfl

theorem unitsOf_visible {c : CodePoint} (quote : c ≠ CodePoint.ofChar '"')
    (backslash : c ≠ CodePoint.ofChar '\\') (visible : 0x20 ≤ c.val) (rest : Text) :
    unitsOf (c :: rest) = (unitsOf rest).prepend c := by
  rw [unitsOf.eq_def]
  dsimp only
  rw [if_neg quote, if_neg (by omega), if_neg backslash]

theorem unitPoints_of_small {c : CodePoint} (small : c.val < 0x10000) : unitPoints c = [c] := by
  simp [unitPoints, units, small]

/-- What is read when the units of a code point stand first. -/
private def withUnits (c : CodePoint) (reading : Reading Text) : Reading Text :=
  reading.map fun (t, rest) => (unitPoints c ++ t, rest)

private theorem prepend_eq_withUnits {c : CodePoint} (small : c.val < 0x10000)
    (reading : Reading Text) : reading.prepend c = withUnits c reading := by
  rw [withUnits, unitPoints_of_small small]
  rfl

private theorem unitsOf_short_of_val {e d c : CodePoint} (short : shortEscape? e = some d)
    (other : e ≠ CodePoint.ofChar 'u') (same : c.val = d.val) (small : d.val < 0x10000)
    (rest : Text) :
    unitsOf (CodePoint.ofChar '\\' :: e :: rest) = withUnits c (unitsOf rest) := by
  have its : c = d := CodePoint.ext_val same
  rw [unitsOf_short short other, its]
  exact prepend_eq_withUnits small _

/-- A code point is read from the numbers of its units. -/
private theorem unitsOf_units (c : CodePoint) (rest : Text) :
    unitsOf (((units c).flatMap fun unit => ("\\u" : Text) ++ Text.hex 4 unit) ++ rest) =
      withUnits c (unitsOf rest) := by
  have bound := c.lt_bound
  by_cases small : c.val < 0x10000
  · simp only [units, if_pos small, List.flatMap_cons, List.flatMap_nil, List.append_nil]
    rw [unitsOf_unit small, CodePoint.ofNat_val]
    exact prepend_eq_withUnits small _
  · have high : 0xD800 + (c.val - 0x10000) / 0x400 < 0x10000 := by omega
    have low : 0xDC00 + (c.val - 0x10000) % 0x400 < 0x10000 := by omega
    simp only [units, if_neg small, List.flatMap_cons, List.flatMap_nil, List.append_nil]
    rw [List.append_assoc, unitsOf_unit high, unitsOf_unit low]
    simp only [withUnits, unitPoints, units, if_neg small, Reading.prepend]
    cases unitsOf rest <;> rfl

/-- A code point is read as its units, however it was written. -/
private theorem unitsOf_escaped (c : CodePoint) (rest : Text) :
    unitsOf (escaped c ++ rest) = withUnits c (unitsOf rest) := by
  have short {e d : CodePoint} := unitsOf_short_of_val (e := e) (d := d) (c := c)
  unfold escaped
  split
  · rename_i same
    exact short (e := CodePoint.ofChar '"') rfl (by decide) (congrArg _ same) (by decide) rest
  rename_i quote
  split
  · rename_i same
    exact short (e := CodePoint.ofChar '\\') rfl (by decide) (congrArg _ same) (by decide) rest
  rename_i backslash
  split
  · rename_i same
    exact short (e := CodePoint.ofChar 'n') rfl (by decide) (congrArg _ same) (by decide) rest
  split
  · rename_i same
    exact short (e := CodePoint.ofChar 'r') rfl (by decide) (congrArg _ same) (by decide) rest
  split
  · rename_i same
    exact short (e := CodePoint.ofChar 't') rfl (by decide) (congrArg _ same) (by decide) rest
  split
  · rename_i same
    exact short (e := CodePoint.ofChar 'b') rfl (by decide) same (by decide) rest
  split
  · rename_i same
    exact short (e := CodePoint.ofChar 'f') rfl (by decide) same (by decide) rest
  split
  · rename_i visible
    rw [List.singleton_append, unitsOf_visible quote backslash visible.1]
    exact prepend_eq_withUnits (by omega) _
  exact unitsOf_units c rest

theorem unitsOf_flatMap (t rest : Text) :
    unitsOf (t.flatMap escaped ++ CodePoint.ofChar '"' :: rest) =
      .ok (t.flatMap unitPoints, rest) := by
  induction t with
  | nil =>
    rw [List.flatMap_nil, List.nil_append, unitsOf.eq_def]
    rfl
  | cons c t ih =>
    rw [List.flatMap_cons, List.append_assoc, unitsOf_escaped, ih]
    rfl

theorem joinPairs_cons {c : CodePoint} (alone : c.isHighSurrogate = false) (t : Text) :
    joinPairs (c :: t) = c :: joinPairs t := by
  cases t with
  | nil => rfl
  | cons d t => simp [joinPairs, alone]

/-- The units of a code point that is no surrogate become that code point. -/
theorem joinPairs_unitPoints {c : CodePoint} (scalar : c.isSurrogate = false) (t : Text) :
    joinPairs (unitPoints c ++ t) = c :: joinPairs t := by
  have bound := c.lt_bound
  simp only [CodePoint.isSurrogate, Bool.and_eq_false_iff, decide_eq_false_iff_not] at scalar
  by_cases small : c.val < 0x10000
  · rw [unitPoints_of_small small, List.singleton_append, joinPairs_cons]
    simp only [CodePoint.isHighSurrogate, Bool.and_eq_false_iff, decide_eq_false_iff_not]
    omega
  · have high : (CodePoint.ofNat (0xD800 + (c.val - 0x10000) / 0x400)).val =
        0xD800 + (c.val - 0x10000) / 0x400 := CodePoint.val_ofNat (by omega)
    have low : (CodePoint.ofNat (0xDC00 + (c.val - 0x10000) % 0x400)).val =
        0xDC00 + (c.val - 0x10000) % 0x400 := CodePoint.val_ofNat (by omega)
    have joined : paired (.ofNat (0xD800 + (c.val - 0x10000) / 0x400))
        (.ofNat (0xDC00 + (c.val - 0x10000) % 0x400)) = c := by
      have whole : 0x10000 + (0xD800 + (c.val - 0x10000) / 0x400 - 0xD800) * 0x400 +
          (0xDC00 + (c.val - 0x10000) % 0x400 - 0xDC00) = c.val := by omega
      rw [paired, high, low, whole, CodePoint.ofNat_val]
    have is_high : (CodePoint.ofNat (0xD800 + (c.val - 0x10000) / 0x400)).isHighSurrogate := by
      simp only [CodePoint.isHighSurrogate, high, Bool.and_eq_true, decide_eq_true_eq]
      omega
    have is_low : (CodePoint.ofNat (0xDC00 + (c.val - 0x10000) % 0x400)).isLowSurrogate := by
      simp only [CodePoint.isLowSurrogate, low, Bool.and_eq_true, decide_eq_true_eq]
      omega
    simp only [unitPoints, units, if_neg small, List.map_cons, List.map_nil, List.cons_append,
      List.nil_append, joinPairs, is_high, is_low, Bool.and_true, if_true, joined]

/-! ## Split pairs -/

/-- The text holds no split pair: reading joins nothing in it. -/
def Unsplit (t : Text) : Prop := joinPairs t = t

instance (t : Text) : Decidable (Unsplit t) := inferInstanceAs (Decidable (joinPairs t = t))

theorem unsplit_of_scalar {t : Text} (scalar : ∀ c ∈ t, c.isSurrogate = false) : Unsplit t := by
  induction t with
  | nil => rfl
  | cons c t ih =>
    have alone : c.isHighSurrogate = false := by
      have plain := scalar c List.mem_cons_self
      simp only [CodePoint.isSurrogate, Bool.and_eq_false_iff, decide_eq_false_iff_not] at plain
      simp only [CodePoint.isHighSurrogate, Bool.and_eq_false_iff, decide_eq_false_iff_not]
      omega
    rw [Unsplit, joinPairs_cons alone, ih fun d mem => scalar d (List.mem_cons_of_mem c mem)]

/-- Nothing is joined to a code point that no low surrogate follows. -/
theorem joinPairs_cons_cons {c d : CodePoint}
    (alone : ¬(c.isHighSurrogate && d.isLowSurrogate) = true) (t : Text) :
    joinPairs (c :: d :: t) = c :: joinPairs (d :: t) := by
  rw [joinPairs, if_neg alone]

theorem val_paired {high low : CodePoint} (first : high.isHighSurrogate = true)
    (second : low.isLowSurrogate = true) :
    (paired high low).val = 0x10000 + (high.val - 0xD800) * 0x400 + (low.val - 0xDC00) := by
  simp only [CodePoint.isHighSurrogate, CodePoint.isLowSurrogate, Bool.and_eq_true,
    decide_eq_true_eq] at first second
  exact CodePoint.val_ofNat (by omega)

/-- What a text is joined to begins with a low surrogate only if the text does. -/
theorem joinPairs_eq_cons (c : CodePoint) (t : Text) :
    ∃ d u, joinPairs (c :: t) = d :: u ∧ (d.isLowSurrogate = true → c.isLowSurrogate = true) := by
  cases t with
  | nil => exact ⟨c, [], rfl, id⟩
  | cons low r =>
    by_cases pair : (c.isHighSurrogate && low.isLowSurrogate) = true
    · refine ⟨paired c low, joinPairs r, by rw [joinPairs, if_pos pair], fun is_low => ?_⟩
      have both := Bool.and_eq_true_iff.1 pair
      have value := val_paired both.1 both.2
      simp only [CodePoint.isLowSurrogate, Bool.and_eq_true, decide_eq_true_eq] at is_low
      omega
    · exact ⟨c, _, joinPairs_cons_cons pair r, id⟩

/-- The first unit of a code point is a low surrogate only if the code point is. -/
theorem unitPoints_eq_cons (c : CodePoint) :
    ∃ d r, unitPoints c = d :: r ∧ d.isLowSurrogate = c.isLowSurrogate := by
  have bound := c.lt_bound
  by_cases small : c.val < 0x10000
  · exact ⟨c, [], unitPoints_of_small small, rfl⟩
  · refine ⟨.ofNat (0xD800 + (c.val - 0x10000) / 0x400),
      [.ofNat (0xDC00 + (c.val - 0x10000) % 0x400)], ?_, ?_⟩
    · simp only [unitPoints, units, if_neg small, List.map_cons, List.map_nil]
    · have high : (CodePoint.ofNat (0xD800 + (c.val - 0x10000) / 0x400)).val =
          0xD800 + (c.val - 0x10000) / 0x400 := CodePoint.val_ofNat (by omega)
      have not_low : c.isLowSurrogate = false := by
        simp only [CodePoint.isLowSurrogate, Bool.and_eq_false_iff, decide_eq_false_iff_not]
        omega
      rw [not_low]
      simp only [CodePoint.isLowSurrogate, high, Bool.and_eq_false_iff, decide_eq_false_iff_not]
      omega

theorem unitPoints_of_surrogate {c : CodePoint} (surrogate : c.isSurrogate = true) :
    unitPoints c = [c] := by
  simp only [CodePoint.isSurrogate, Bool.and_eq_true, decide_eq_true_eq] at surrogate
  exact unitPoints_of_small (by omega)

theorem isSurrogate_of_isHighSurrogate {c : CodePoint} (high : c.isHighSurrogate = true) :
    c.isSurrogate = true := by
  simp only [CodePoint.isHighSurrogate, Bool.and_eq_true, decide_eq_true_eq] at high
  simp only [CodePoint.isSurrogate, Bool.and_eq_true, decide_eq_true_eq]
  omega

theorem isSurrogate_of_isLowSurrogate {c : CodePoint} (low : c.isLowSurrogate = true) :
    c.isSurrogate = true := by
  simp only [CodePoint.isLowSurrogate, Bool.and_eq_true, decide_eq_true_eq] at low
  simp only [CodePoint.isSurrogate, Bool.and_eq_true, decide_eq_true_eq]
  omega

/-- The units of a text are joined to what the text itself is joined to. -/
theorem joinPairs_flatMap (t : Text) : joinPairs (t.flatMap unitPoints) = joinPairs t := by
  -- A surrogate is its own unit, and any other code point is joined from its units at once.
  induction t using joinPairs.induct with
  | case1 => rfl
  | case2 c =>
    cases surrogate : c.isSurrogate with
    | true => rw [List.flatMap_singleton, unitPoints_of_surrogate surrogate]
    | false =>
      have joined := joinPairs_unitPoints surrogate []
      rw [List.append_nil] at joined
      rw [List.flatMap_singleton, joined]
      rfl
  | case3 high low r pair ih =>
    rw [Bool.and_eq_true] at pair
    have first := unitPoints_of_surrogate (isSurrogate_of_isHighSurrogate pair.1)
    have second := unitPoints_of_surrogate (isSurrogate_of_isLowSurrogate pair.2)
    have joined (u : Text) : joinPairs (high :: low :: u) = paired high low :: joinPairs u := by
      rw [joinPairs, if_pos (Bool.and_eq_true_iff.2 pair)]
    rw [List.flatMap_cons, List.flatMap_cons, first, second, List.singleton_append,
      List.singleton_append, joined, joined, ih]
  | case4 high low r alone ih =>
    rw [joinPairs_cons_cons alone, ← ih, List.flatMap_cons]
    cases surrogate : high.isSurrogate with
    | false => exact joinPairs_unitPoints surrogate _
    | true =>
      obtain ⟨d, u, units, same⟩ := unitPoints_eq_cons low
      rw [unitPoints_of_surrogate surrogate, List.singleton_append, List.flatMap_cons, units,
        List.cons_append]
      exact joinPairs_cons_cons (by rwa [same]) _

/-- What has been joined holds no split pair any more. -/
theorem unsplit_joinPairs (t : Text) : Unsplit (joinPairs t) := by
  induction t using joinPairs.induct with
  | case1 => rfl
  | case2 c => rfl
  | case3 high low r pair ih =>
    have value := val_paired (Bool.and_eq_true_iff.1 pair).1 (Bool.and_eq_true_iff.1 pair).2
    have alone : (paired high low).isHighSurrogate = false := by
      simp only [CodePoint.isHighSurrogate, Bool.and_eq_false_iff, decide_eq_false_iff_not]
      omega
    rw [joinPairs, if_pos pair, Unsplit, joinPairs_cons alone, ih]
  | case4 high low r alone ih =>
    obtain ⟨d, u, joined, same⟩ := joinPairs_eq_cons low r
    rw [joinPairs_cons_cons alone, Unsplit, joined, joinPairs_cons_cons, ← joined, ih]
    intro pair
    rw [Bool.and_eq_true] at pair
    exact alone (Bool.and_eq_true_iff.2 ⟨pair.1, same pair.2⟩)

theorem escaped_of_large {c : CodePoint} (large : 0x7F ≤ c.val) :
    escaped c = (units c).flatMap fun unit => ("\\u" : Text) ++ Text.hex 4 unit := by
  have apart {d : CodePoint} (small : d.val < 0x7F) : c ≠ d := by
    rintro rfl
    omega
  rw [escaped, if_neg (apart (by decide)), if_neg (apart (by decide)), if_neg (apart (by decide)),
    if_neg (apart (by decide)), if_neg (apart (by decide)), if_neg (by omega), if_neg (by omega),
    if_neg (by omega)]

/-- A split pair is written as the code point that it stands for. -/
theorem escaped_paired {high low : CodePoint} (first : high.isHighSurrogate = true)
    (second : low.isLowSurrogate = true) :
    escaped (paired high low) = escaped high ++ escaped low := by
  have value := val_paired first second
  simp only [CodePoint.isHighSurrogate, CodePoint.isLowSurrogate, Bool.and_eq_true,
    decide_eq_true_eq] at first second
  have upper : 0xD800 + ((paired high low).val - 0x10000) / 0x400 = high.val := by omega
  have lower : 0xDC00 + ((paired high low).val - 0x10000) % 0x400 = low.val := by omega
  have joined : units (paired high low) = [high.val, low.val] := by
    rw [units, if_neg (by omega), upper, lower]
  have one : units high = [high.val] := if_pos (by omega)
  have other : units low = [low.val] := if_pos (by omega)
  rw [escaped_of_large (by omega), escaped_of_large (c := high) (by omega),
    escaped_of_large (c := low) (by omega), joined, one, other, List.flatMap_cons,
    List.flatMap_singleton, List.flatMap_singleton]

/-- A text is written as the text that it is joined to. -/
theorem writeText_joinPairs (t : Text) : writeText (joinPairs t) = writeText t := by
  have same : (joinPairs t).flatMap escaped = t.flatMap escaped := by
    induction t using joinPairs.induct with
    | case1 => rfl
    | case2 c => rfl
    | case3 high low r pair ih =>
      have both := Bool.and_eq_true_iff.1 pair
      rw [joinPairs, if_pos pair, List.flatMap_cons, ih, escaped_paired both.1 both.2,
        List.append_assoc]
      rfl
    | case4 high low r alone ih =>
      rw [joinPairs_cons_cons alone, List.flatMap_cons, ih]
      exact List.flatMap_cons.symm
  rw [writeText, same, writeText]

/-- A text is read with its split pairs joined. -/
theorem readString_flatMap (t rest : Text) :
    readString (t.flatMap escaped ++ CodePoint.ofChar '"' :: rest) = .ok (joinPairs t, rest) := by
  rw [readString, unitsOf_flatMap]
  exact congrArg (fun u => Except.ok (u, rest)) (joinPairs_flatMap t)

end GatedConsole.Json
