import GatedConsole.Proofs.Json.Strings
import GatedConsole.Proofs.Text.Newline
import GatedConsole.Proofs.Text.Words

/-!
Strings and scalars of texts that differ in the kind of their line ends. Main statement: no string
and no scalar goes over the end of a line, so what is read is the same, and so is what stands behind
it but for its line ends.
-/

set_option autoImplicit false
set_option relaxedAutoImplicit false

namespace GatedConsole

open Text

theorem CodePoint.isInline_of_le {c : CodePoint} (visible : 0x20 ≤ c.val) : c.IsInline := by
  refine ⟨?_, ?_⟩
  · rintro rfl
    exact absurd visible (by decide)
  · rintro rfl
    exact absurd visible (by decide)

theorem CodePoint.ne_of_not_isInline {c d : CodePoint} (line_end : ¬ c.IsInline)
    (inline : d.IsInline) : c ≠ d := by
  rintro rfl
  exact line_end inline

namespace Json

/-! ## Strings -/

/-- What means something else than the two ends of a line do is inline. -/
theorem isInline_of_some {α : Type} {f : CodePoint → Option α} {c : CodePoint} {a : α}
    (return_ : f '\r' = none) (feed : f '\n' = none) (h : f c = some a) : c.IsInline := by
  refine ⟨?_, ?_⟩
  · rintro rfl
    rw [return_] at h
    cases h
  · rintro rfl
    rw [feed] at h
    cases h

theorem isInline_of_hexValue? {c : CodePoint} {n : Nat} (h : hexValue? c = some n) :
    c.IsInline :=
  isInline_of_some (by decide) (by decide) h

theorem isInline_of_shortEscape? {e c : CodePoint} (h : shortEscape? e = some c) :
    e.IsInline :=
  isInline_of_some (by decide) (by decide) h

theorem isInline_of_unit? {a b c d unit : CodePoint} (h : unit? a b c d = some unit) :
    ∀ digit ∈ [a, b, c, d], digit.IsInline := by
  simp only [unit?, Option.bind_eq_bind, Option.bind_eq_some_iff] at h
  obtain ⟨_, first, _, second, _, third, _, fourth, _⟩ := h
  simp only [List.forall_mem_cons]
  exact ⟨isInline_of_hexValue? first, isInline_of_hexValue? second, isInline_of_hexValue? third,
    isInline_of_hexValue? fourth, List.forall_mem_nil _⟩

theorem unitsOf_escape {a b c d unit : CodePoint} (h : unit? a b c d = some unit) (rest : Text) :
    unitsOf (CodePoint.ofChar '\\' :: CodePoint.ofChar 'u' :: a :: b :: c :: d :: rest) =
      (unitsOf rest).prepend unit := by
  rw [unitsOf.eq_def]
  simp only [h]
  rfl

theorem Reading.of_prepend {c : CodePoint} {reading : Reading Text} {units rest : Text}
    (h : reading.prepend c = .ok (units, rest)) :
    ∃ others, reading = .ok (others, rest) ∧ units = c :: others := by
  cases reading with
  | error fault => cases h
  | ok read =>
    obtain ⟨others, rest'⟩ := read
    cases h
    exact ⟨others, rfl, rfl⟩

/-- What a string takes up: some signs in front, none of which ends a line, whatever stands behind
them. -/
structure Front (t units rest front : Text) : Prop where
  parts : t = front ++ rest
  some_sign : front ≠ []
  inline : ∀ c ∈ front, c.IsInline
  unitsOf_eq : ∀ rest', unitsOf (front ++ rest') = .ok (units, rest')

/-- Signs that stand for one unit, in front of a string. -/
theorem exists_front_of_prepend {r units rest : Text} {unit : CodePoint} (signs : Text)
    (inline : ∀ c ∈ signs, c.IsInline)
    (one : ∀ rest', unitsOf (signs ++ rest') = (unitsOf rest').prepend unit)
    (behind : ∀ {units}, unitsOf r = .ok (units, rest) → ∃ front, Front r units rest front)
    (h : (unitsOf r).prepend unit = .ok (units, rest)) :
    ∃ front, Front (signs ++ r) units rest front := by
  obtain ⟨others, read, rfl⟩ := Reading.of_prepend h
  obtain ⟨front, its⟩ := behind read
  refine ⟨signs ++ front, ?_, ?_, ?_, ?_⟩
  · rw [its.parts, List.append_assoc]
  · exact fun nothing => its.some_sign (List.append_eq_nil_iff.1 nothing).2
  · exact List.forall_mem_append.2 ⟨inline, its.inline⟩
  · intro rest'
    rw [List.append_assoc, one, its.unitsOf_eq]
    rfl

/-- What can be read when a backslash stands first. -/
theorem unitsOf_backslash {r units rest : Text}
    (h : unitsOf (CodePoint.ofChar '\\' :: r) = .ok (units, rest)) :
    (∃ a b c d s unit, r = CodePoint.ofChar 'u' :: a :: b :: c :: d :: s ∧
        unit? a b c d = some unit ∧ (unitsOf s).prepend unit = .ok (units, rest)) ∨
      ∃ e s unit, r = e :: s ∧ e ≠ CodePoint.ofChar 'u' ∧ shortEscape? e = some unit ∧
        (unitsOf s).prepend unit = .ok (units, rest) := by
  rw [unitsOf.eq_def] at h
  dsimp only at h
  rw [if_neg (by decide), if_neg (by decide), if_pos rfl] at h
  cases r with
  | nil => cases h
  | cons e s =>
    dsimp only at h
    by_cases code : e = CodePoint.ofChar 'u'
    · left
      rw [if_pos code] at h
      split at h
      · rename_i a b c d s
        split at h
        · rename_i unit found
          exact ⟨a, b, c, d, s, unit, congrArg (· :: _) code, found, h⟩
        · cases h
      · cases h
    · right
      rw [if_neg code] at h
      split at h
      · rename_i unit found
        exact ⟨e, s, unit, rfl, code, found, h⟩
      · cases h

theorem exists_front_of_unitsOf {t units rest : Text} (h : unitsOf t = .ok (units, rest)) :
    ∃ front, Front t units rest front := by
  -- Every unit takes up at least one sign, so what stands behind it is shorter.
  induction size : t.length using Nat.strongRecOn generalizing t units with
  | ind n ih =>
    subst size
    cases t with
    | nil => cases h
    | cons c r =>
      by_cases quote : c = CodePoint.ofChar '"'
      · subst quote
        rw [unitsOf.eq_def] at h
        dsimp only at h
        rw [if_pos rfl] at h
        cases h
        refine ⟨[CodePoint.ofChar '"'], rfl, by decide, by decide, fun rest' => ?_⟩
        rw [unitsOf.eq_def]
        rfl
      · by_cases backslash : c = CodePoint.ofChar '\\'
        · subst backslash
          rcases unitsOf_backslash h with
            ⟨a, b, c, d, s, unit, rfl, code, h⟩ | ⟨e, s, unit, rfl, other, escape, h⟩
          · refine exists_front_of_prepend ['\\', 'u', a, b, c, d] ?_ (unitsOf_escape code)
              (fun read => ih s.length (by simp only [List.length_cons]; omega) read rfl) h
            rw [List.forall_mem_cons, List.forall_mem_cons]
            exact ⟨by decide, by decide, isInline_of_unit? code⟩
          · refine exists_front_of_prepend ['\\', e] ?_ (unitsOf_short escape other)
              (fun read => ih s.length (by simp only [List.length_cons]; omega) read rfl) h
            rw [List.forall_mem_cons, List.forall_mem_singleton]
            exact ⟨by decide, isInline_of_shortEscape? escape⟩
        · by_cases visible : 0x20 ≤ c.val
          · rw [unitsOf_visible quote backslash visible] at h
            refine exists_front_of_prepend [c] ?_ (unitsOf_visible quote backslash visible)
              (fun read => ih r.length (by simp only [List.length_cons]; omega) read rfl) h
            rw [List.forall_mem_singleton]
            exact CodePoint.isInline_of_le visible
          · rw [unitsOf.eq_def] at h
            dsimp only at h
            rw [if_neg quote, if_pos (Nat.lt_of_not_le visible)] at h
            cases h

theorem exists_front_of_readString {t s rest : Text} (h : readString t = .ok (s, rest)) :
    ∃ units front, Front t units rest front ∧ s = joinPairs units := by
  unfold readString at h
  cases read : unitsOf t with
  | error fault =>
    rw [read] at h
    cases h
  | ok reading =>
    obtain ⟨units, rest'⟩ := reading
    rw [read] at h
    cases h
    obtain ⟨front, its⟩ := exists_front_of_unitsOf read
    exact ⟨units, front, its, rfl⟩

theorem length_of_readString {t s rest : Text} (h : readString t = .ok (s, rest)) :
    rest.length < t.length := by
  obtain ⟨_, front, its, -⟩ := exists_front_of_readString h
  have some_sign := List.length_pos_iff.2 its.some_sign
  rw [its.parts, List.length_append]
  omega

/-- A string stands in both texts. -/
theorem readString_of_sameLines {t u s rest : Text} (h : readString t = .ok (s, rest))
    (same : SameLines t u) : ∃ rest', readString u = .ok (s, rest') ∧ SameLines rest rest' := by
  obtain ⟨units, front, its, rfl⟩ := exists_front_of_readString h
  rw [its.parts] at same
  obtain ⟨rest', rfl, behind⟩ := same.append its.inline
  refine ⟨rest', ?_, behind⟩
  rw [readString, its.unitsOf_eq]
  rfl

/-! ## Numbers -/

theorem isInline_of_digit {c : CodePoint} (digit : c.isAsciiDigit = true) : c.IsInline := by
  simp only [CodePoint.isAsciiDigit, Bool.and_eq_true, decide_eq_true_eq] at digit
  exact CodePoint.isInline_of_le (by omega)

theorem isInline_of_mem_digits {t : Text} {c : CodePoint}
    (mem : c ∈ t.takeWhile CodePoint.isAsciiDigit) : c.IsInline :=
  isInline_of_digit (List.all_eq_true.1 List.all_takeWhile c mem)

/-- A text begins with a sign that unifying leaves where it is, or with the end of a line, or it is
empty. -/
theorem unifyNewlines_cases (t : Text) :
    (t = [] ∧ unifyNewlines t = []) ∨
      (∃ c r s, t = c :: r ∧ ¬ c.IsInline ∧ unifyNewlines t = CodePoint.ofChar '\n' :: s) ∨
        ∃ c r, t = c :: r ∧ c.IsInline ∧ unifyNewlines t = c :: unifyNewlines r := by
  cases t with
  | nil => exact .inl ⟨rfl, rfl⟩
  | cons c r =>
    by_cases return_ : c = CodePoint.ofChar '\r'
    · subst return_
      obtain ⟨s, its⟩ := unifyNewlines_return r
      exact .inr (.inl ⟨_, r, s, rfl, fun inline => inline.1 rfl, its⟩)
    · have first := unifyNewlines_cons return_ r
      by_cases feed : c = CodePoint.ofChar '\n'
      · subst feed
        exact .inr (.inl ⟨_, r, _, rfl, fun inline => inline.2 rfl, first⟩)
      · exact .inr (.inr ⟨c, r, rfl, ⟨return_, feed⟩, first⟩)

theorem digits_unifyNewlines (t : Text) :
    (unifyNewlines t).takeWhile CodePoint.isAsciiDigit = t.takeWhile CodePoint.isAsciiDigit := by
  induction t with
  | nil => rfl
  | cons c r ih =>
    by_cases digit : c.isAsciiDigit = true
    · rw [unifyNewlines_cons (isInline_of_digit digit).1, List.takeWhile_cons_of_pos digit,
        List.takeWhile_cons_of_pos digit, ih]
    · rw [List.takeWhile_cons_of_neg digit]
      rcases unifyNewlines_cases (c :: r) with ⟨h, -⟩ | ⟨_, _, s, -, -, its⟩ | ⟨_, _, h, -, its⟩
      · cases h
      · rw [its]
        rfl
      · cases h
        rw [its, List.takeWhile_cons_of_neg digit]

/-- Behind signs that end no line there is the same, but for the line ends. -/
theorem drop_unifyNewlines {t front : Text} (starts : front <+: t)
    (inline : ∀ c ∈ front, c.IsInline) :
    (unifyNewlines t).drop front.length = unifyNewlines (t.drop front.length) := by
  obtain ⟨rest, rfl⟩ := starts
  rw [unifyNewlines_append inline, List.drop_left, List.drop_left]

theorem drop_digits (t : Text) :
    (unifyNewlines t).drop (t.takeWhile CodePoint.isAsciiDigit).length =
      unifyNewlines (t.drop (t.takeWhile CodePoint.isAsciiDigit).length) :=
  drop_unifyNewlines (List.takeWhile_prefix _) fun _ => isInline_of_mem_digits

theorem isPrefix_wholePart (t : Text) : wholePart t <+: t.takeWhile CodePoint.isAsciiDigit := by
  unfold wholePart
  split
  · exact List.nil_prefix
  · rename_i c digits some_digits
    rw [some_digits]
    split
    · exact ⟨digits, rfl⟩
    · exact List.prefix_rfl

theorem wholePart_unifyNewlines (t : Text) : wholePart (unifyNewlines t) = wholePart t := by
  rw [wholePart, digits_unifyNewlines, wholePart]

theorem drop_wholePart (t : Text) :
    (unifyNewlines t).drop (wholePart t).length =
      unifyNewlines (t.drop (wholePart t).length) :=
  drop_unifyNewlines ((isPrefix_wholePart t).trans (List.takeWhile_prefix _)) fun _ mem =>
    isInline_of_mem_digits ((isPrefix_wholePart t).subset mem)

theorem fractionPart_unifyNewlines (t : Text) :
    fractionPart (unifyNewlines t) =
      ((fractionPart t).1, unifyNewlines (fractionPart t).2) := by
  rcases unifyNewlines_cases t with ⟨rfl, -⟩ | ⟨c, r, s, rfl, line_end, its⟩ | ⟨c, r, rfl, -, its⟩
  · rfl
  · have other := CodePoint.ne_of_not_isInline (d := '.') line_end (by decide)
    have left : fractionPart (c :: r) = ([], c :: r) := if_neg fun point => other point.1
    rw [left, its]
    rfl
  · rw [its]
    simp only [fractionPart, digits_unifyNewlines, drop_digits]
    split
    · rfl
    · rw [its]

/-- Whether an exponent is negative, and what stands behind its sign. -/
def signPart (t : Text) : Bool × Text :=
  match t with
  | c :: s => if c = '-' then (true, s) else if c = '+' then (false, s) else (false, t)
  | [] => (false, [])

theorem exponentPart?_cons (mark : CodePoint) (r : Text) :
    exponentPart? (mark :: r) =
      if mark = 'e' ∨ mark = 'E' then
        let digits := (signPart r).2.takeWhile CodePoint.isAsciiDigit
        if digits = [] then none
        else
          some (if (signPart r).1 then -(asciiValue digits : Int) else asciiValue digits,
            (signPart r).2.drop digits.length)
      else none :=
  rfl

theorem signPart_unifyNewlines (t : Text) :
    signPart (unifyNewlines t) = ((signPart t).1, unifyNewlines (signPart t).2) := by
  rcases unifyNewlines_cases t with ⟨rfl, -⟩ | ⟨c, r, s, rfl, line_end, its⟩ | ⟨c, r, rfl, -, its⟩
  · rfl
  · have no_minus := CodePoint.ne_of_not_isInline (d := '-') line_end (by decide)
    have no_plus := CodePoint.ne_of_not_isInline (d := '+') line_end (by decide)
    have left : signPart (c :: r) = (false, c :: r) := by
      rw [signPart, if_neg no_minus, if_neg no_plus]
    rw [left, its]
    rfl
  · rw [its]
    unfold signPart
    dsimp only
    split
    · rfl
    · split
      · rfl
      · rw [its]

theorem exponentPart?_unifyNewlines (t : Text) :
    exponentPart? (unifyNewlines t) =
      (exponentPart? t).map fun (exponent, rest) => (exponent, unifyNewlines rest) := by
  rcases unifyNewlines_cases t with ⟨rfl, -⟩ | ⟨c, r, s, rfl, line_end, its⟩ | ⟨c, r, rfl, -, its⟩
  · rfl
  · have other : ¬ (c = CodePoint.ofChar 'e' ∨ c = CodePoint.ofChar 'E') := by
      exact not_or.2 ⟨CodePoint.ne_of_not_isInline line_end (by decide),
        CodePoint.ne_of_not_isInline line_end (by decide)⟩
    have left : exponentPart? (c :: r) = none := if_neg other
    rw [left, its]
    rfl
  · rw [its, exponentPart?_cons, exponentPart?_cons, signPart_unifyNewlines]
    dsimp only
    rw [digits_unifyNewlines, drop_digits]
    split
    · split
      · rfl
      · rfl
    · rfl

/-- A reading that leaves other line ends behind. -/
def Reading.unified {α : Type} (reading : Reading α) : Reading α :=
  reading.map fun (a, rest) => (a, unifyNewlines rest)

theorem readNumber_unifyNewlines (negative : Bool) (t : Text) :
    readNumber negative (unifyNewlines t) = (readNumber negative t).unified := by
  have fraction := fractionPart_unifyNewlines (t.drop (wholePart t).length)
  have exponent := exponentPart?_unifyNewlines
    (fractionPart (t.drop (wholePart t).length)).2
  unfold readNumber
  dsimp only
  rw [wholePart_unifyNewlines, drop_wholePart, fraction]
  dsimp only
  rw [exponent]
  split
  · rfl
  · cases exponentPart? (fractionPart (t.drop (wholePart t).length)).2 with
    | some found => rfl
    | none =>
      dsimp only [Option.map_none]
      split
      · rfl
      · split
        · rfl
        · rfl

/-! ## Scalars -/

theorem behind?_unifyNewlines {word : Text} (inline : ∀ c ∈ word, c.IsInline) (t : Text) :
    (unifyNewlines t).behind? word = (t.behind? word).map unifyNewlines := by
  cases found : t.behind? word with
  | some rest =>
    rw [Text.behind?_eq_some_iff.1 found, unifyNewlines_append inline,
      Text.behind?_eq_some_iff.2 rfl, Option.map_some]
  | none =>
    cases found' : (unifyNewlines t).behind? word with
    | none => rfl
    | some rest =>
      -- The word stands in the unified text, so it stands in the text as well.
      have same : SameLines (word ++ rest) t := by
        rw [← Text.behind?_eq_some_iff.1 found']
        exact (SameLines.unified t).symm
      obtain ⟨rest', rfl, -⟩ := same.append inline
      rw [Text.behind?_eq_some_iff.2 rfl] at found
      cases found

/-- The first of some words that the text begins with, and what stands behind it. -/
theorem findSome?_unifyNewlines {words : List (Text × Json)}
    (inline : ∀ entry ∈ words, ∀ c ∈ entry.1, c.IsInline) (t : Text) :
    (words.findSome? fun (word, value) => ((unifyNewlines t).behind? word).map (value, ·)) =
      (words.findSome? fun (word, value) => (t.behind? word).map (value, ·)).map
        fun (value, rest) => (value, unifyNewlines rest) := by
  induction words with
  | nil => rfl
  | cons entry words ih =>
    obtain ⟨word, value⟩ := entry
    rw [List.findSome?_cons, List.findSome?_cons]
    dsimp only
    rw [behind?_unifyNewlines (inline _ List.mem_cons_self),
      ih fun entry mem => inline entry (List.mem_cons_of_mem _ mem)]
    cases t.behind? word with
    | some rest => rfl
    | none => rfl

theorem inline_wordsForValues : ∀ entry ∈ wordsForValues, ∀ c ∈ entry.1, c.IsInline := by
  have words : ∀ word ∈ wordsForValues.map (·.1), ∀ c ∈ word, c.IsInline := by decide
  exact fun entry mem => words entry.1 (List.mem_map_of_mem mem)

theorem readScalar_unifyNewlines (t : Text) :
    readScalar (unifyNewlines t) = (readScalar t).unified := by
  unfold readScalar
  rw [findSome?_unifyNewlines inline_wordsForValues]
  cases wordsForValues.findSome? fun (word, value) => (t.behind? word).map (value, ·) with
  | some reading => rfl
  | none =>
    dsimp only [Option.map_none]
    rcases unifyNewlines_cases t with
      ⟨rfl, -⟩ | ⟨c, r, s, rfl, line_end, its⟩ | ⟨c, r, rfl, -, its⟩
    · rfl
    · have no_minus := CodePoint.ne_of_not_isInline (d := '-') line_end (by decide)
      have number := readNumber_unifyNewlines false (c :: r)
      rw [its] at number ⊢
      dsimp only
      rw [if_neg (by decide), if_neg no_minus, number]
    · have number := readNumber_unifyNewlines false (c :: r)
      rw [its] at number ⊢
      dsimp only
      rw [number, readNumber_unifyNewlines]
      split
      · rfl
      · rfl

/-- A scalar stands in both texts. -/
theorem readScalar_of_sameLines {t u rest : Text} {value : Json}
    (h : readScalar t = .ok (value, rest)) (same : SameLines t u) :
    ∃ rest', readScalar u = .ok (value, rest') ∧ SameLines rest rest' := by
  have unified : (readScalar u).unified = .ok (value, unifyNewlines rest) := by
    rw [← readScalar_unifyNewlines, ← same, readScalar_unifyNewlines, h]
    rfl
  cases read : readScalar u with
  | error fault =>
    rw [read] at unified
    cases unified
  | ok reading =>
    obtain ⟨value', rest'⟩ := reading
    rw [read] at unified
    have parts := Except.ok.inj unified
    rw [Prod.mk.injEq] at parts
    obtain ⟨rfl, behind⟩ := parts
    exact ⟨rest', rfl, behind.symm⟩

/-! ## How much is read -/

theorem suffix_fractionPart (t : Text) : (fractionPart t).2 <:+ t := by
  unfold fractionPart
  split
  · dsimp only
    split
    · exact (List.drop_suffix _ _).trans (List.suffix_cons _ _)
    · exact List.suffix_refl _
  · exact List.suffix_refl _

theorem suffix_signPart (t : Text) : (signPart t).2 <:+ t := by
  unfold signPart
  split
  · split
    · exact List.suffix_cons _ _
    · split
      · exact List.suffix_cons _ _
      · exact List.suffix_refl _
  · exact List.suffix_refl _

theorem suffix_of_exponentPart? {t rest : Text} {exponent : Int}
    (h : exponentPart? t = some (exponent, rest)) : rest <:+ t := by
  cases t with
  | nil => cases h
  | cons mark r =>
    have sign := suffix_signPart r
    rw [exponentPart?_cons] at h
    split at h
    · dsimp only at h
      split at h
      · cases h
      · have behind := congrArg Prod.snd (Option.some.inj h)
        dsimp only at behind
        rw [← behind]
        exact (List.drop_suffix _ _).trans (sign.trans (List.suffix_cons _ _))
    · cases h

/-- What stands behind a number ends the text as well. -/
theorem suffix_of_readNumber {negative : Bool} {t rest : Text} {value : Json}
    (h : readNumber negative t = .ok (value, rest)) : rest <:+ t.drop (wholePart t).length := by
  have fraction := suffix_fractionPart (t.drop (wholePart t).length)
  unfold readNumber at h
  dsimp only at h
  split at h
  · cases h
  · split at h
    · rename_i exponent behind found
      cases h
      exact (suffix_of_exponentPart? found).trans fraction
    · split at h
      · cases h
        exact fraction
      · split at h
        · cases h
        · cases h
          exact fraction

theorem wholePart_of_readNumber {negative : Bool} {t rest : Text} {value : Json}
    (h : readNumber negative t = .ok (value, rest)) : wholePart t ≠ [] := by
  intro nothing
  unfold readNumber at h
  dsimp only at h
  rw [if_pos nothing] at h
  cases h

theorem length_of_readNumber {negative : Bool} {t rest : Text} {value : Json}
    (h : readNumber negative t = .ok (value, rest)) : rest.length < t.length := by
  have within := ((isPrefix_wholePart t).trans (List.takeWhile_prefix _)).length_le
  have digits := List.length_pos_iff.2 (wholePart_of_readNumber h)
  have behind := (suffix_of_readNumber h).length_le
  rw [List.length_drop] at behind
  omega

theorem length_of_readScalar {t rest : Text} {value : Json}
    (h : readScalar t = .ok (value, rest)) : rest.length < t.length := by
  have some_sign : ∀ entry ∈ wordsForValues, 0 < entry.1.length := by
    have words : ∀ word ∈ wordsForValues.map (·.1), 0 < word.length := by decide
    exact fun entry mem => words entry.1 (List.mem_map_of_mem mem)
  unfold readScalar at h
  split at h
  · rename_i reading found
    cases h
    obtain ⟨entry, mem, its⟩ := List.exists_of_findSome?_eq_some found
    obtain ⟨rest', behind, same⟩ := Option.map_eq_some_iff.1 its
    cases same
    have front := some_sign entry mem
    rw [Text.behind?_eq_some_iff.1 behind, List.length_append]
    omega
  · split at h
    · split at h
      · have number := length_of_readNumber h
        rw [List.length_cons]
        omega
      · exact length_of_readNumber h
    · cases h

end Json

end GatedConsole
