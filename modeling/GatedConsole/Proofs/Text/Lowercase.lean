import GatedConsole.Text.Blank
import GatedConsole.Text.Lowercase
import Mathlib.Data.List.Infix

/-!
Lower case of a piece of a text, and blanks in lower case. Main statements: lowered with the text
around it, a piece is what it is when lowered alone, if each capital sigma of it ends a word in both
cases or in neither; and a text has a blank exactly if its lower case has one.
-/

set_option autoImplicit false
set_option relaxedAutoImplicit false

namespace GatedConsole

namespace Text

/-- Whether a capital sigma between these texts has the form of the end of a word; `before` runs
backwards from it and `after` forwards. -/
def endsWord (before after : Text) : Bool := meetsLetter before && !meetsLetter after

/-- The lower case of a piece between two others; `before` runs backwards from it. -/
def lowerWithin (before after : Text) : Text → Text
  | [] => []
  | c :: r => lowerBetween before (r ++ after) c ++ lowerWithin (c :: before) after r

theorem lowerWithin_nil_right (before t : Text) : lowerWithin before [] t = lowerFrom before t := by
  induction t generalizing before with
  | nil => rfl
  | cons c r ih => rw [lowerWithin, lowerFrom, ih, List.append_nil]

theorem lowerWithin_append (before after s t : Text) :
    lowerWithin before after (s ++ t) =
      lowerWithin before (t ++ after) s ++ lowerWithin (s.reverse ++ before) after t := by
  induction s generalizing before with
  | nil => rfl
  | cons c r ih =>
    rw [List.cons_append, lowerWithin, lowerWithin, ih, List.reverse_cons, List.append_assoc,
      List.append_assoc, List.append_assoc, List.singleton_append]

/-- The lower case of a text holds that of each piece, lowered where it stands. -/
theorem lower_append (front part back : Text) :
    (front ++ part ++ back).lower = lowerWithin [] (part ++ back) front ++
      lowerWithin front.reverse back part ++ lowerWithin (front ++ part).reverse [] back := by
  have whole := lowerWithin_nil_right [] (front ++ part ++ back)
  rw [lowerWithin_append, lowerWithin_append, List.append_nil, List.append_nil, List.append_nil]
    at whole
  exact whole.symm

/-- Each capital sigma of a piece ends a word where the piece stands exactly if it does in the piece
alone. -/
def SameSigmas (front part back : Text) : Prop :=
  ∀ p q, part = p ++ CodePoint.ofChar 'Σ' :: q →
    endsWord (p.reverse ++ front.reverse) (q ++ back) = endsWord p.reverse q

theorem sameSigmas_iff_getElem? {front part back : Text} :
    SameSigmas front part back ↔ ∀ i < part.length, part[i]? = some (CodePoint.ofChar 'Σ') →
      endsWord ((part.take i).reverse ++ front.reverse) (part.drop (i + 1) ++ back) =
        endsWord (part.take i).reverse (part.drop (i + 1)) := by
  constructor
  · intro same i _ sigma
    apply same
    obtain ⟨within, is_sigma⟩ := List.getElem?_eq_some_iff.1 sigma
    rw [← is_sigma, ← List.drop_eq_getElem_cons within, List.take_append_drop]
  · rintro same p q rfl
    simpa using same p.length (by simp)

instance (front part back : Text) : Decidable (SameSigmas front part back) :=
  decidable_of_iff' _ sameSigmas_iff_getElem?

theorem lowerBetween_congr {before before' after after' : Text} {c : CodePoint}
    (same : c = 'Σ' → endsWord before after = endsWord before' after') :
    lowerBetween before after c = lowerBetween before' after' c := by
  unfold lowerBetween
  split
  · rename_i sigma
    exact congrArg (if · = true then _ else _) (same sigma)
  · rfl

/-- The piece is gone through from `done` on; that is why the sameness is asked behind `done`. -/
theorem lowerWithin_eq_lowerFrom {front back : Text} (done : Text) {rest : Text}
    (same : SameSigmas front (done ++ rest) back) :
    lowerWithin (done.reverse ++ front.reverse) back rest = lowerFrom done.reverse rest := by
  induction rest generalizing done with
  | nil => rfl
  | cons c r ih =>
    have next := ih (done ++ [c]) (by rwa [List.append_assoc, List.singleton_append])
    rw [List.reverse_append, List.reverse_singleton, List.singleton_append,
      List.cons_append] at next
    rw [lowerWithin, lowerFrom, next]
    congr 1
    refine lowerBetween_congr fun sigma => ?_
    exact same done r (by rw [sigma])

theorem lowerWithin_eq_lower {front part back : Text} (same : SameSigmas front part back) :
    lowerWithin front.reverse back part = part.lower :=
  lowerWithin_eq_lowerFrom [] same

theorem contains_iff_isInfix {t part : Text} : t.contains part = true ↔ part <:+: t := by
  induction t with
  | nil => rw [contains, List.isEmpty_iff, List.infix_nil]
  | cons c r ih =>
    rw [contains, Bool.or_eq_true, List.isPrefixOf_iff_prefix, ih, List.infix_cons_iff]

/-- In lower case too, a text contains a piece of it whose sigmas stay the same. -/
theorem contains_lower_of_sameSigmas {front part back : Text} (same : SameSigmas front part back) :
    (front ++ part ++ back).lower.contains part.lower = true := by
  rw [contains_iff_isInfix, lower_append, lowerWithin_eq_lower same]
  exact List.infix_append _ _ _

/-! ## Blanks -/

namespace Lowercase

/-- The range of letters does not meet the range of blanks, and neither do their lower-case letters,
which are numbers of code points. -/
structure Avoids (s : Shift) (b : Span) : Prop where
  letters : s.last < b.first ∨ b.last < s.first
  lowered : (s.last + s.delta : Int) < b.first ∨ (b.last : Int) < s.first + s.delta
  in_bounds : (0 : Int) ≤ s.first + s.delta ∧ (s.last + s.delta : Int) < 0x110000

instance (s : Shift) (b : Span) : Decidable (Avoids s b) :=
  decidable_of_iff
    ((s.last < b.first ∨ b.last < s.first) ∧
      ((s.last + s.delta : Int) < b.first ∨ (b.last : Int) < s.first + s.delta) ∧
      (0 : Int) ≤ s.first + s.delta ∧ (s.last + s.delta : Int) < 0x110000)
    ⟨fun h => ⟨h.1, h.2.1, h.2.2⟩, fun h => ⟨h.letters, h.lowered, h.in_bounds⟩⟩

theorem avoids_blanks : ∀ s ∈ shifts, ∀ b ∈ blanks, Avoids s b := by decide +kernel

end Lowercase

theorem isBlank_eq_false_iff {c : CodePoint} :
    c.isBlank = false ↔ ∀ b ∈ blanks, c.val < b.first ∨ b.last < c.val := by
  rw [CodePoint.isBlank, inSpans, List.any_eq_false]
  constructor
  · intro outside b mem
    have not_held := outside b mem
    simp only [Span.holds, Bool.and_eq_true, decide_eq_true_eq] at not_held
    omega
  · intro outside b mem
    have beside := outside b mem
    simp only [Span.holds, Bool.and_eq_true, decide_eq_true_eq]
    omega

theorem isBlank_lowerAlone (c : CodePoint) : c.lowerAlone.isBlank = c.isBlank := by
  unfold CodePoint.lowerAlone
  split
  · rename_i s found
    have mem := List.mem_of_find?_eq_some found
    have held := List.find?_some found
    simp only [Shift.holds, Bool.and_eq_true, decide_eq_true_eq] at held
    have visible : c.isBlank = false := by
      apply isBlank_eq_false_iff.2
      intro b among
      have apart := (Lowercase.avoids_blanks s mem b among).letters
      omega
    have lowered : (CodePoint.ofNat (c.val + s.delta).toNat).isBlank = false := by
      apply isBlank_eq_false_iff.2
      intro b among
      obtain ⟨-, apart, low, high⟩ := Lowercase.avoids_blanks s mem b among
      rw [CodePoint.val_ofNat (by omega)]
      omega
    rw [visible, lowered]
  · rfl

theorem any_isBlank_lowerBetween (before after : Text) (c : CodePoint) :
    (lowerBetween before after c).any CodePoint.isBlank = c.isBlank := by
  unfold lowerBetween
  split
  · rename_i sigma
    subst sigma
    split <;> decide
  · split
    · rename_i dotted
      subst dotted
      decide
    · rw [List.any_cons, List.any_nil, Bool.or_false, isBlank_lowerAlone]

/-- Blanks stay in lower case, and nothing else becomes one. -/
theorem any_isBlank_lower (t : Text) : t.lower.any CodePoint.isBlank = t.any CodePoint.isBlank := by
  have from_anywhere (before : Text) :
      (lowerFrom before t).any CodePoint.isBlank = t.any CodePoint.isBlank := by
    induction t generalizing before with
    | nil => rfl
    | cons c r ih =>
      rw [lowerFrom, List.any_append, any_isBlank_lowerBetween, ih, List.any_cons]
  exact from_anywhere []

/-- What stands in a text without a blank in some case of letters has no blank itself. -/
theorem visible_of_isInfix_lower {t part : Text} (within : part.lower <:+: t.lower)
    (visible : ∀ c ∈ t, c.isBlank = false) : ∀ c ∈ part, c.isBlank = false := by
  intro c mem
  rw [← Bool.not_eq_true]
  intro blank
  have in_part : part.lower.any CodePoint.isBlank = true := by
    rw [any_isBlank_lower]
    exact List.any_eq_true.2 ⟨c, mem, blank⟩
  obtain ⟨d, its, lowered⟩ := List.any_eq_true.1 in_part
  have in_text : t.any CodePoint.isBlank = true := by
    rw [← any_isBlank_lower]
    exact List.any_eq_true.2 ⟨d, within.subset its, lowered⟩
  obtain ⟨e, among, also⟩ := List.any_eq_true.1 in_text
  rw [visible e among] at also
  exact Bool.false_ne_true also

end Text

end GatedConsole
