import GatedConsole.Text.Newline

/-!
Texts that differ in the kind of their line ends only. Main statement: in front of a line end and
behind it such texts are the same, letter by letter, and unifying the line ends again changes
nothing.
-/

set_option autoImplicit false
set_option relaxedAutoImplicit false

namespace GatedConsole

/-- Neither of the two code points that end a line. -/
def CodePoint.IsInline (c : CodePoint) : Prop := c ≠ '\r' ∧ c ≠ '\n'

instance (c : CodePoint) : Decidable c.IsInline := inferInstanceAs (Decidable (_ ∧ _))

namespace Text

theorem unifyNewlines_cons {c : CodePoint} (other : c ≠ CodePoint.ofChar '\r') (r : Text) :
    unifyNewlines (c :: r) = c :: unifyNewlines r := by
  rw [unifyNewlines.eq_def]
  dsimp only
  rw [if_neg other]

/-- A carriage return is read as a line feed, whatever stands behind it. -/
theorem unifyNewlines_return (r : Text) :
    ∃ s, unifyNewlines (CodePoint.ofChar '\r' :: r) = CodePoint.ofChar '\n' :: s := by
  rw [unifyNewlines.eq_def]
  dsimp only
  rw [if_pos rfl]
  split
  · exact ⟨[], rfl⟩
  · split
    · exact ⟨_, rfl⟩
    · exact ⟨_, rfl⟩

theorem unifyNewlines_append {front : Text} (inline : ∀ c ∈ front, c.IsInline) (rest : Text) :
    unifyNewlines (front ++ rest) = front ++ unifyNewlines rest := by
  induction front with
  | nil => rfl
  | cons c front ih =>
    have first := inline c List.mem_cons_self
    rw [List.cons_append, unifyNewlines_cons first.1,
      ih fun d mem => inline d (List.mem_cons_of_mem c mem), List.cons_append]

theorem return_not_mem_unifyNewlines (t : Text) :
    CodePoint.ofChar '\r' ∉ t.unifyNewlines := by
  induction t using unifyNewlines.induct with
  | case1 => exact List.not_mem_nil
  | case2 => decide
  | case3 s ih =>
    rw [unifyNewlines.eq_def]
    dsimp only
    rw [if_pos rfl, if_pos rfl, List.mem_cons, not_or]
    exact ⟨by decide, ih⟩
  | case4 d s other ih =>
    rw [unifyNewlines.eq_def]
    dsimp only
    rw [if_pos rfl, if_neg other, List.mem_cons, not_or]
    exact ⟨by decide, ih⟩
  | case5 c r other ih =>
    rw [unifyNewlines_cons other, List.mem_cons, not_or]
    exact ⟨Ne.symm other, ih⟩

theorem unifyNewlines_eq_self {t : Text} (h : CodePoint.ofChar '\r' ∉ t) : t.unifyNewlines = t := by
  induction t with
  | nil => rfl
  | cons c r ih =>
    rw [List.mem_cons, not_or] at h
    rw [unifyNewlines_cons (Ne.symm h.1), ih h.2]

theorem unifyNewlines_unifyNewlines (t : Text) :
    t.unifyNewlines.unifyNewlines = t.unifyNewlines :=
  unifyNewlines_eq_self (return_not_mem_unifyNewlines t)

/-- The texts differ in the kind of their line ends only. -/
def SameLines (t u : Text) : Prop := t.unifyNewlines = u.unifyNewlines

namespace SameLines

variable {t u : Text}

theorem symm (h : SameLines t u) : SameLines u t := Eq.symm h

theorem unified (t : Text) : SameLines t t.unifyNewlines := (unifyNewlines_unifyNewlines t).symm

theorem eq_nil (h : SameLines [] u) : u = [] := by
  cases u with
  | nil => rfl
  | cons c r =>
    by_cases return_ : c = CodePoint.ofChar '\r'
    · obtain ⟨s, its⟩ := unifyNewlines_return r
      rw [SameLines, return_, its] at h
      cases h
    · rw [SameLines, unifyNewlines_cons return_] at h
      cases h

/-- Whatever is no line end stands in both texts. -/
theorem cons {c : CodePoint} {r : Text} (inline : c.IsInline) (h : SameLines (c :: r) u) :
    ∃ s, u = c :: s ∧ SameLines r s := by
  rw [SameLines, unifyNewlines_cons inline.1] at h
  cases u with
  | nil => cases h
  | cons d s =>
    by_cases return_ : d = CodePoint.ofChar '\r'
    · obtain ⟨s', its⟩ := unifyNewlines_return s
      rw [return_, its, List.cons.injEq] at h
      exact absurd h.1 inline.2
    · rw [unifyNewlines_cons return_, List.cons.injEq] at h
      obtain ⟨rfl, rest⟩ := h
      exact ⟨s, rfl, rest⟩

theorem append {front rest : Text} (inline : ∀ c ∈ front, c.IsInline)
    (h : SameLines (front ++ rest) u) : ∃ rest', u = front ++ rest' ∧ SameLines rest rest' := by
  induction front generalizing u with
  | nil => exact ⟨u, rfl, h⟩
  | cons c front ih =>
    obtain ⟨s, rfl, behind⟩ := cons (inline c List.mem_cons_self) h
    obtain ⟨rest', rfl, same⟩ := ih (fun d mem => inline d (List.mem_cons_of_mem c mem)) behind
    exact ⟨rest', rfl, same⟩

end SameLines

end Text

end GatedConsole
