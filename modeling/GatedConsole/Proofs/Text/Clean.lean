import GatedConsole.Access
import GatedConsole.Proofs.Text.Numeral
import GatedConsole.Proofs.Text.Words

/-!
Texts without the sign that control sequences begin with. Main statement: what is put together from
such texts, or cut out of them, is such a text again.
-/

set_option autoImplicit false
set_option relaxedAutoImplicit false

namespace GatedConsole

/-- The sign that control sequences begin with. -/
def escapeSign : CodePoint := '\x1b'

namespace Text

/-- Without a control sequence. -/
def Clean (t : Text) : Prop := escapeSign ∉ t

instance (t : Text) : Decidable t.Clean := inferInstanceAs (Decidable (_ ∉ _))

variable {t u mark rest separator : Text}

@[simp] theorem clean_append : (t ++ u).Clean ↔ t.Clean ∧ u.Clean := by
  simp only [Clean, List.mem_append, not_or]

theorem Clean.of_subset (h : u.Clean) (within : ∀ c ∈ t, c ∈ u) : t.Clean :=
  fun mem => h (within _ mem)

theorem clean_nil : Clean [] := List.not_mem_nil

theorem clean_flatten {pieces : List Text} (each : ∀ piece ∈ pieces, piece.Clean) :
    Clean pieces.flatten := by
  intro mem
  obtain ⟨piece, among, its⟩ := List.mem_flatten.1 mem
  exact each piece among its

theorem clean_join {pieces : List Text} (h : separator.Clean)
    (each : ∀ piece ∈ pieces, piece.Clean) : (join separator pieces).Clean := by
  refine clean_flatten fun piece mem => ?_
  induction pieces with
  | nil => cases mem
  | cons first pieces ih =>
    cases pieces with
    | nil => exact each piece mem
    | cons second pieces =>
      rw [List.intersperse_cons_cons, List.mem_cons, List.mem_cons] at mem
      obtain rfl | rfl | mem := mem
      · exact each _ List.mem_cons_self
      · exact h
      · exact ih (fun piece mem => each piece (List.mem_cons_of_mem _ mem)) mem

/-- What is typed in digits is clean. -/
theorem clean_ofNat (n : Nat) : (ofNat n).Clean := by
  intro mem
  have digit := isAsciiDigit_of_mem_ofNat mem
  exact absurd digit (by decide)

theorem clean_padLeft (width : Nat) (h : t.Clean) : (padLeft width t).Clean := by
  unfold padLeft
  rw [clean_append]
  refine ⟨fun mem => ?_, h⟩
  exact absurd (List.eq_of_mem_replicate mem) (by decide)

theorem Clean.behind? (h : t.Clean) (its : t.behind? mark = some rest) : rest.Clean := by
  rw [behind?_eq_some_iff.1 its, clean_append] at h
  exact h.2

theorem mem_of_mem_stripLeft {c : CodePoint} (mem : c ∈ stripLeft t) : c ∈ t :=
  (List.dropWhile_suffix _).subset mem

theorem Clean.strip (h : t.Clean) : t.strip.Clean := by
  refine h.of_subset fun c mem => ?_
  rw [Text.strip, stripRight, List.mem_reverse] at mem
  exact mem_of_mem_stripLeft (List.mem_reverse.1 ((List.dropWhile_suffix _).subset mem))

/-- The signs of the words of a text stand in the text. -/
theorem mem_of_mem_wordsFrom (t : Text) {c : CodePoint} :
    (c ∈ (wordsFrom t).1 → c ∈ t) ∧ ∀ word ∈ (wordsFrom t).2, c ∈ word → c ∈ t := by
  induction t with
  | nil => exact ⟨fun mem => absurd mem List.not_mem_nil, fun _ mem => absurd mem List.not_mem_nil⟩
  | cons d r ih =>
    obtain ⟨first, others⟩ := ih
    by_cases blank : d.isBlank
    · simp only [wordsFrom, blank, if_true]
      refine ⟨fun mem => absurd mem List.not_mem_nil, fun word mem its => List.mem_cons_of_mem _ ?_⟩
      obtain ⟨rfl, -⟩ | mem := mem_addWord mem
      · exact first its
      · exact others word mem its
    · simp only [wordsFrom, if_neg blank]
      refine ⟨fun mem => ?_, fun word mem its => List.mem_cons_of_mem _ (others word mem its)⟩
      obtain rfl | mem := List.mem_cons.1 mem
      · exact List.mem_cons_self
      · exact List.mem_cons_of_mem _ (first mem)

theorem Clean.of_mem_words (h : t.Clean) {word : Text} (mem : word ∈ t.words) : word.Clean := by
  refine h.of_subset fun c its => ?_
  obtain ⟨rfl, -⟩ | mem := mem_addWord mem
  · exact (mem_of_mem_wordsFrom t).1 its
  · exact (mem_of_mem_wordsFrom t).2 word mem its

theorem Clean.of_cons {c : CodePoint} (h : Clean (c :: t)) : escapeSign ≠ c ∧ t.Clean :=
  not_or.1 fun either => h (List.mem_cons.2 either)

theorem Clean.cons {c : CodePoint} (other : escapeSign ≠ c) (h : t.Clean) : Clean (c :: t) :=
  fun mem => (List.mem_cons.1 mem).elim other h

/-- Both sides of a mark are clean. -/
theorem Clean.cut (h : t.Clean) (c : CodePoint) :
    (t.cut c).1.Clean ∧ ∀ rest, (t.cut c).2 = some rest → rest.Clean := by
  induction t with
  | nil => exact ⟨clean_nil, nofun⟩
  | cons d r ih =>
    obtain ⟨other, tail⟩ := h.of_cons
    unfold Text.cut
    split
    · refine ⟨clean_nil, fun rest its => ?_⟩
      rw [← Option.some.inj its]
      exact tail
    · exact ⟨.cons other (ih tail).1, (ih tail).2⟩

end Text

theorem Access.clean_title (level : Access) : level.title.Clean := by
  cases level <;> decide

end GatedConsole
