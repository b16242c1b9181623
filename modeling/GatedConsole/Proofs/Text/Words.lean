import GatedConsole.Invocation
import Mathlib.Data.List.DropRight

/-!
Marks at the front of a text and within it, stripping, and texts without a blank. Main statements: a
text without a blank, if it is not empty, is a line of one word, and stripping leaves it alone; the
words of any text are such texts, and the same after stripping, which leaves nothing exactly when
there are none; they are the only such texts that the text consists of, blanks aside.
-/

set_option autoImplicit false
set_option relaxedAutoImplicit false

namespace GatedConsole

namespace Text

theorem behind?_eq_some_iff {t mark rest : Text} :
    t.behind? mark = some rest ↔ t = mark ++ rest := by
  unfold behind?
  constructor
  · intro h
    split at h
    · rename_i starts
      obtain ⟨rest', rfl⟩ := List.isPrefixOf_iff_prefix.1 starts
      rw [List.drop_left, Option.some.injEq] at h
      rw [h]
    · cases h
  · rintro rfl
    have starts : mark.isPrefixOf (mark ++ rest) :=
      List.isPrefixOf_iff_prefix.2 (List.prefix_append mark rest)
    rw [if_pos starts, List.drop_left]

theorem behind?_eq_none_iff {t mark : Text} : t.behind? mark = none ↔ ¬mark <+: t := by
  rw [← Option.not_isSome_iff_eq_none, Option.isSome_iff_exists]
  simp only [behind?_eq_some_iff]
  exact not_congr ⟨fun ⟨rest, parts⟩ => ⟨rest, parts.symm⟩, fun ⟨rest, parts⟩ => ⟨rest, parts.symm⟩⟩

/-- Nothing stands behind a mark that begins with another sign. -/
theorem behind?_of_ne {c d : CodePoint} (other : d ≠ c) (r mark : Text) :
    behind? (c :: r) (d :: mark) = none := by
  simp [behind?, other]

theorem cut_append_cons {mark : CodePoint} {before : Text} (plain : mark ∉ before) (after : Text) :
    (before ++ mark :: after).cut mark = (before, some after) := by
  induction before with
  | nil => simp [cut]
  | cons c before ih =>
    rw [List.mem_cons, not_or] at plain
    rw [List.cons_append, cut, if_neg (Ne.symm plain.1), ih plain.2]

theorem cut_of_not_mem {mark : CodePoint} {t : Text} (plain : mark ∉ t) :
    t.cut mark = (t, none) := by
  induction t with
  | nil => rfl
  | cons c t ih =>
    rw [List.mem_cons, not_or] at plain
    rw [cut, if_neg (Ne.symm plain.1), ih plain.2]

/-- Not empty, and without a blank. -/
def IsWord (t : Text) : Prop := t ≠ [] ∧ ∀ c ∈ t, c.isBlank = false

instance (t : Text) : Decidable t.IsWord := inferInstanceAs (Decidable (_ ∧ _))

/-! ## Stripping -/

theorem stripRight_eq_rdropWhile (t : Text) : stripRight t = t.rdropWhile CodePoint.isBlank := rfl

theorem strip_eq_self {t : Text} (visible : ∀ c ∈ t, c.isBlank = false) : t.strip = t := by
  have left : stripLeft t = t :=
    List.dropWhile_eq_self_iff.2 fun _ => Bool.eq_false_iff.1 (visible _ (List.getElem_mem _))
  rw [strip, left, stripRight_eq_rdropWhile, List.rdropWhile_eq_self_iff]
  exact fun _ => Bool.eq_false_iff.1 (visible _ (List.getLast_mem _))

theorem strip_eq_nil_iff (t : Text) : strip t = [] ↔ ∀ c ∈ t, c.isBlank := by
  rw [strip, stripRight_eq_rdropWhile, List.rdropWhile_eq_nil_iff, ← List.dropWhile_eq_nil_iff,
    stripLeft, List.dropWhile_idempotent, List.dropWhile_eq_nil_iff]

/-- Stripping leaves something exactly when there is a word. -/
theorem words_eq_nil_iff_strip (t : Text) : words t = [] ↔ strip t = [] := by
  rw [words_eq_nil_iff, strip_eq_nil_iff]

/-- What is stripped at the end does not bring a blank to the front. -/
theorem stripLeft_strip (t : Text) : stripLeft (strip t) = strip t := by
  refine List.dropWhile_eq_self_iff.2 fun some_sign => ?_
  have front : strip t <+: stripLeft t := List.rdropWhile_prefix _ _
  rw [front.getElem some_sign]
  exact List.dropWhile_get_zero_not _ _ (Nat.lt_of_lt_of_le some_sign front.length_le)

theorem strip_strip (t : Text) : strip (strip t) = strip t := by
  rw [strip, stripLeft_strip]
  exact List.rdropWhile_idempotent _ _

/-! ## Words -/

theorem words_append_of_blank {gap : Text} (blank : ∀ c ∈ gap, c.isBlank) (t : Text) :
    words (gap ++ t) = words t := by
  induction gap with
  | nil => rfl
  | cons c gap ih =>
    rw [List.cons_append, words_cons_blank (blank c List.mem_cons_self)]
    exact ih fun d mem => blank d (List.mem_cons_of_mem c mem)

theorem wordsFrom_append_of_visible {word : Text} (visible : ∀ c ∈ word, c.isBlank = false)
    (t : Text) : wordsFrom (word ++ t) = (word ++ (wordsFrom t).1, (wordsFrom t).2) := by
  induction word with
  | nil => rfl
  | cons c word ih =>
    rw [List.cons_append, wordsFrom, ih fun d mem => visible d (List.mem_cons_of_mem c mem)]
    simp [visible c List.mem_cons_self]

theorem wordsFrom_eq {t : Text} (visible : ∀ c ∈ t, c.isBlank = false) : wordsFrom t = (t, []) := by
  simpa [wordsFrom] using wordsFrom_append_of_visible visible []

theorem wordsFrom_append (t : Text) {blanks : Text} (blank : ∀ c ∈ blanks, c.isBlank) :
    wordsFrom (t ++ blanks) = wordsFrom t := by
  induction t with
  | nil =>
    induction blanks with
    | nil => rfl
    | cons c r ih =>
      have others := ih fun c mem => blank c (List.mem_cons_of_mem _ mem)
      simp only [List.nil_append] at others ⊢
      simp [wordsFrom, others, blank c List.mem_cons_self, addWord]
  | cons c r ih => simp [wordsFrom, ih]

/-- Blanks at the ends of a text make no difference to its words. -/
theorem words_strip (t : Text) : t.strip.words = t.words := by
  have left (t : Text) : (stripLeft t).words = t.words := by
    have parts : t = t.takeWhile CodePoint.isBlank ++ stripLeft t :=
      List.takeWhile_append_dropWhile.symm
    have blank : ∀ c ∈ t.takeWhile CodePoint.isBlank, c.isBlank := fun _ => List.mem_takeWhile_imp
    rw [← words_append_of_blank blank, ← parts]
  have right (t : Text) : (stripRight t).words = t.words := by
    have parts : t = stripRight t ++ t.rtakeWhile CodePoint.isBlank :=
      List.rdropWhile_append_rtakeWhile.symm
    have blank : ∀ c ∈ t.rtakeWhile CodePoint.isBlank, c.isBlank := fun _ => List.mem_rtakeWhile_imp
    rw [words, words, ← wordsFrom_append (stripRight t) blank, ← parts]
  rw [strip, right, left]

theorem mem_addWord {word other : Text} {words : List Text} (mem : other ∈ addWord word words) :
    (other = word ∧ word ≠ []) ∨ other ∈ words := by
  unfold addWord at mem
  split at mem
  · exact .inr mem
  · rename_i some_word
    exact (List.mem_cons.1 mem).imp_left fun same => ⟨same, some_word⟩

theorem visible_wordsFrom (t : Text) :
    (∀ c ∈ (wordsFrom t).1, c.isBlank = false) ∧ ∀ word ∈ (wordsFrom t).2, word.IsWord := by
  induction t with
  | nil =>
    exact ⟨fun _ mem => absurd mem List.not_mem_nil, fun _ mem => absurd mem List.not_mem_nil⟩
  | cons c r ih =>
    obtain ⟨first, others⟩ := ih
    by_cases blank : c.isBlank
    · simp only [wordsFrom, blank, if_true]
      refine ⟨fun _ mem => absurd mem List.not_mem_nil, fun word mem => ?_⟩
      obtain ⟨rfl, some_word⟩ | mem := mem_addWord mem
      · exact ⟨some_word, first⟩
      · exact others word mem
    · simp only [wordsFrom, if_neg blank]
      refine ⟨fun d mem => ?_, others⟩
      obtain rfl | mem := List.mem_cons.1 mem
      · exact Bool.eq_false_iff.2 blank
      · exact first d mem

theorem isWord_of_mem_words {t word : Text} (mem : word ∈ t.words) : word.IsWord := by
  obtain ⟨rfl, some_word⟩ | mem := mem_addWord mem
  · exact ⟨some_word, (visible_wordsFrom t).1⟩
  · exact (visible_wordsFrom t).2 word mem

theorem IsWord.words_eq {t : Text} (word : t.IsWord) : t.words = [t] := by
  rw [words, wordsFrom_eq word.2, addWord, if_neg word.1]

/-! ## Spaced words -/

/-- The text has the words in order, with blanks between them and any blanks at its ends. -/
inductive Spaced : List Text → Text → Prop
  | nil {gap : Text} (blank : ∀ c ∈ gap, c.isBlank) : Spaced [] gap
  | cons {gap word rest : Text} {words : List Text} (blank : ∀ c ∈ gap, c.isBlank)
      (h : Spaced words rest) (apart : ∀ c ∈ rest.head?, c.isBlank) :
      Spaced (word :: words) (gap ++ (word ++ rest))

theorem Spaced.cons_blank {words : List Text} {t : Text} {c : CodePoint} (h : Spaced words t)
    (blank : c.isBlank) : Spaced words (c :: t) := by
  have more {gap : Text} (all : ∀ d ∈ gap, d.isBlank) : ∀ d ∈ c :: gap, d.isBlank :=
    List.forall_mem_cons.2 ⟨blank, all⟩
  cases h with
  | nil all => exact .nil (more all)
  | cons all h apart => exact .cons (more all) h apart

theorem IsWord.words_append {word rest : Text} (h : word.IsWord)
    (apart : ∀ c ∈ rest.head?, c.isBlank) : words (word ++ rest) = word :: words rest := by
  have starts : (wordsFrom rest).1 = [] := by
    cases rest with
    | nil => rfl
    | cons c rest => simp [wordsFrom, apart c rfl]
  simp [words, wordsFrom_append_of_visible h.2, starts, addWord, h.1]

theorem spaced_wordsFrom (t : Text) :
    ∃ rest, t = (wordsFrom t).1 ++ rest ∧ (∀ c ∈ rest.head?, c.isBlank) ∧
      Spaced (wordsFrom t).2 rest := by
  induction t with
  | nil => exact ⟨[], rfl, nofun, .nil nofun⟩
  | cons c t ih =>
    obtain ⟨rest, parts, apart, spaced⟩ := ih
    by_cases blank : c.isBlank
    · refine ⟨c :: t, by simp [wordsFrom, blank], by simpa using blank, ?_⟩
      simp only [wordsFrom, blank, if_true, addWord]
      split
      · rename_i none
        rw [none, List.nil_append] at parts
        subst parts
        exact spaced.cons_blank blank
      · have whole := @Spaced.cons [c] (wordsFrom t).1 _ _ (by simpa using blank) spaced apart
        rwa [← parts] at whole
    · refine ⟨rest, ?_, apart, ?_⟩
      · simp only [wordsFrom, blank, Bool.false_eq_true, if_false, List.cons_append]
        rw [← parts]
      · simpa only [wordsFrom, blank, Bool.false_eq_true, if_false] using spaced

/-- A text is its words with blanks, and there are no other words that it is. -/
theorem words_eq_iff_spaced {t : Text} {words : List Text} :
    t.words = words ↔ Spaced words t ∧ ∀ word ∈ words, word.IsWord := by
  constructor
  · rintro rfl
    refine ⟨?_, fun word => isWord_of_mem_words⟩
    obtain ⟨rest, parts, apart, spaced⟩ := spaced_wordsFrom t
    rw [Text.words, addWord]
    split
    · rename_i none
      rw [none, List.nil_append] at parts
      subst parts
      exact spaced
    · have no_blank : ∀ c ∈ ([] : Text), c.isBlank = true := by simp
      have whole := @Spaced.cons [] (wordsFrom t).1 _ _ no_blank spaced apart
      rwa [List.nil_append, ← parts] at whole
  · rintro ⟨spaced, all⟩
    induction spaced with
    | nil blank => exact (words_eq_nil_iff _).2 blank
    | cons blank _ apart ih =>
      rw [List.forall_mem_cons] at all
      rw [words_append_of_blank blank, all.1.words_append apart, ih all.2]

end Text

theorem Invocation.ofLine?_eq_none_iff (line : Text) : ofLine? line = none ↔ line.strip = [] := by
  rw [← Text.words_eq_nil_iff_strip]
  unfold ofLine?
  split <;> simp_all

/-- A line of one word is a command without arguments and flags. -/
theorem Invocation.ofLine?_of_isWord {t : Text} (word : t.IsWord) :
    ofLine? t.strip = some ⟨t, [], []⟩ := by
  rw [Text.strip_eq_self word.2, ofLine?, word.words_eq]
  rfl

end GatedConsole
