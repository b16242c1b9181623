import GatedConsole.Proofs.History

/-!
A history from its first line on, beside the log of all its lines. Main statement: with every
capacity that a history can have it counts all lines, retains the end of the log and lists the end
of its enumeration, so that a position that was listed once is never that of another line.
-/

set_option autoImplicit false
set_option relaxedAutoImplicit false

namespace GatedConsole.History

/-! ## Ends of lists -/

theorem rtake_suffix_rtake {α : Type} {n m : Nat} (fewer : n ≤ m) (l : List α) :
    l.rtake n <:+ l.rtake m := by
  have inner : (l.rtake m).rtake n = l.rtake n := by
    rw [rtake_rtake, Nat.min_eq_left fewer]
  rw [← inner]
  exact rtake_suffix _ _

theorem mem_rtake_iff {α : Type} {n : Nat} {l : List α} {a : α} :
    a ∈ l.rtake n ↔ ∃ i, l.length - n ≤ i ∧ l[i]? = some a := by
  simp only [List.mem_iff_getElem?, getElem?_rtake]
  constructor
  · rintro ⟨i, found⟩
    exact ⟨l.length - n + i, Nat.le_add_right _ i, found⟩
  · rintro ⟨i, behind, found⟩
    obtain ⟨k, rfl⟩ := Nat.exists_eq_add_of_le behind
    exact ⟨k, found⟩

/-- The end of an enumeration has the positions behind those that are left out. -/
theorem mem_rtake_enumerate_iff {n position : Nat} {log : List Text} {line : Text} :
    (position, line) ∈ (enumerate log).rtake n ↔
      log.length - n < position ∧ log[position - 1]? = some line := by
  simp only [mem_rtake_iff, length_enumerate, getElem?_enumerate, Option.map_eq_some_iff,
    Prod.mk.injEq]
  constructor
  · rintro ⟨i, behind, entry, found, rfl, rfl⟩
    refine ⟨by omega, ?_⟩
    rw [Nat.add_sub_cancel_left]
    exact found
  · rintro ⟨behind, found⟩
    exact ⟨position - 1, by omega, line, found, by omega, rfl⟩

/-! ## From the first line on -/

theorem windowOf_empty {capacity : Int} {h : History} (made : empty capacity = .ok h) :
    h.WindowOf [] := by
  unfold empty at made
  split at made
  · cases made
  · split at made
    · cases made
    · cases made
      exact ⟨rfl, List.suffix_refl []⟩

/-- Lines recorded one after the other come to the end of the log. -/
theorem WindowOf.foldl {h : History} {log : List Text} (window : h.WindowOf log)
    (lines : List Text) : (lines.foldl History.append h).WindowOf (log ++ lines) := by
  induction lines generalizing h log with
  | nil => rwa [List.append_nil]
  | cons line lines ih =>
    rw [List.foldl_cons, List.append_cons]
    exact ih (window.append line)

/-- The history has taken in these lines and no others. It counts them all, retains the last ones,
as many as there is room for, and lists the last ones of those, as many as are asked for, each with
its position among all lines. -/
structure Retains (h : History) (capacity : Nat) (lines : List Text) : Prop where
  total_eq : h.total = lines.length
  entries_eq : h.entries = lines.rtake (min capacity lines.length)
  recent_eq : ∀ limit : Int,
    h.recent limit = (enumerate lines).rtake (min limit.toNat (min capacity lines.length))
  mem_recent_iff : ∀ (limit : Int) (position : Nat) (line : Text),
    (position, line) ∈ h.recent limit ↔
      lines.length - min limit.toNat (min capacity lines.length) < position ∧
        lines[position - 1]? = some line

theorem WindowOf.retains {h : History} (window : h.WindowOf []) (lines : List Text) :
    (lines.foldl History.append h).Retains h.capacity lines := by
  have nothing : h.entries = [] := List.suffix_nil.1 window.suffix
  have entries : (lines.foldl History.append h).entries =
      lines.rtake (min h.capacity lines.length) := by
    rw [entries_foldl, nothing, List.nil_append]
    rcases Nat.le_total h.capacity lines.length with full | room
    · rw [Nat.min_eq_left full]
    · rw [Nat.min_eq_right room, rtake_of_length_le room, rtake_of_length_le (Nat.le_refl _)]
  have size : (lines.foldl History.append h).size = min h.capacity lines.length := by
    rw [← length_entries, entries, length_rtake]
    omega
  have listed : ∀ limit : Int, (lines.foldl History.append h).recent limit =
      (enumerate lines).rtake (min limit.toNat (min h.capacity lines.length)) := by
    intro limit
    rw [(window.foldl lines).recent_eq, size, List.nil_append]
  refine ⟨(window.foldl lines).total_eq, entries, listed, fun limit position line => ?_⟩
  rw [listed, mem_rtake_enumerate_iff]

/-- What was listed at a position is what is listed there later, for as long as a listing goes back
so far. -/
theorem Retains.mem_recent_later {h later : History} {capacity : Nat} {lines more : List Text}
    (now : h.Retains capacity lines) (after : later.Retains capacity (lines ++ more))
    {limit : Int} {position : Nat} {line : Text} (listed : (position, line) ∈ h.recent limit)
    (limit' : Int) (line' : Text) :
    (position, line') ∈ later.recent limit' ↔
      (lines ++ more).length - min limit'.toNat (min capacity (lines ++ more).length) < position ∧
        line' = line := by
  obtain ⟨-, found⟩ := (now.mem_recent_iff limit position line).1 listed
  obtain ⟨within, -⟩ := List.getElem?_eq_some_iff.1 found
  rw [after.mem_recent_iff, List.getElem?_append_left within, found, Option.some.injEq,
    eq_comm (a := line)]

theorem Retains.recent_suffix {h : History} {capacity : Nat} {lines : List Text}
    (retains : h.Retains capacity lines) {limit limit' : Int} (fewer : limit ≤ limit') :
    h.recent limit <:+ h.recent limit' := by
  rw [retains.recent_eq, retains.recent_eq]
  exact rtake_suffix_rtake (by omega) _

/-- With every capacity that a history can have it is a window on the log of its lines, and a line
keeps its position in all listings that go back to it. -/
theorem retains_foldl {capacity : Int} (positive : 1 ≤ capacity)
    (small : capacity ≤ capacityBound) :
    ∃ h, empty capacity = .ok h ∧
      (∀ lines : List Text, (lines.foldl append h).Retains capacity.toNat lines) ∧
      (∀ (lines more : List Text) (limit : Int) (position : Nat) (line : Text),
        (position, line) ∈ (lines.foldl append h).recent limit →
          ∀ (limit' : Int) (line' : Text),
            (position, line') ∈ ((lines ++ more).foldl append h).recent limit' ↔
              (lines ++ more).length -
                  min limit'.toNat (min capacity.toNat (lines ++ more).length) < position ∧
                line' = line) ∧
      ∀ (lines : List Text) (limit limit' : Int), limit ≤ limit' →
        (lines.foldl append h).recent limit <:+ (lines.foldl append h).recent limit' := by
  obtain ⟨h, made, its_capacity, -⟩ := empty_of_le positive small
  have retains (lines : List Text) : (lines.foldl append h).Retains capacity.toNat lines := by
    rw [← its_capacity, Int.toNat_natCast]
    exact (windowOf_empty made).retains lines
  refine ⟨h, made, retains, ?_, ?_⟩
  · intro lines more limit position line listed
    exact (retains lines).mem_recent_later (retains (lines ++ more)) listed
  · intro lines limit limit' fewer
    exact (retains lines).recent_suffix fewer

/-- More lines than a window of three has room for. -/
def rollingLines : List Text := ["a", "b", "a", "d", "e"]

/-- The fourth line is listed at its position before the fifth has come and after that. -/
theorem retains_foldl_rolling :
    ∃ h, empty 3 = .ok h ∧
      (rollingLines.foldl append h).entries = [Text.ofString "a", "d", "e"] ∧
      (rollingLines.foldl append h).recent 2 = [(4, Text.ofString "d"), (5, "e")] ∧
      (rollingLines.foldl append h).recent (-1) = [] ∧
      (4, Text.ofString "d") ∈ ((rollingLines.take 4).foldl append h).recent 10 ∧
      (4, Text.ofString "d") ∈ (rollingLines.foldl append h).recent 2 := by
  have positive : (1 : Int) ≤ 3 := by decide
  obtain ⟨h, made, retains, keeps, -⟩ := retains_foldl positive (by decide)
  have all := retains rollingLines
  have before : (4, Text.ofString "d") ∈ ((rollingLines.take 4).foldl append h).recent 10 := by
    rw [(retains _).mem_recent_iff]
    decide
  refine ⟨h, made, ?_, ?_, ?_, before, ?_⟩
  · rw [all.entries_eq]
    decide
  · rw [all.recent_eq]
    decide
  · rw [all.recent_eq]
    decide
  · exact (keeps (rollingLines.take 4) ["e"] 10 4 "d" before 2 "d").2 (by decide)

/-- A capacity beyond the bound is refused, so there is no history that would retain any line. -/
theorem not_retains_of_large :
    ¬ ∀ capacity : Int, 1 ≤ capacity → ∀ lines : List Text,
      ∃ h, empty capacity = .ok h ∧ (lines.foldl append h).Retains capacity.toNat lines := by
  intro all
  have refused : empty (2 ^ 63) = .error .tooLarge := empty_of_gt (by decide) (by decide)
  obtain ⟨h, made, -⟩ := all (2 ^ 63) (by decide) [Text.ofString "a"]
  rw [refused] at made
  cases made

end GatedConsole.History
