import GatedConsole.History
import Mathlib.Data.List.DropRight

/-!
Many lines recorded one after the other. Main statements: the window is the end of the log of all of
them, a line that has just been recorded is the last one of every listing, and a listing is the end
of the log with its positions.
-/

set_option autoImplicit false
set_option relaxedAutoImplicit false

namespace GatedConsole.History

/-! ## Ends of lists -/

section Ends

variable {α : Type}

theorem length_rtake (n : Nat) (l : List α) : (l.rtake n).length = min n l.length := by
  rw [List.rtake, List.length_drop]
  omega

theorem rtake_of_length_le {n : Nat} {l : List α} (h : l.length ≤ n) : l.rtake n = l := by
  rw [List.rtake, Nat.sub_eq_zero_of_le h, List.drop_zero]

theorem rtake_suffix (n : Nat) (l : List α) : l.rtake n <:+ l := List.drop_suffix _ _

theorem getElem?_rtake (n : Nat) (l : List α) (i : Nat) :
    (l.rtake n)[i]? = l[l.length - n + i]? := List.getElem?_drop

theorem rtake_append (n : Nat) (l m : List α) :
    (l ++ m).rtake n = l.rtake (n - m.length) ++ m.rtake n := by
  simp only [List.rtake_eq_reverse_take_reverse, List.reverse_append, List.take_append,
    List.length_reverse]

theorem rtake_append_of_length_le {n : Nat} (l : List α) {m : List α} (h : m.length ≤ n) :
    (l ++ m).rtake n = l.rtake (n - m.length) ++ m := by
  rw [rtake_append, rtake_of_length_le h]

theorem rtake_cons_of_length_eq {n : Nat} {l : List α} (h : l.length = n) (a : α) :
    (a :: l).rtake n = l := by
  rw [← List.singleton_append, rtake_append_of_length_le _ (Nat.le_of_eq h), h, Nat.sub_self,
    List.rtake_zero, List.nil_append]

theorem rtake_rtake (n m : Nat) (l : List α) : (l.rtake m).rtake n = l.rtake (min n m) := by
  simp only [List.rtake_eq_reverse_take_reverse, List.reverse_reverse, List.take_take]

/-- Only the end of a list counts for the end of a longer one. -/
theorem rtake_rtake_append (n : Nat) (l m : List α) :
    (l.rtake n ++ m).rtake n = (l ++ m).rtake n := by
  rw [rtake_append, rtake_append, rtake_rtake, Nat.min_eq_left (Nat.sub_le n m.length)]

theorem getLast?_rtake {n : Nat} (h : 0 < n) (l : List α) : (l.rtake n).getLast? = l.getLast? := by
  rw [List.rtake_eq_reverse_take_reverse, List.getLast?_reverse, List.head?_take,
    if_neg (Nat.ne_of_gt h), List.head?_reverse]

end Ends

/-! ## Recording -/

/-- The window is the end of the log: the new line comes last, and of the old ones the last stay. -/
theorem entries_append (h : History) (line : Text) :
    (h.append line).entries = (h.entries ++ [line]).rtake h.capacity := by
  have size := h.size_eq
  have bound := h.size_le_capacity
  have pos := h.capacity_pos
  unfold append
  split
  · rename_i room
    rw [rtake_of_length_le]
    · simp [entries]
    · simp only [List.length_append, length_entries, List.length_cons, List.length_nil]
      omega
  · rename_i full
    split
    · rename_i first rest older
      simp only [older, List.length_cons] at size
      simp only [entries, older, List.cons_append, List.append_assoc, List.reverse_cons]
      rw [rtake_cons_of_length_eq]
      simp only [List.length_append, List.length_reverse, List.length_cons, List.length_nil]
      omega
    · rename_i older
      simp only [older, List.length_nil, Nat.zero_add] at size
      have some_line : h.newer.reverse ≠ [] := by
        intro nothing
        have := congrArg List.length nothing
        simp only [List.length_reverse, List.length_nil] at this
        omega
      obtain ⟨first, rest, parts⟩ := List.exists_cons_of_ne_nil some_line
      have length := congrArg List.length parts
      simp only [List.length_reverse, List.length_cons] at length
      simp only [entries, older, parts, List.nil_append, List.cons_append, List.tail_cons,
        List.reverse_cons, List.reverse_nil]
      rw [rtake_cons_of_length_eq]
      simp only [List.length_append, List.length_cons, List.length_nil]
      omega

theorem total_foldl (h : History) (lines : List Text) :
    (lines.foldl append h).total = h.total + lines.length := by
  induction lines generalizing h with
  | nil => rfl
  | cons line lines ih =>
    rw [List.foldl_cons, ih, total_append, List.length_cons]
    omega

/-- What is retained after many lines is the end of what was retained and those lines. -/
theorem entries_foldl (h : History) (lines : List Text) :
    (lines.foldl append h).entries = (h.entries ++ lines).rtake h.capacity := by
  induction lines generalizing h with
  | nil =>
    have room : h.entries.length ≤ h.capacity := by
      rw [length_entries]
      exact h.size_le_capacity
    rw [List.foldl_nil, List.append_nil, rtake_of_length_le room]
  | cons line lines ih =>
    rw [List.foldl_cons, ih, capacity_append, entries_append, rtake_rtake_append,
      List.append_assoc, List.singleton_append]

theorem recent_eq_rtake (h : History) (limit : Int) :
    h.recent limit = h.numbered.rtake limit.toNat := rfl

theorem getLast?_entries_append (h : History) (line : Text) :
    (h.append line).entries.getLast? = some line := by
  rw [entries_append, getLast?_rtake h.capacity_pos, List.getLast?_concat]

/-- In every listing that shows anything, the line recorded last comes last, with the number of all
lines as its position. -/
theorem getLast?_recent_append (h : History) (line : Text) {limit : Int} (some_line : 1 ≤ limit) :
    ((h.append line).recent limit).getLast? = some (h.total + 1, line) := by
  have shown : 0 < limit.toNat := by omega
  obtain ⟨before, parts⟩ := List.getLast?_eq_some_iff.1 (h.getLast?_entries_append line)
  have size : (h.append line).size = before.length + 1 := by
    rw [← length_entries, parts, List.length_append, List.length_singleton]
  have total : (h.append line).total = h.total + 1 := h.total_append line
  have within := (h.append line).size_le_total
  have position : (h.append line).total - (h.append line).size + 1 + before.length =
      h.total + 1 := by omega
  rw [recent_eq_rtake, getLast?_rtake shown, numbered, parts, List.zipIdx_append, List.map_append,
    position]
  simp

/-! ## Windows on a log -/

/-- The history counts the lines of the log, and retains the end of it. -/
structure WindowOf (h : History) (log : List Text) : Prop where
  total_eq : h.total = log.length
  suffix : h.entries <:+ log

theorem WindowOf.append {h : History} {log : List Text} (window : h.WindowOf log) (line : Text) :
    (h.append line).WindowOf (log ++ [line]) where
  total_eq := by rw [total_append, window.total_eq, List.length_append, List.length_singleton]
  suffix := by
    rw [entries_append]
    exact (rtake_suffix _ _).trans (List.suffix_append_self_iff.2 window.suffix)

/-- There is always a log that could have led to the history. -/
theorem exists_windowOf (h : History) : ∃ log, h.WindowOf log := by
  refine ⟨List.replicate (h.total - h.size) [] ++ h.entries, ?_, List.suffix_append _ _⟩
  have within := h.size_le_total
  simp only [List.length_append, List.length_replicate, length_entries]
  omega

/-- The lines with their positions, from one on. -/
def enumerate (log : List Text) : List (Nat × Text) :=
  (log.zipIdx 1).map fun (line, position) => (position, line)

theorem length_enumerate (log : List Text) : (enumerate log).length = log.length := by
  simp [enumerate]

theorem getElem?_enumerate (log : List Text) (i : Nat) :
    (enumerate log)[i]? = log[i]?.map (1 + i, ·) := by
  rw [enumerate, List.getElem?_map, List.getElem?_zipIdx, Option.map_map]
  rfl

/-- Every line has the position that it has in the log. -/
theorem WindowOf.numbered_eq {h : History} {log : List Text} (window : h.WindowOf log) :
    h.numbered = (enumerate log).rtake h.size := by
  obtain ⟨earlier, parts⟩ := window.suffix
  have total := window.total_eq
  rw [← parts, List.length_append, length_entries] at total
  have first : h.total - h.size + 1 = 1 + earlier.length := by omega
  have length : ((h.entries.zipIdx (1 + earlier.length)).map
      fun (line, position) => (position, line)).length = h.size := by simp [length_entries]
  rw [numbered, first, enumerate, ← parts, List.zipIdx_append, List.map_append,
    rtake_append_of_length_le _ (Nat.le_of_eq length), length, Nat.sub_self, List.rtake_zero,
    List.nil_append]

/-- A listing is the end of the log with its positions. -/
theorem WindowOf.recent_eq {h : History} {log : List Text} (window : h.WindowOf log) (limit : Int) :
    h.recent limit = (enumerate log).rtake (min limit.toNat h.size) := by
  rw [recent_eq_rtake, window.numbered_eq, rtake_rtake]

/-! ## Capacities -/

/-- An empty history has the capacity that it is asked for, if there can be one. -/
theorem empty_of_le {capacity : Int} (positive : 1 ≤ capacity) (small : capacity ≤ capacityBound) :
    ∃ h, empty capacity = .ok h ∧ (h.capacity : Int) = capacity ∧ h.entries = [] := by
  unfold empty
  rw [dif_neg (Int.not_lt.2 positive), if_neg (Int.not_lt.2 small)]
  exact ⟨_, rfl, Int.toNat_of_nonneg (by omega), rfl⟩

theorem empty_of_gt {capacity : Int} (positive : 1 ≤ capacity) (large : capacityBound < capacity) :
    empty capacity = .error .tooLarge := by
  unfold empty
  rw [dif_neg (Int.not_lt.2 positive), if_pos large]

end GatedConsole.History
