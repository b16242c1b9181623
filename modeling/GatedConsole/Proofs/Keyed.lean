import GatedConsole.Keyed
import Mathlib.Data.List.Induction

/-!
Many entries put in one after the other, and entries taken out. Main statements: every key stands in
the place where it came first and has the value that came with it last; entries that begin with all
the keys of others replace them; and a key that is taken out leaves the values of the others.
-/

set_option autoImplicit false
set_option relaxedAutoImplicit false

namespace GatedConsole.Keyed

variable {κ α : Type} [DecidableEq κ]

theorem put_of_not_mem {key : κ} {entries : Keyed κ α} (fresh : key ∉ keys entries) (value : α) :
    put key value entries = entries ++ [(key, value)] := by
  induction entries with
  | nil => rfl
  | cons entry entries ih =>
    rw [keys, List.map_cons, List.mem_cons, not_or] at fresh
    rw [put, if_neg (Ne.symm fresh.1), ih fresh.2, List.cons_append]

theorem overlay_of_nodup {entries later : Keyed κ α} (distinct : (keys (entries ++ later)).Nodup) :
    overlay entries later = entries ++ later := by
  induction later generalizing entries with
  | nil => exact (List.append_nil entries).symm
  | cons entry later ih =>
    have fresh : entry.1 ∉ keys entries := by
      rw [keys, List.map_append, List.map_cons, List.nodup_append] at distinct
      intro mem
      exact distinct.2.2 _ mem _ List.mem_cons_self rfl
    have parts : entries ++ entry :: later = entries ++ [entry] ++ later := by simp
    rw [overlay, List.foldl_cons, put_of_not_mem fresh, parts]
    exact ih (parts ▸ distinct)

/-- Entries with different keys stay as they are. -/
theorem ofEntries_of_nodup {entries : Keyed κ α} (distinct : (keys entries).Nodup) :
    ofEntries entries = entries :=
  overlay_of_nodup distinct

theorem mem_overlay {entries later : Keyed κ α} {entry : κ × α}
    (h : entry ∈ overlay entries later) : entry ∈ entries ∨ entry ∈ later := by
  induction later generalizing entries with
  | nil => exact .inl h
  | cons first later ih =>
    rcases ih h with among | among
    · rcases mem_put among with rfl | among
      · exact .inr List.mem_cons_self
      · exact .inl among
    · exact .inr (List.mem_cons_of_mem first among)

theorem mem_of_mem_ofEntries {entries : List (κ × α)} {entry : κ × α}
    (h : entry ∈ ofEntries entries) : entry ∈ entries := by
  rcases mem_overlay h with none | among
  · cases none
  · exact among

/-! ## Places and values -/

/-- The keys stand in the order in which they first came. -/
theorem keys_ofEntries [BEq κ] [LawfulBEq κ] (entries : List (κ × α)) :
    keys (ofEntries entries) = (entries.map (·.1)).eraseDups := by
  induction entries using List.reverseRecOn with
  | nil => rfl
  | append_singleton entries entry ih =>
    have last : ofEntries (entries ++ [entry]) = put entry.1 entry.2 (ofEntries entries) :=
      List.foldl_append
    rw [last, keys_put, ih, List.map_append, List.eraseDups_append, List.map_singleton]
    by_cases known : entry.1 ∈ entries.map (·.1)
    · simp [List.removeAll, List.mem_eraseDups, known]
    · simp [List.removeAll, List.mem_eraseDups, known, List.eraseDups_cons]

theorem get?_overlay (entries later : Keyed κ α) (key : κ) :
    get? (overlay entries later) key =
      ((later.filter (·.1 = key)).getLast?.map (·.2)).or (get? entries key) := by
  induction later generalizing entries with
  | nil => rfl
  | cons entry later ih =>
    rw [overlay, List.foldl_cons]
    have rest := ih (put entry.1 entry.2 entries)
    rw [overlay] at rest
    rw [rest]
    by_cases same : entry.1 = key
    · subst same
      rw [get?_put_self, List.filter_cons_of_pos (by simp)]
      cases last : (later.filter (·.1 = entry.1)).getLast? with
      | none => simp [List.getLast?_cons, last]
      | some found => simp [List.getLast?_cons, last]
    · rw [get?_put_of_ne (Ne.symm same), List.filter_cons_of_neg (by simpa using same)]

/-- A key has the value that came with it last. -/
theorem get?_ofEntries (entries : List (κ × α)) (key : κ) :
    get? (ofEntries entries) key = (entries.filter (·.1 = key)).getLast?.map (·.2) := by
  rw [ofEntries, get?_overlay]
  exact Option.or_none

/-! ## Overlays of distinct keys -/

/-- The value that a key already has leaves the entries as they are. -/
theorem put_of_get? {key : κ} {value : α} {entries : Keyed κ α}
    (found : get? entries key = some value) : put key value entries = entries := by
  induction entries with
  | nil => cases found
  | cons entry entries ih =>
    rw [put]
    by_cases same : entry.1 = key
    · rw [if_pos same]
      rw [get?, List.find?_cons_of_pos (by simpa using same)] at found
      cases found
      rw [← same]
    · rw [if_neg same]
      rw [get?, List.find?_cons_of_neg (by simpa using same)] at found
      rw [ih found]

/-- Of distinct keys that are put in, each has its own value. -/
theorem get?_overlay_of_nodup (entries : Keyed κ α) {later : Keyed κ α}
    (distinct : (keys later).Nodup) (key : κ) :
    get? (overlay entries later) key = (get? later key).or (get? entries key) := by
  have apart : ofEntries later = later := ofEntries_of_nodup distinct
  rw [get?_overlay, ← get?_ofEntries, apart]

/-- The keys that were there stay in front. -/
theorem keys_prefix_overlay (entries later : Keyed κ α) :
    keys entries <+: keys (overlay entries later) := by
  induction later generalizing entries with
  | nil => exact List.prefix_rfl
  | cons entry later ih =>
    refine List.IsPrefix.trans ?_ (ih (put entry.1 entry.2 entries))
    rw [keys_put]
    split
    · exact List.prefix_rfl
    · exact List.prefix_append _ _

private theorem put_append_cons {before behind : Keyed κ α} {key : κ}
    (fresh : key ∉ keys before) (old value : α) :
    put key value (before ++ (key, old) :: behind) = before ++ (key, value) :: behind := by
  induction before with
  | nil => exact if_pos rfl
  | cons entry before ih =>
    rw [keys, List.map_cons, List.mem_cons, not_or] at fresh
    rw [List.cons_append, put, if_neg (Ne.symm fresh.1), ih fresh.2, List.cons_append]

/-- Entries are replaced in their places by others with the same keys. -/
private theorem overlay_of_keys_eq {before entries later : Keyed κ α}
    (same : keys entries = keys later) (distinct : (keys (before ++ later)).Nodup) :
    overlay (before ++ entries) later = before ++ later := by
  induction later generalizing before entries with
  | nil =>
    rw [keys, keys, List.map_nil, List.map_eq_nil_iff] at same
    rw [same]
    rfl
  | cons entry later ih =>
    cases entries with
    | nil => cases same
    | cons old entries =>
      obtain ⟨key, value⟩ := old
      rw [keys, keys, List.map_cons, List.map_cons, List.cons.injEq] at same
      obtain ⟨rfl, others⟩ := same
      have fresh : entry.1 ∉ keys before := by
        rw [keys, List.map_append, List.map_cons, List.nodup_append] at distinct
        intro mem
        exact distinct.2.2 _ mem _ List.mem_cons_self rfl
      have parts (rest : Keyed κ α) : before ++ entry :: rest = before ++ [entry] ++ rest := by simp
      rw [parts] at distinct ⊢
      rw [overlay, List.foldl_cons, put_append_cons fresh, parts]
      exact ih others distinct

/-- What begins with the keys of other entries replaces all of them. -/
theorem overlay_eq_later {entries later : Keyed κ α} (first : keys entries <+: keys later)
    (distinct : (keys later).Nodup) : overlay entries later = later := by
  have same : keys entries = keys (later.take entries.length) := by
    have cut := List.prefix_iff_eq_take.1 first
    rwa [keys, keys, List.length_map, ← List.map_take] at cut
  have parts := List.take_append_drop entries.length later
  have replaced : overlay entries (later.take entries.length) = later.take entries.length := by
    have apart : (keys ([] ++ later.take entries.length)).Nodup :=
      distinct.sublist ((List.take_sublist _ later).map _)
    exact overlay_of_keys_eq same apart
  have whole : overlay entries (later.take entries.length ++ later.drop entries.length) =
      later.take entries.length ++ later.drop entries.length := by
    rw [overlay] at replaced ⊢
    rw [List.foldl_append, replaced]
    exact overlay_of_nodup (by rwa [parts])
  rwa [parts] at whole

/-! ## Entries taken out -/

theorem get?_eq_none_iff {key : κ} {entries : Keyed κ α} :
    get? entries key = none ↔ ∀ entry ∈ entries, entry.1 ≠ key := by
  simp [get?]

theorem get?_erase_self (key : κ) (entries : Keyed κ α) : get? (erase key entries) key = none := by
  rw [get?_eq_none_iff]
  intro entry mem
  exact of_decide_eq_true (List.mem_filter.1 mem).2

theorem get?_erase_of_ne {key other : κ} (apart : other ≠ key) (entries : Keyed κ α) :
    get? (erase key entries) other = get? entries other := by
  have kept : (fun entry : κ × α => decide (decide (entry.1 ≠ key) = true ∧
      decide (entry.1 = other) = true)) = fun entry => decide (entry.1 = other) := by
    funext entry
    by_cases its : entry.1 = other
    · simp [its, apart]
    · simp [its]
  rw [get?, get?, erase, List.find?_filter, kept]

end GatedConsole.Keyed
