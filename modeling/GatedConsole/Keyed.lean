/-!
Lists of keyed entries in the order in which the keys first came. Main statements: after `put`, the
key has the new value and every other key its old one, and no key has come twice.
-/

set_option autoImplicit false
set_option relaxedAutoImplicit false

namespace GatedConsole

abbrev Keyed (κ α : Type) := List (κ × α)

namespace Keyed

variable {κ α : Type} [DecidableEq κ]

def keys (entries : Keyed κ α) : List κ := entries.map (·.1)

def get? (entries : Keyed κ α) (key : κ) : Option α :=
  (entries.find? (·.1 = key)).map (·.2)

/-- Replaces the value of a known key in its place; a new key comes last. -/
def put (key : κ) (value : α) : Keyed κ α → Keyed κ α
  | [] => [(key, value)]
  | entry :: rest =>
    if entry.1 = key then (key, value) :: rest else entry :: put key value rest

def erase (key : κ) (entries : Keyed κ α) : Keyed κ α := entries.filter (·.1 ≠ key)

/-- The entries of `later` put in one after the other. -/
def overlay (entries later : Keyed κ α) : Keyed κ α :=
  later.foldl (fun all entry => put entry.1 entry.2 all) entries

/-- One entry for every key: the first place, the last value. -/
def ofEntries (entries : List (κ × α)) : Keyed κ α := overlay [] entries

theorem get?_put_self (key : κ) (value : α) (entries : Keyed κ α) :
    get? (put key value entries) key = some value := by
  induction entries with
  | nil => simp [put, get?]
  | cons entry rest ih =>
    by_cases h : entry.1 = key
    · simp [put, get?, h]
    · simpa [put, get?, h] using ih

theorem get?_put_of_ne {key other : κ} (h : other ≠ key) (value : α) (entries : Keyed κ α) :
    get? (put key value entries) other = get? entries other := by
  induction entries with
  | nil => simp [put, get?, Ne.symm h]
  | cons entry rest ih =>
    by_cases h' : entry.1 = key
    · simp [put, get?, h', Ne.symm h]
    · by_cases h'' : entry.1 = other
      · simp [put, get?, h'', h]
      · simpa [put, get?, h', h''] using ih

theorem keys_put (key : κ) (value : α) (entries : Keyed κ α) :
    keys (put key value entries) =
      if key ∈ keys entries then keys entries else keys entries ++ [key] := by
  induction entries with
  | nil => simp [put, keys]
  | cons entry rest ih =>
    by_cases h : entry.1 = key
    · simp [put, keys, h]
    · have apart : key ≠ entry.1 := Ne.symm h
      simp only [keys] at ih
      by_cases known : key ∈ rest.map (·.1)
      · simp [put, keys, h, apart, ih, known]
      · simp [put, keys, h, apart, ih, known]

theorem nodup_keys_put {entries : Keyed κ α} (h : (keys entries).Nodup) (key : κ) (value : α) :
    (keys (put key value entries)).Nodup := by
  rw [keys_put]
  split
  · exact h
  · rename_i absent
    exact List.nodup_append.2 ⟨h, by simp, by
      intro a ha b hb same
      simp only [List.mem_singleton] at hb
      exact absent (hb ▸ same ▸ ha)⟩

theorem nodup_keys_overlay {entries : Keyed κ α} (h : (keys entries).Nodup) (later : Keyed κ α) :
    (keys (overlay entries later)).Nodup := by
  induction later generalizing entries with
  | nil => exact h
  | cons entry rest ih => exact ih (nodup_keys_put h entry.1 entry.2)

theorem nodup_keys_ofEntries (entries : List (κ × α)) : (keys (ofEntries entries)).Nodup :=
  nodup_keys_overlay (by simp [keys]) entries

theorem mem_put {key : κ} {value : α} {entries : Keyed κ α} {entry : κ × α}
    (h : entry ∈ put key value entries) : entry = (key, value) ∨ entry ∈ entries := by
  induction entries with
  | nil => simpa [put] using h
  | cons first rest ih =>
    by_cases known : first.1 = key
    · simp only [put, known, if_true, List.mem_cons] at h
      rcases h with h | h
      · exact .inl h
      · exact .inr (List.mem_cons_of_mem _ h)
    · simp only [put, known, if_false, List.mem_cons] at h
      rcases h with h | h
      · exact .inr (h ▸ List.mem_cons_self)
      · exact (ih h).imp_right (List.mem_cons_of_mem _)

end Keyed

end GatedConsole
