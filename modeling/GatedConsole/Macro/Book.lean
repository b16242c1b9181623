import GatedConsole.Keyed
import GatedConsole.Text.CodePoint

/-!
A book of macros: named lists of command lines in order of first definition. No name comes twice,
and every macro has at least one command.
-/

set_option autoImplicit false
set_option relaxedAutoImplicit false

namespace GatedConsole

structure MacroBook where
  entries : Keyed Text (List Text)
  nodup_names : (Keyed.keys entries).Nodup
  commands_ne_nil : ∀ entry ∈ entries, entry.2 ≠ []

namespace MacroBook

def empty : MacroBook := ⟨[], by simp [Keyed.keys], by simp⟩

instance : Inhabited MacroBook := ⟨empty⟩

def names (book : MacroBook) : List Text := Keyed.keys book.entries

def size (book : MacroBook) : Nat := book.entries.length

def get? (book : MacroBook) (name : Text) : Option (List Text) := Keyed.get? book.entries name

def contains (book : MacroBook) (name : Text) : Bool := (book.get? name).isSome

/-- A macro that is defined again gets the new commands and keeps its place. -/
def define (book : MacroBook) (name : Text) (commands : List Text) (h : commands ≠ []) :
    MacroBook where
  entries := Keyed.put name commands book.entries
  nodup_names := Keyed.nodup_keys_put book.nodup_names name commands
  commands_ne_nil := by
    intro entry mem
    rcases Keyed.mem_put mem with rfl | old
    · exact h
    · exact book.commands_ne_nil entry old

/-- The book of written entries, of which each name's last one counts; none may be empty. -/
def ofEntries? (entries : List (Text × List Text)) : Option MacroBook :=
  if h : ∀ entry ∈ Keyed.ofEntries entries, entry.2 ≠ [] then
    some ⟨Keyed.ofEntries entries, Keyed.nodup_keys_ofEntries entries, h⟩
  else none

theorem ext_entries {a b : MacroBook} (h : a.entries = b.entries) : a = b := by
  cases a
  cases b
  simp_all

theorem get?_define_self (book : MacroBook) (name : Text) (commands : List Text)
    (h : commands ≠ []) : (book.define name commands h).get? name = some commands :=
  Keyed.get?_put_self name commands book.entries

theorem get?_define_of_ne (book : MacroBook) {name other : Text} (apart : other ≠ name)
    (commands : List Text) (h : commands ≠ []) :
    (book.define name commands h).get? other = book.get? other :=
  Keyed.get?_put_of_ne apart commands book.entries

theorem mem_entries_of_get? {book : MacroBook} {name : Text} {commands : List Text}
    (h : book.get? name = some commands) : (name, commands) ∈ book.entries := by
  simp only [get?, Keyed.get?, Option.map_eq_some_iff] at h
  obtain ⟨entry, found, rfl⟩ := h
  have same := List.find?_some found
  simp only [decide_eq_true_eq] at same
  subst same
  exact List.mem_of_find?_eq_some found

theorem mem_names_iff (book : MacroBook) (name : Text) :
    name ∈ book.names ↔ ∃ commands, book.get? name = some commands := by
  rw [names, Keyed.keys, List.mem_map]
  constructor
  · rintro ⟨entry, mem, same⟩
    cases found : book.get? name with
    | some commands => exact ⟨commands, rfl⟩
    | none =>
      have absent := Option.map_eq_none_iff.1 found
      exact absurd (decide_eq_true same) (List.find?_eq_none.1 absent entry mem)
  · rintro ⟨commands, found⟩
    exact ⟨(name, commands), mem_entries_of_get? found, rfl⟩

theorem contains_iff (book : MacroBook) (name : Text) :
    book.contains name = true ↔ name ∈ book.names :=
  Option.isSome_iff_exists.trans (book.mem_names_iff name).symm

end MacroBook

end GatedConsole
