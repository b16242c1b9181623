import GatedConsole.Proofs.Macro.Format
import GatedConsole.Proofs.Macro.Keeping

/-!
Kept macros there and back. Main statement: a book that the store took is the book that is loaded
again, and loading any stored text settles it: from then on it is saved and loaded without change.
-/

set_option autoImplicit false
set_option relaxedAutoImplicit false

namespace GatedConsole

namespace MacroBook

theorem scalar_empty : empty.Scalar := nofun

theorem Scalar.define {book : MacroBook} (scalar : book.Scalar) {name : Text}
    {commands : List Text} (here : isScalarText name = true)
    (each : ∀ command ∈ commands, isScalarText command = true) (filled : commands ≠ []) :
    (book.define name commands filled).Scalar := by
  intro entry mem
  rcases Keyed.mem_put mem with rfl | old
  · exact ⟨here, each⟩
  · exact scalar entry old

end MacroBook

namespace Macros

variable {macros after : Macros}

/-- Macros as opening, loading and defining make them, in a store that others may use as well. The
names and the commands of the definitions hold no surrogates. -/
inductive Reached : Macros → Prop
  | opened {store : Store} {key : Text} {macros : Macros} (h : ofStore store key = .ok macros) :
      Reached macros
  | loaded {macros again : Macros} (before : Reached macros) (h : macros.load = .ok again) :
      Reached again
  | defined {macros : Macros} (before : Reached macros) {name : Text} {commands : List Text}
      (here : MacroBook.isScalarText name = true)
      (each : ∀ command ∈ commands, MacroBook.isScalarText command = true) :
      Reached (macros.define name commands).1
  | shared {macros : Macros} (before : Reached macros) (store : Store) :
      Reached { macros with store := store }

/-! ## No reached book holds a surrogate -/

theorem scalar_bookOf (stored : Option Text) : (bookOf stored).Scalar := by
  unfold bookOf
  split
  · exact MacroBook.scalar_empty
  · rename_i t
    cases read : MacroBook.read? t with
    | none => exact MacroBook.scalar_empty
    | some book => exact MacroBook.scalar_of_read? read

theorem ofStore_eq_ok {store : Store} {key : Text} (h : ofStore store key = .ok macros) :
    ∃ stored, store.get key = .ok stored ∧ macros = ⟨bookOf stored, store, key⟩ := by
  unfold ofStore at h
  cases found : store.get key with
  | error fault =>
    rw [found] at h
    cases h
  | ok stored =>
    rw [found] at h
    cases h
    exact ⟨stored, rfl, rfl⟩

theorem scalar_ofStore {store : Store} {key : Text} (h : ofStore store key = .ok macros) :
    macros.book.Scalar := by
  obtain ⟨stored, _, rfl⟩ := ofStore_eq_ok h
  exact scalar_bookOf stored

theorem scalar_define (scalar : macros.book.Scalar) {name : Text} {commands : List Text}
    (here : MacroBook.isScalarText name = true)
    (each : ∀ command ∈ commands, MacroBook.isScalarText command = true) :
    (macros.define name commands).1.book.Scalar := by
  unfold define
  split
  · exact scalar
  · rename_i filled
    simp only [inscribe, book_save]
    exact scalar.define here each filled

theorem Reached.scalar (reached : Reached macros) : macros.book.Scalar := by
  induction reached with
  | opened h => exact scalar_ofStore h
  | loaded _ h => exact scalar_ofStore h
  | defined _ here each ih => exact scalar_define ih here each
  | shared _ _ ih => exact ih

/-! ## What the store took is loaded again -/

theorem written_of_save (saved : macros.save = (after, .ok true)) : macros.written = .ok () := by
  cases outcome : macros.written with
  | ok => rfl
  | error fault =>
    rw [save_of_not_written outcome, Prod.mk.injEq] at saved
    obtain ⟨_, answer⟩ := saved
    split at answer <;> cases answer

/-- A saved book differs from the macros before in nothing but the store. -/
theorem save_frame (saved : macros.save = (after, .ok true)) :
    after.book = macros.book ∧ after.key = macros.key := by
  have same : after = macros.save.1 := by rw [saved]
  rw [same]
  exact ⟨book_save macros, key_save macros⟩

theorem get_of_save (saved : macros.save = (after, .ok true)) :
    after.store.get macros.key = .ok (some macros.book.write) := by
  have same : after = macros.save.1 := by rw [saved]
  rw [same]
  exact (save_of_written (written_of_save saved)).2

private theorem load_of_save (scalar : macros.book.Scalar)
    (saved : macros.save = (after, .ok true)) : after.load = .ok after := by
  obtain ⟨book, key⟩ := save_frame saved
  have stored : after.store.get after.key = .ok (some after.book.write) := by
    rw [book, key]
    exact get_of_save saved
  have again : bookOf (some after.book.write) = after.book := by
    rw [bookOf, MacroBook.read?_write (book ▸ scalar), Option.getD_some]
  rw [load, ofStore, stored, Except.map, again]

/-- What is saved is loaded again. Whatever text is stored, the book it is read as is saved and
loaded without change, and is written the same way each time. -/
theorem load_save :
    (∀ macros after, Reached macros → macros.save = (after, .ok true) →
      after.load = .ok after ∧ after.book.entries = macros.book.entries ∧
        ∀ entry ∈ after.book.entries, entry.2 ≠ []) ∧
    ∀ (store : Store) (key : Text) (stored : Option Text), store.get key = .ok stored →
      ∃ loaded, ofStore store key = .ok loaded ∧
        ∀ after, loaded.save = (after, .ok true) →
          after.load = .ok after ∧ after.book.entries = loaded.book.entries ∧
            after.store.get key = .ok (some loaded.book.write) ∧
            ∀ again, after.save = (again, .ok true) →
              again.store.get key = after.store.get key := by
  constructor
  · intro macros after reached saved
    obtain ⟨book, _⟩ := save_frame saved
    exact ⟨load_of_save reached.scalar saved, congrArg MacroBook.entries book,
      after.book.commands_ne_nil⟩
  · intro store key stored found
    have opened : ofStore store key = .ok ⟨bookOf stored, store, key⟩ := by
      rw [ofStore, found, Except.map]
    refine ⟨_, opened, ?_⟩
    intro after saved
    obtain ⟨book, same⟩ := save_frame saved
    have text := get_of_save saved
    refine ⟨load_of_save (scalar_ofStore opened) saved, congrArg MacroBook.entries book, text, ?_⟩
    intro again resaved
    have retext := get_of_save resaved
    rw [book, same] at retext
    exact retext.trans text.symm

/-- Macros with empty texts and with signs that are written as escapes. -/
def escapedMacros : Macros :=
  (Macros.define (Macros.define default [] [[]]).1 "\"\\" ["\n\x01", "é😀"]).1

/-- A store that holds no whole document. -/
def spoiltStore : Store := ⟨.memory [(defaultKey, "[1, 2")], false⟩

theorem load_save_escaped :
    Reached escapedMacros ∧ escapedMacros.save = (escapedMacros.save.1, .ok true) ∧
      escapedMacros.save.1.load = .ok escapedMacros.save.1 ∧
      escapedMacros.save.1.book.entries = [([], [[]]), ("\"\\", ["\n\x01", "é😀"])] ∧
      ∃ loaded, ofStore spoiltStore defaultKey = .ok loaded ∧ loaded.book.entries = [] ∧
        loaded.save = (loaded.save.1, .ok true) ∧ loaded.save.1.load = .ok loaded.save.1 ∧
        loaded.save.1.save.1.store.get defaultKey = loaded.save.1.store.get defaultKey := by
  have opened : ofStore .empty [] = .ok default := rfl
  have reached : Reached escapedMacros :=
    .defined (.defined (.opened opened) (by decide) (by decide)) (by decide) (by decide)
  have saved : escapedMacros.save = (escapedMacros.save.1, .ok true) := rfl
  obtain ⟨again, entries, _⟩ := load_save.1 _ _ reached saved
  have found : spoiltStore.get defaultKey = .ok (some "[1, 2") := rfl
  obtain ⟨loaded, read, settled⟩ := load_save.2 _ _ _ found
  obtain ⟨stored, same, rfl⟩ := ofStore_eq_ok read
  rw [found] at same
  cases same
  obtain ⟨reload, _, _, resaved⟩ := settled _ rfl
  exact ⟨reached, saved, again, entries.trans (by decide), _, read, by decide, rfl, reload,
    resaved _ rfl⟩

end Macros

end GatedConsole
