import GatedConsole.Macro.Keeping
import GatedConsole.Proofs.Files.Naming
import GatedConsole.Proofs.Json.Plain

/-!
What saving a macro book does. Main statements: the store holds the written book when the write went
well, and what it held before when it did not; and nothing but the system ever refuses the book, if
the store can name its key.
-/

set_option autoImplicit false
set_option relaxedAutoImplicit false

namespace GatedConsole.Macros

theorem write_encoded (book : MacroBook) : ∃ bytes, Utf8.encode book.write = .ok bytes :=
  ⟨_, (Json.isPlain_write book.toJson).encode_eq⟩

/-- A written book comes back from every store as it is. -/
theorem shown_write (store : Store) (book : MacroBook) : store.shown book.write = book.write := by
  unfold Store.shown
  split
  · rfl
  · exact (Json.isPlain_write book.toJson).unifyNewlines_eq

/-- How the store takes the book. -/
def written (macros : Macros) : Except Files.Fault Unit :=
  (macros.store.set macros.key macros.book.write).2

theorem book_save (macros : Macros) : macros.save.1.book = macros.book := by
  unfold save
  split <;> rfl

theorem key_save (macros : Macros) : macros.save.1.key = macros.key := by
  unfold save
  split <;> rfl

theorem save_of_written {macros : Macros} (h : macros.written = .ok ()) :
    macros.save.2 = .ok true ∧
      macros.save.1.store.get macros.key = .ok (some macros.book.write) := by
  unfold save
  split
  · rename_i store outcome
    refine ⟨rfl, ?_⟩
    rw [Store.get_set outcome, shown_write]
  · rename_i store fault outcome
    rw [written, outcome] at h
    cases h

theorem save_of_not_written {macros : Macros} {fault : Files.Fault}
    (h : macros.written = .error fault) :
    macros.save = (macros, if fault.isSystem then .ok false else .error fault) := by
  unfold save
  split
  · rename_i store outcome
    rw [written, outcome] at h
    cases h
  · rename_i store fault' outcome
    obtain ⟨bytes, encoded⟩ := write_encoded macros.book
    rw [written, outcome] at h
    cases h
    rw [Store.set_error encoded outcome]

/-! ## Refusals -/

/-- The store can give the key of the book the name of a file, if it works on files. -/
def Named (macros : Macros) : Prop := macros.store.Names macros.key

theorem Named.isSystem {macros : Macros} (named : macros.Named) {fault : Files.Fault}
    (h : macros.written = .error fault) : fault.isSystem = true := by
  obtain ⟨bytes, encoded⟩ := write_encoded macros.book
  exact Store.Names.isSystem named encoded (Prod.ext rfl h)

theorem store_save (macros : Macros) :
    macros.save.1.store = (macros.store.set macros.key macros.book.write).1 := by
  unfold save
  split
  · rename_i outcome
    rw [outcome]
  · rename_i outcome
    rw [outcome]

theorem Named.inscribe {macros : Macros} (named : macros.Named) (name : Text)
    (commands : List Text) (filled : commands ≠ []) :
    (macros.inscribe name commands filled).1.Named := by
  rw [Named, Macros.inscribe, store_save, key_save]
  exact Store.Names.set named macros.key _

end GatedConsole.Macros
