import GatedConsole.Proofs.Files.Keys

/-!
A directory whose files are the texts of a store. Main statements: in such a directory every key
that can be the name of a file is read, written and deleted without a fault, and what is done under
one key changes one file, and at most its own backup.
-/

set_option autoImplicit false
set_option relaxedAutoImplicit false

namespace GatedConsole

open Files

namespace Files.Tree

variable {tree : Tree} {p : Path} {place : Place} {text : Text} {text? : Option Text}

/-- The text is what stands at the place, and without a text nothing is there. -/
def Holds (tree : Tree) (place : Place) (text? : Option Text) : Prop :=
  match text? with
  | none => tree.at? place = none
  | some text => ∃ bytes, Utf8.encode text = .ok bytes ∧ tree.at? place = some (.file bytes)

namespace Holds

theorem congr {after : Tree} (holds : tree.Holds place text?)
    (same : after.at? place = tree.at? place) : after.Holds place text? := by
  cases text? with
  | none => exact same.trans holds
  | some text =>
    obtain ⟨bytes, encoded, found⟩ := holds
    exact ⟨bytes, encoded, same.trans found⟩

theorem free (holds : tree.Holds place text?) : tree.at? place ≠ some .directory := by
  cases text? with
  | none =>
    intro found
    cases holds.symm.trans found
  | some text =>
    intro found
    obtain ⟨bytes, -, its⟩ := holds
    cases its.symm.trans found

theorem exists?_eq (holds : tree.Holds place text?) (reached : tree.follow p = .ok place) :
    tree.exists? p = .ok text?.isSome := by
  rw [exists?, entry, reached]
  dsimp only
  cases text? with
  | none =>
    have nothing : tree.at? place = none := holds
    rw [nothing]
    rfl
  | some text =>
    obtain ⟨bytes, -, found⟩ := holds
    rw [found]
    rfl

theorem entry_eq (holds : tree.Holds place (some text)) (reached : tree.follow p = .ok place) :
    ∃ bytes, Utf8.encode text = .ok bytes ∧ tree.entry p = .ok (.file bytes) := by
  obtain ⟨bytes, encoded, found⟩ := holds
  exact ⟨bytes, encoded, entry_eq_ok_iff.2 ⟨place, reached, found⟩⟩

/-- The same text is the same file. -/
theorem entry_congr {after : Tree} (holds : tree.Holds place text?)
    (holds' : after.Holds place text?) (reached : tree.follow p = .ok place)
    (reached' : after.follow p = .ok place) : after.entry p = tree.entry p := by
  have same : after.at? place = tree.at? place := by
    cases text? with
    | none => exact Eq.trans holds' holds.symm
    | some text =>
      obtain ⟨bytes, encoded, found⟩ := holds
      obtain ⟨bytes', encoded', found'⟩ := holds'
      cases encoded.symm.trans encoded'
      rw [found, found']
  rw [entry, entry, reached, reached']
  dsimp only
  rw [same]

theorem placeToWrite_eq (holds : tree.Holds place text?) (reached : tree.follow p = .ok place) :
    tree.placeToWrite p = .ok place := by
  rw [placeToWrite, reached]
  dsimp only
  split
  · rename_i found
    exact absurd found holds.free
  · rfl

end Holds

theorem holds_put {bytes : Bytes} (free : tree.at? place ≠ some .directory)
    (encoded : Utf8.encode text = .ok bytes) :
    (tree.put place (.file bytes)).Holds place (some text) :=
  ⟨bytes, encoded, at?_put_self (isAbove_eq_false free) _⟩

theorem holds_remove (free : tree.at? place ≠ some .directory) :
    (tree.remove place).Holds place none :=
  at?_remove_self (isAbove_eq_false free)

/-- The path leads to a directory that holds nothing. -/
def IsBare (tree : Tree) (p : Path) : Prop :=
  ∃ home, tree.follow p = .ok home ∧ tree.at? home = some .directory ∧
    tree.isLeaf home .directory = true

theorem at?_of_isLeaf {home : Place} {name : Name} (bare : tree.isLeaf home .directory = true)
    (below : isAbove (home ++ [name]) = false) : tree.at? (home ++ [name]) = none := by
  rw [at?, below, if_neg Bool.false_ne_true, Keyed.get?_eq_none_iff]
  intro entry mem same
  rw [isLeaf, Bool.not_eq_true', List.any_eq_false] at bare
  refine bare entry mem ?_
  dsimp only
  rw [same]
  simp

end Files.Tree

namespace Store

/-- The directory is there, and the files of its keys and their backups are these texts. -/
structure Folder (directory : Path) (home : Place) (files backups : Text → Option Text)
    (tree : Tree) : Prop where
  reached : tree.follow directory = .ok home
  here : tree.at? home = some .directory
  file : ∀ key, Usable directory key → tree.Holds (fileAt home key) (files key)
  backup : ∀ key, Usable directory key → tree.Holds (backupAt home key) (backups key)

variable {directory : Path} {home : Place} {files backups : Text → Option Text}
  {tree after : Tree} {key text : Text} {text? : Option Text} {bytes : Bytes} {fail : Bool}

theorem folder_of_isBare (bare : tree.IsBare directory) :
    ∃ home, Folder directory home (fun _ => none) (fun _ => none) tree := by
  obtain ⟨home, reached, here, leaf⟩ := bare
  refine ⟨home, reached, here, fun key usable => ?_, fun key usable => ?_⟩
  · exact Tree.at?_of_isLeaf leaf (usable.isAbove_concat (by decide) (by decide))
  · exact Tree.at?_of_isLeaf leaf (usable.isAbove_concat (by decide) (by decide))

namespace Folder

theorem follow_fileOf (folder : Folder directory home files backups tree)
    (usable : Usable directory key) : tree.follow (fileOf directory key) = .ok (fileAt home key) :=
  usable.follow_fileOf folder.reached folder.here

theorem follow_backupOf (folder : Folder directory home files backups tree)
    (usable : Usable directory key) :
    tree.follow (backupOf directory key) = .ok (backupAt home key) :=
  usable.follow_backupOf folder.reached folder.here

/-! ## One file changed -/

/-- What is known of the places of all keys is known again when only that of one key has changed. -/
theorem holds_update {texts : Text → Option Text} {placeOf : Text → Place}
    (holds : ∀ other, Usable directory other → tree.Holds (placeOf other) (texts other))
    (its : after.Holds (placeOf key) text?)
    (others : ∀ other, Usable directory other → other ≠ key →
      after.at? (placeOf other) = tree.at? (placeOf other)) :
    ∀ other, Usable directory other →
      after.Holds (placeOf other) (Function.update texts key text? other) := by
  intro other usable
  by_cases same : other = key
  · rw [same, Function.update_self]
    exact its
  · rw [Function.update_of_ne same]
    exact (holds other usable).congr (others other usable same)

theorem put_file (folder : Folder directory home files backups tree)
    (usable : Usable directory key) (encoded : Utf8.encode text = .ok bytes) :
    Folder directory home (Function.update files key (some text)) backups
      (tree.put (fileAt home key) (.file bytes)) where
  reached := (Tree.grows_put (folder.file key usable).free _).follow_eq folder.reached
  here := Tree.grows_put (folder.file key usable).free _ home folder.here
  file := holds_update folder.file (Tree.holds_put (folder.file key usable).free encoded)
    fun _ usable' apart => Tree.at?_put_of_ne (usable'.fileAt_ne usable apart) _
  backup other usable' :=
    (folder.backup other usable').congr
      (Tree.at?_put_of_ne (fileAt_ne_backupAt _ _).symm _)

theorem put_backup (folder : Folder directory home files backups tree)
    (usable : Usable directory key) (encoded : Utf8.encode text = .ok bytes) :
    Folder directory home files (Function.update backups key (some text))
      (tree.put (backupAt home key) (.file bytes)) where
  reached := (Tree.grows_put (folder.backup key usable).free _).follow_eq folder.reached
  here := Tree.grows_put (folder.backup key usable).free _ home folder.here
  file other usable' :=
    (folder.file other usable').congr
      (Tree.at?_put_of_ne (fileAt_ne_backupAt _ _) _)
  backup := holds_update folder.backup (Tree.holds_put (folder.backup key usable).free encoded)
    fun _ usable' apart => Tree.at?_put_of_ne (usable'.backupAt_ne usable apart) _

theorem remove_file (folder : Folder directory home files backups tree)
    (usable : Usable directory key) :
    Folder directory home (Function.update files key none) backups
      (tree.remove (fileAt home key)) where
  reached := (Tree.grows_remove (folder.file key usable).free).follow_eq folder.reached
  here := Tree.grows_remove (folder.file key usable).free home folder.here
  file := holds_update folder.file (Tree.holds_remove (folder.file key usable).free)
    fun _ usable' apart => Tree.at?_remove_of_ne (usable'.fileAt_ne usable apart)
  backup other usable' :=
    (folder.backup other usable').congr
      (Tree.at?_remove_of_ne (fileAt_ne_backupAt _ _).symm)

/-! ## The operations of a store -/

/-- A text comes back with its line ends unified. -/
theorem get_eq (folder : Folder directory home files backups tree)
    (usable : Usable directory key) :
    get ⟨.files directory tree, fail⟩ key = .ok ((files key).map Text.unifyNewlines) := by
  have holds := folder.file key usable
  have reached := folder.follow_fileOf usable
  simp only [get, holds.exists?_eq reached]
  cases its : files key with
  | none => rfl
  | some text =>
    rw [its] at holds
    obtain ⟨bytes, encoded, found⟩ := holds.entry_eq reached
    simp only [Option.isSome_some, textOf?_of_entry found encoded, Option.map_some]

/-- A text that is replaced becomes the backup; where there is none, the backup stays as it is. -/
theorem keepBackup_eq (folder : Folder directory home files backups tree)
    (usable : Usable directory key) :
    ∃ kept, keepBackup tree directory key = .ok kept ∧
      Folder directory home files
        (Function.update backups key ((files key).or (backups key))) kept := by
  have holds := folder.file key usable
  have reached := folder.follow_fileOf usable
  rw [keepBackup, holds.exists?_eq reached]
  cases its : files key with
  | none =>
    refine ⟨tree, rfl, ?_⟩
    rw [Option.none_or, Function.update_eq_self]
    exact folder
  | some text =>
    rw [its] at holds
    obtain ⟨bytes, encoded, found⟩ := holds.entry_eq reached
    refine ⟨tree.put (backupAt home key) (.file bytes), ?_, ?_⟩
    · have target := (folder.backup key usable).placeToWrite_eq (folder.follow_backupOf usable)
      simp only [Option.isSome_some, Tree.readBytes, found, Tree.writeBytes, target]
      rfl
    · rw [Option.some_or]
      exact folder.put_backup usable encoded

theorem setFile_eq (folder : Folder directory home files backups tree)
    (usable : Usable directory key) (encoded : Utf8.encode text = .ok bytes) :
    ∃ after, setFile tree directory key text = (after, .ok ()) ∧
      Folder directory home (Function.update files key (some text))
        (Function.update backups key ((files key).or (backups key))) after := by
  obtain ⟨kept, backup, folder'⟩ := folder.keepBackup_eq usable
  refine ⟨kept.put (fileAt home key) (.file bytes), ?_, folder'.put_file usable encoded⟩
  have target := (folder'.file key usable).placeToWrite_eq (folder'.follow_fileOf usable)
  simp only [setFile, backup, Tree.writeText, target, encoded]

theorem delete_eq (folder : Folder directory home files backups tree)
    (usable : Usable directory key) (fail : Bool) :
    ∃ after, delete ⟨.files directory tree, fail⟩ key =
        (⟨.files directory after, fail⟩, .ok (files key).isSome) ∧
      Folder directory home (Function.update files key none) backups after := by
  have holds := folder.file key usable
  have reached := folder.follow_fileOf usable
  simp only [delete, holds.exists?_eq reached]
  cases its : files key with
  | none =>
    refine ⟨tree, rfl, ?_⟩
    rw [← its, Function.update_eq_self]
    exact folder
  | some text =>
    rw [its] at holds
    obtain ⟨bytes, -, found⟩ := holds
    refine ⟨tree.remove (fileAt home key), ?_, folder.remove_file usable⟩
    simp only [Option.isSome_some, Tree.delete, reached, found]

end Folder

end Store

end GatedConsole
