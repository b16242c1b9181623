import GatedConsole.Proofs.Files.Tree
import GatedConsole.Proofs.Text.Utf8
import GatedConsole.Store

/-!
What a write does to a store, in memory and as files alike. Main statements: a write that went well
stores the text, one that failed leaves the stored text as it was, and where a file and its backup
can be written once they always can.
-/

set_option autoImplicit false
set_option relaxedAutoImplicit false

namespace GatedConsole.Store

open Files

/-- A text as it comes back from the store; files lose the kind of their line ends. -/
def shown (store : Store) (text : Text) : Text :=
  match store.medium with
  | .memory _ => text
  | .files _ _ => text.unifyNewlines

theorem get_of_medium_eq {a b : Store} (h : a.medium = b.medium) (key : Text) :
    a.get key = b.get key := by
  rw [get, get, h]

theorem textOf?_of_entry {tree : Tree} {p : Path} {bytes : Bytes} {text : Text}
    (file : tree.entry p = .ok (.file bytes)) (encoded : Utf8.encode text = .ok bytes) :
    textOf? tree p = some text.unifyNewlines := by
  simp only [textOf?, Tree.readBytes, file, Utf8.decode_of_encode encoded]

private theorem getFile_of_entry {tree : Tree} {directory : Path} {key : Text} {bytes : Bytes}
    {text : Text} (file : tree.entry (fileOf directory key) = .ok (.file bytes))
    (encoded : Utf8.encode text = .ok bytes) (fail : Bool) :
    get ⟨.files directory tree, fail⟩ key = .ok (some text.unifyNewlines) := by
  simp only [get, Tree.exists?, file, textOf?_of_entry file encoded]

theorem entry_of_setFile {tree after : Tree} {directory : Path} {key text : Text}
    (h : setFile tree directory key text = (after, .ok ())) :
    ∃ bytes, Utf8.encode text = .ok bytes ∧
      after.entry (fileOf directory key) = .ok (.file bytes) := by
  unfold setFile at h
  split at h
  · cases h
  · exact Tree.entry_of_writeText h

/-- A write that went well stores the text. -/
theorem get_set {store after : Store} {key text : Text} (h : store.set key text = (after, .ok ())) :
    after.get key = .ok (some (store.shown text)) := by
  unfold set at h
  split at h
  · cases h
  · split at h
    · rename_i texts medium
      cases h
      simp only [get, shown, medium, Keyed.get?_put_self]
    · rename_i directory tree medium
      cases outcome : setFile tree directory key text with
      | mk made result =>
        simp only [outcome, Prod.mk.injEq] at h
        obtain ⟨rfl, rfl⟩ := h
        obtain ⟨bytes, encoded, file⟩ := entry_of_setFile outcome
        rw [shown, medium]
        exact getFile_of_entry file encoded store.writesFail

/-- There was nothing to keep, or the file stands in its backup. -/
theorem keepBackup_cases {tree kept : Tree} {directory : Path} {key : Text}
    (h : keepBackup tree directory key = .ok kept) :
    (tree.exists? (fileOf directory key) = .ok false ∧ kept = tree) ∨
      ∃ old place, tree.readBytes (fileOf directory key) = .ok old ∧
        tree.placeToWrite (backupOf directory key) = .ok place ∧
        kept = tree.put place (.file old) := by
  unfold keepBackup at h
  split at h
  · cases h
  · rename_i missing
    cases h
    exact .inl ⟨missing, rfl⟩
  · split at h
    · cases h
    · rename_i content read
      cases target : tree.placeToWrite (backupOf directory key) with
      | error fault =>
        rw [Tree.writeBytes, target] at h
        cases h
      | ok place =>
        rw [Tree.writeBytes, target] at h
        cases h
        exact .inr ⟨content, place, read, rfl, rfl⟩

/-- A text that can be encoded fails to be written only where nothing can. -/
theorem writeText_error {tree after : Tree} {p : Path} {text : Text} {fault : Fault}
    {bytes : Bytes} (encoded : Utf8.encode text = .ok bytes)
    (h : tree.writeText p text = (after, .error fault)) :
    after = tree ∧ tree.placeToWrite p = .error fault := by
  unfold Tree.writeText at h
  split at h
  · rename_i refused
    cases h
    exact ⟨rfl, refused⟩
  · rw [encoded] at h
    cases h

private theorem setFile_error {tree after : Tree} {directory : Path} {key text : Text}
    {fault : Fault} {bytes : Bytes} (encoded : Utf8.encode text = .ok bytes)
    (h : setFile tree directory key text = (after, .error fault)) : after = tree := by
  unfold setFile at h
  split at h
  · cases h
    rfl
  · rename_i kept backup
    obtain ⟨rfl, refused⟩ := writeText_error encoded h
    rcases keepBackup_cases backup with ⟨-, same⟩ | ⟨old, place, read, target, rfl⟩
    · exact same
    · -- when a backup has been kept, the file itself can still be written
      obtain ⟨there, free⟩ : ∃ there,
          (tree.put place (.file old)).placeToWrite (fileOf directory key) = .ok there :=
        Tree.placeToWrite_put_of_file (Tree.entry_of_readBytes read)
          (Tree.follow_of_placeToWrite target).2
      rw [free] at refused
      cases refused

/-- A write that failed leaves the store as it was. -/
theorem set_error {store after : Store} {key text : Text} {fault : Fault} {bytes : Bytes}
    (encoded : Utf8.encode text = .ok bytes) (h : store.set key text = (after, .error fault)) :
    after = store := by
  unfold set at h
  split at h
  · cases h
    rfl
  · split at h
    · cases h
    · rename_i directory tree medium
      cases outcome : setFile tree directory key text with
      | mk made result =>
        simp only [outcome, Prod.mk.injEq] at h
        obtain ⟨rfl, rfl⟩ := h
        rw [setFile_error encoded outcome, ← medium]

/-! ## Files that can always be written -/

theorem isDirectory_setFile {tree after : Tree} {directory p : Path} {key text : Text}
    {outcome : Except Fault Unit} (there : tree.isDirectory p = true)
    (h : setFile tree directory key text = (after, outcome)) : after.isDirectory p = true := by
  unfold setFile at h
  split at h
  · cases h
    exact there
  · rename_i kept backup
    refine Tree.isDirectory_writeText ?_ h
    rcases keepBackup_cases backup with ⟨-, rfl⟩ | ⟨old, place, -, target, rfl⟩
    · exact there
    · exact (Tree.grows_put (Tree.follow_of_placeToWrite target).2 _).isDirectory there

/-- The key has a file, and a backup can stand beside it. -/
structure Backed (tree : Tree) (directory : Path) (key : Text) : Prop where
  file : ∃ bytes, tree.entry (fileOf directory key) = .ok (.file bytes)
  backup : ∃ place, tree.placeToWrite (backupOf directory key) = .ok place

/-- A key with a file and a backup takes every text that can be encoded, and keeps both. -/
theorem setFile_of_backed {tree : Tree} {directory : Path} {key text : Text} {bytes : Bytes}
    (backed : Backed tree directory key) (encoded : Utf8.encode text = .ok bytes) :
    ∃ after, setFile tree directory key text = (after, .ok ()) ∧ Backed after directory key := by
  obtain ⟨⟨old, file⟩, there, target⟩ := backed
  have beside := (Tree.follow_of_placeToWrite target).2
  have kept : keepBackup tree directory key = .ok (tree.put there (.file old)) := by
    rw [keepBackup, Tree.exists?, Tree.readBytes, file]
    dsimp only
    rw [Tree.writeBytes, target]
    rfl
  obtain ⟨place, target'⟩ : ∃ place,
      (tree.put there (.file old)).placeToWrite (fileOf directory key) = .ok place :=
    Tree.placeToWrite_put_of_file file beside
  have free := (Tree.follow_of_placeToWrite target').2
  refine ⟨(tree.put there (.file old)).put place (.file bytes), ?_, ?_, ?_⟩
  · rw [setFile, kept]
    dsimp only
    rw [Tree.writeText, target', encoded]
  · exact ⟨bytes, Tree.entry_put target'⟩
  · exact Tree.placeToWrite_put_of_file (Tree.entry_put target) free

end GatedConsole.Store
