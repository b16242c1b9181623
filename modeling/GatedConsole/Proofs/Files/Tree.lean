import GatedConsole.Files.Tree
import GatedConsole.Proofs.Keyed

/-!
What writing and removing a file does to a tree. Main statements: whatever can be reached stays
where it was as long as no directory goes, and the file holds what was written. A directory that is
there need not be made.
-/

set_option autoImplicit false
set_option relaxedAutoImplicit false

namespace GatedConsole.Files.Tree

variable {tree : Tree} {place other : Place} {content : Bytes} {p : Path}

theorem at?_put_self (below : isAbove place = false) (entry : Entry) :
    (tree.put place entry).at? place = some entry := by
  rw [at?, below, if_neg Bool.false_ne_true]
  exact Keyed.get?_put_self place entry tree.entries

theorem at?_put_of_ne (apart : other ≠ place) (entry : Entry) :
    (tree.put place entry).at? other = tree.at? other := by
  unfold at?
  split
  · rfl
  · exact Keyed.get?_put_of_ne apart entry tree.entries

theorem at?_remove_self (below : isAbove place = false) : (tree.remove place).at? place = none := by
  rw [at?, below, if_neg Bool.false_ne_true]
  exact Keyed.get?_erase_self place tree.entries

theorem at?_remove_of_ne (apart : other ≠ place) :
    (tree.remove place).at? other = tree.at? other := by
  unfold at?
  split
  · rfl
  · exact Keyed.get?_erase_of_ne apart tree.entries

theorem isAbove_eq_false (h : tree.at? place ≠ some .directory) : isAbove place = false := by
  rw [← Bool.not_eq_true]
  intro above
  exact h (by rw [at?, if_pos above])

/-- What is there already is put there without any change. -/
theorem put_of_at? (found : tree.at? place = some (.file content)) :
    tree.put place (.file content) = tree := by
  have below : isAbove place = false := isAbove_eq_false (by rw [found]; nofun)
  rw [at?, below, if_neg Bool.false_ne_true] at found
  rw [put, Keyed.put_of_get? found]

/-- Every directory of the first tree is one of the second. -/
def Grows (tree after : Tree) : Prop :=
  ∀ place, tree.at? place = some .directory → after.at? place = some .directory

/-- What is put where no directory was takes no directory away. -/
theorem grows_put (free : tree.at? place ≠ some .directory) (entry : Entry) :
    tree.Grows (tree.put place entry) := by
  intro there found
  have apart : there ≠ place := by
    rintro rfl
    exact free found
  rw [at?_put_of_ne apart, found]

/-- What is removed where no directory was takes no directory away. -/
theorem grows_remove (free : tree.at? place ≠ some .directory) :
    tree.Grows (tree.remove place) := by
  intro there found
  have apart : there ≠ place := by
    rintro rfl
    exact free found
  rw [at?_remove_of_ne apart, found]

theorem Grows.step_eq {after : Tree} (grows : tree.Grows after) {start next : Place} {name : Name}
    (h : tree.step start name = .ok next) : after.step start name = .ok next := by
  unfold step at h ⊢
  split at h
  · cases h
  · cases h
  · rename_i found
    rw [grows start found]
    exact h

private theorem Grows.foldlM_step_eq {after : Tree} (grows : tree.Grows after) {names : List Name}
    {start last : Place} (h : names.foldlM tree.step start = .ok last) :
    names.foldlM after.step start = .ok last := by
  induction names generalizing start with
  | nil => exact h
  | cons name names ih =>
    rw [List.foldlM_cons] at h ⊢
    cases first : tree.step start name with
    | error fault =>
      rw [first] at h
      cases h
    | ok next =>
      rw [first] at h
      rw [grows.step_eq first]
      exact ih h

/-- A way through directories stays one. -/
theorem Grows.follow_eq {after : Tree} (grows : tree.Grows after) (h : tree.follow p = .ok other) :
    after.follow p = .ok other := by
  unfold follow at h ⊢
  split
  · rename_i fault bad
    rw [bad] at h
    cases h
  · rename_i good
    rw [good] at h
    dsimp only at h
    split
    · rename_i absolute
      rw [if_pos absolute] at h
      cases h
    · rename_i relative
      rw [if_neg relative] at h
      exact grows.foldlM_step_eq h

theorem follow_of_placeToWrite (h : tree.placeToWrite p = .ok place) :
    tree.follow p = .ok place ∧ tree.at? place ≠ some .directory := by
  unfold placeToWrite at h
  split at h
  · cases h
  · rename_i found reached
    split at h
    · cases h
    · rename_i free
      cases h
      exact ⟨reached, free⟩

theorem entry_eq_ok_iff {found : Entry} :
    tree.entry p = .ok found ↔
      ∃ place, tree.follow p = .ok place ∧ tree.at? place = some found := by
  unfold entry
  constructor
  · intro h
    split at h
    · cases h
    · rename_i place reached
      split at h
      · rename_i here
        cases h
        exact ⟨place, reached, here⟩
      · cases h
  · rintro ⟨place, reached, here⟩
    rw [reached]
    dsimp only
    rw [here]

theorem exists?_eq_true_iff :
    tree.exists? p = .ok true ↔ ∃ found, tree.entry p = .ok found := by
  unfold exists?
  constructor
  · intro h
    split at h
    · rename_i found its
      exact ⟨found, its⟩
    · cases h
    · cases h
  · rintro ⟨found, its⟩
    rw [its]

/-- What can be followed is a relative path that the system takes. -/
theorem pathFault?_of_follow (h : tree.follow p = .ok place) :
    pathFault? p = none ∧ p.start = [] := by
  unfold follow at h
  split at h
  · cases h
  · rename_i whole
    split at h
    · cases h
    · rename_i relative
      exact ⟨whole, Decidable.not_not.1 relative⟩

/-- Where a path can be followed, something is there or nothing is. -/
theorem exists?_of_follow (h : tree.follow p = .ok place) :
    ∃ found, tree.exists? p = .ok found := by
  rw [exists?, entry, h]
  dsimp only
  cases tree.at? place with
  | none => exact ⟨false, rfl⟩
  | some _ => exact ⟨true, rfl⟩

theorem entry_of_readBytes (h : tree.readBytes p = .ok content) :
    tree.entry p = .ok (.file content) := by
  unfold readBytes at h
  split at h
  · cases h
  · cases h
  · rename_i found
    cases h
    exact found

theorem readBytes_of_entry (h : tree.entry p = .ok (.file content)) :
    tree.readBytes p = .ok content := by
  rw [readBytes, h]

/-- What has been written at a path is there. -/
theorem entry_put (h : tree.placeToWrite p = .ok place) :
    (tree.put place (.file content)).entry p = .ok (.file content) := by
  obtain ⟨reached, free⟩ := follow_of_placeToWrite h
  rw [entry, (grows_put free _).follow_eq reached]
  dsimp only
  rw [at?_put_self (isAbove_eq_false free)]

theorem put_of_writeText {after : Tree} {text : Text}
    (h : tree.writeText p text = (after, .ok ())) :
    ∃ place bytes, tree.placeToWrite p = .ok place ∧ Utf8.encode text = .ok bytes ∧
      after = tree.put place (.file bytes) := by
  unfold writeText at h
  split at h
  · cases h
  · rename_i place target
    split at h
    · cases h
    · rename_i bytes encoded
      cases h
      exact ⟨place, bytes, target, encoded, rfl⟩

theorem entry_of_writeText {after : Tree} {text : Text}
    (h : tree.writeText p text = (after, .ok ())) :
    ∃ bytes, Utf8.encode text = .ok bytes ∧ after.entry p = .ok (.file bytes) := by
  obtain ⟨place, bytes, target, encoded, rfl⟩ := put_of_writeText h
  exact ⟨bytes, encoded, entry_put target⟩

theorem placeToWrite_of_file (file : tree.entry p = .ok (.file content)) :
    ∃ place, tree.placeToWrite p = .ok place ∧ tree.at? place = some (.file content) := by
  obtain ⟨place, reached, found⟩ := entry_eq_ok_iff.1 file
  refine ⟨place, ?_, found⟩
  rw [placeToWrite, reached]
  dsimp only
  rw [found]

/-- A file that is there can be written, and still can when another one has been. -/
theorem placeToWrite_put_of_file {old : Bytes} (file : tree.entry p = .ok (.file old))
    (free : tree.at? place ≠ some .directory) :
    ∃ there, (tree.put place (.file content)).placeToWrite p = .ok there := by
  obtain ⟨there, reached, its_file⟩ := entry_eq_ok_iff.1 file
  refine ⟨there, ?_⟩
  rw [placeToWrite, (grows_put free _).follow_eq reached]
  have no_directory : (tree.put place (.file content)).at? there ≠ some .directory := by
    by_cases same : there = place
    · subst same
      rw [at?_put_self (isAbove_eq_false free)]
      nofun
    · rw [at?_put_of_ne same, its_file]
      nofun
  dsimp only
  split
  · rename_i found
    exact absurd found no_directory
  · rfl

/-! ## Directories -/

theorem isDirectory_iff :
    tree.isDirectory p = true ↔
      ∃ place, tree.follow p = .ok place ∧ tree.at? place = some .directory := by
  rw [← entry_eq_ok_iff, isDirectory]
  constructor
  · intro there
    split at there
    · rename_i found
      exact found
    · cases there
  · intro found
    rw [found]

/-- A directory that is there already is made without any change. -/
theorem makeDirectories_of_isDirectory (there : tree.isDirectory p = true) :
    tree.makeDirectories p = (tree, .ok ()) := by
  obtain ⟨place, reached, here⟩ := isDirectory_iff.1 there
  have refused : tree.makeDirectory p = .error .alreadyExists := by
    rw [makeDirectory, reached]
    dsimp only
    rw [here]
  rw [makeDirectories, refused]
  dsimp only
  rw [settleDirectory, there]
  rfl

theorem Grows.isDirectory {after : Tree} (grows : tree.Grows after)
    (there : tree.isDirectory p = true) : after.isDirectory p = true := by
  obtain ⟨inside, reached, here⟩ := isDirectory_iff.1 there
  exact isDirectory_iff.2 ⟨inside, grows.follow_eq reached, grows inside here⟩

theorem isDirectory_writeText {after : Tree} (there : tree.isDirectory p = true) {q : Path}
    {text : Text} {outcome : Except Fault Unit} (h : tree.writeText q text = (after, outcome)) :
    after.isDirectory p = true := by
  unfold writeText at h
  split at h
  · cases h
    exact there
  · rename_i place target
    have free := (follow_of_placeToWrite target).2
    split at h
    · cases h
      exact (grows_put free _).isDirectory there
    · cases h
      exact (grows_put free _).isDirectory there

end GatedConsole.Files.Tree
