import GatedConsole.Proofs.Files.Children

/-!
What the making of directories and the writing of files leave alone. Main statements: directories
that are made are there, and no file is touched by that; one that could not be made cannot be made
by trying again; and a write touches the file that its path leads to and no other.
-/

set_option autoImplicit false
set_option relaxedAutoImplicit false

namespace GatedConsole

namespace Path

theorem child_parent {p : Path} (inside : p.parts ≠ []) :
    ∃ name, p = p.parent.child name := by
  refine ⟨p.parts.getLast inside, ?_⟩
  rw [child, parent, List.dropLast_concat_getLast]

/-- What a path has if its parent has it, all paths have. -/
theorem parent_induction {motive : Path → Prop}
    (step : ∀ p : Path, (p.parts ≠ [] → motive p.parent) → motive p) (p : Path) : motive p := by
  generalize size : p.parts.length = n
  induction n generalizing p with
  | zero => exact step p fun inside => absurd (List.length_eq_zero_iff.1 size) inside
  | succ n ih =>
    refine step p fun _ => ih p.parent ?_
    rw [parent, List.length_dropLast, size, Nat.add_sub_cancel]

end Path

namespace Files.Tree

/-- No directory goes, and every file that is not at one of the touched places stays as it was. -/
structure Spares (touched : List Place) (tree after : Tree) : Prop where
  grows : tree.Grows after
  files : ∀ place, place ∉ touched → ∀ content,
    after.at? place = some (.file content) ↔ tree.at? place = some (.file content)

variable {touched : List Place} {tree after : Tree} {p : Path} {place : Place}

namespace Spares

theorem refl (touched : List Place) (tree : Tree) : Spares touched tree tree :=
  ⟨fun _ found => found, fun _ _ _ => Iff.rfl⟩

theorem trans {last : Tree} (h : Spares touched tree after) (h' : Spares touched after last) :
    Spares touched tree last where
  grows there found := h'.grows there (h.grows there found)
  files there apart content := (h'.files there apart content).trans (h.files there apart content)

/-- A file is put at a touched place, where no directory was. -/
theorem put_file (mem : place ∈ touched) (free : tree.at? place ≠ some .directory)
    (content : Bytes) : Spares touched tree (tree.put place (.file content)) where
  grows := grows_put free _
  files there apart content := by
    have elsewhere : there ≠ place := fun same => apart (by rwa [same])
    rw [at?_put_of_ne elsewhere]

/-- A directory is put where nothing was. -/
theorem put_directory (touched : List Place) (free : tree.at? place = none) :
    Spares touched tree (tree.put place .directory) where
  grows := grows_put (by rw [free]; nofun) _
  files there _ content := by
    by_cases same : there = place
    · subst same
      rw [at?_put_self (isAbove_eq_false (by rw [free]; nofun)), free]
      simp
    · rw [at?_put_of_ne same]

theorem writeText {text : Text} (mem : ∀ place, tree.follow p = .ok place → place ∈ touched) :
    Spares touched tree (tree.writeText p text).1 := by
  unfold Tree.writeText
  split
  · exact refl touched tree
  · rename_i place target
    obtain ⟨reached, free⟩ := follow_of_placeToWrite target
    split
    · exact put_file (mem place reached) free _
    · exact put_file (mem place reached) free _

end Spares

theorem Spares.at?_eq {found : Entry} (h : Spares touched tree after) (apart : place ∉ touched)
    (here : tree.at? place = some found) : after.at? place = some found := by
  cases found with
  | file content => exact (h.files place apart content).2 here
  | directory => exact h.grows place here

/-! ## Making directories -/

/-- One attempt to make a directory, whose parent ought to be there: it is made, or it is there
already, or it is refused. -/
inductive Attempt (tree : Tree) (p : Path) : Tree → Except Fault Unit → Prop
  | made {made : Tree} (h : tree.makeDirectory p = .ok made) : Attempt tree p made (.ok ())
  | there {fault : Fault} (h : tree.makeDirectory p = .error fault)
      (found : tree.isDirectory p = true) : Attempt tree p tree (.ok ())
  | refused {fault : Fault} (h : tree.makeDirectory p = .error fault)
      (absent : tree.isDirectory p = false) : Attempt tree p tree (.error fault)

/-- What comes of making a directory and those above it that are missing. -/
inductive Making (tree : Tree) (p : Path) : Tree → Except Fault Unit → Prop
  | once {after : Tree} {outcome : Except Fault Unit}
      (present : tree.makeDirectory p ≠ .error .notFound) (attempt : Attempt tree p after outcome) :
      Making tree p after outcome
  | top (missing : tree.makeDirectory p = .error .notFound) (top : p.parts = []) :
      Making tree p tree (.error .notFound)
  | blocked {above : Tree} {fault : Fault} (missing : tree.makeDirectory p = .error .notFound)
      (inside : p.parts ≠ []) (parent : tree.makeDirectories p.parent = (above, .error fault)) :
      Making tree p above (.error fault)
  | below {above after : Tree} {outcome : Except Fault Unit}
      (missing : tree.makeDirectory p = .error .notFound) (inside : p.parts ≠ [])
      (parent : tree.makeDirectories p.parent = (above, .ok ()))
      (attempt : Attempt above p after outcome) : Making tree p after outcome

theorem makeDirectory_of_isDirectory (there : tree.isDirectory p = true) :
    tree.makeDirectory p = .error .alreadyExists := by
  obtain ⟨place, reached, here⟩ := isDirectory_iff.1 there
  rw [makeDirectory, reached]
  dsimp only
  rw [here]

theorem attempt_settleDirectory {fault : Fault} (h : tree.makeDirectory p = .error fault) :
    Attempt tree p (tree.settleDirectory p fault).1 (tree.settleDirectory p fault).2 := by
  unfold settleDirectory
  cases found : tree.isDirectory p with
  | false =>
    rw [Bool.and_false, if_neg Bool.false_ne_true]
    exact .refused h found
  | true =>
    have same := makeDirectory_of_isDirectory found
    rw [h] at same
    cases same
    exact .there h found

theorem making (tree : Tree) (p : Path) :
    Making tree p (tree.makeDirectories p).1 (tree.makeDirectories p).2 := by
  rw [makeDirectories]
  split
  · rename_i made tried
    exact .once (by rw [tried]; nofun) (.made tried)
  · rename_i missing
    by_cases top : p.parts = []
    · rw [dif_pos top]
      exact .top missing top
    · rw [dif_neg top]
      cases parent : tree.makeDirectories p.parent with
      | mk above outcome =>
        cases outcome with
        | error fault => exact .blocked missing top parent
        | ok _ =>
          refine .below missing top parent ?_
          dsimp only
          cases again : above.makeDirectory p with
          | ok made => exact .made again
          | error fault => exact attempt_settleDirectory again
  · rename_i fault present tried
    refine .once ?_ (attempt_settleDirectory tried)
    rw [tried]
    exact fun same => present (Except.error.inj same)

theorem isDirectory_parent (inside : p.parts ≠ []) (h : tree.follow p = .ok place) :
    tree.isDirectory p.parent = true := by
  obtain ⟨name, its⟩ := p.child_parent inside
  rw [its] at h
  obtain ⟨-, there, reached, found, -⟩ := follow_of_child h
  exact isDirectory_iff.2 ⟨there, reached, found⟩

theorem follow_of_makeDirectory (h : tree.makeDirectory p = .ok after) :
    ∃ place, tree.follow p = .ok place ∧ tree.at? place = none ∧
      after = tree.put place .directory := by
  unfold makeDirectory at h
  split at h
  · cases h
  · rename_i place reached
    split at h
    · cases h
    · rename_i free
      cases h
      exact ⟨place, reached, free, rfl⟩

theorem Attempt.spares {outcome : Except Fault Unit} (touched : List Place)
    (h : Attempt tree p after outcome) : Spares touched tree after := by
  cases h with
  | made h =>
    obtain ⟨place, -, free, rfl⟩ := follow_of_makeDirectory h
    exact .put_directory touched free
  | there | refused => exact .refl touched tree

theorem Attempt.isDirectory (h : Attempt tree p after (.ok ())) : after.isDirectory p = true := by
  cases h with
  | made h =>
    obtain ⟨place, reached, free, rfl⟩ := follow_of_makeDirectory h
    have nothing : tree.at? place ≠ some .directory := by
      rw [free]
      nofun
    refine isDirectory_iff.2 ⟨place, (grows_put nothing _).follow_eq reached, ?_⟩
    exact at?_put_self (isAbove_eq_false nothing) _
  | there _ found => exact found

/-- No file is touched when directories are made. -/
theorem Spares.makeDirectories (touched : List Place) (tree : Tree) (p : Path) :
    Spares touched tree (tree.makeDirectories p).1 := by
  induction p using Path.parent_induction with
  | step p ih =>
    generalize its : tree.makeDirectories p = result
    have makes := making tree p
    rw [its] at makes
    obtain ⟨after, outcome⟩ := result
    cases makes with
    | once _ attempt => exact attempt.spares touched
    | top => exact .refl touched _
    | blocked _ inside parent =>
      have above := ih inside
      rwa [parent] at above
    | below _ inside parent attempt =>
      have above := ih inside
      rw [parent] at above
      exact above.trans (attempt.spares touched)

theorem spares_of_makeDirectories {outcome : Except Fault Unit}
    (h : tree.makeDirectories p = (after, outcome)) (touched : List Place) :
    Spares touched tree after := by
  have spares := Spares.makeDirectories touched tree p
  rwa [h] at spares

theorem isDirectory_of_makeDirectories (h : tree.makeDirectories p = (after, .ok ())) :
    after.isDirectory p = true := by
  have makes := making tree p
  rw [h] at makes
  cases makes with
  | once _ attempt => exact attempt.isDirectory
  | below _ _ _ attempt => exact attempt.isDirectory

/-- What has been refused is refused again. -/
theorem Attempt.not_refused {fault : Fault} (h : Attempt tree p after (.ok ()))
    (refused : tree.makeDirectory p = .error fault) (absent : tree.isDirectory p = false) :
    False := by
  cases h with
  | made h =>
    rw [refused] at h
    cases h
  | there _ found =>
    rw [absent] at found
    cases found

/-- A directory can be made, or is there, only where its parent is. -/
theorem Attempt.isDirectory_parent (inside : p.parts ≠ []) (h : Attempt tree p after (.ok ())) :
    tree.isDirectory p.parent = true := by
  cases h with
  | made h =>
    obtain ⟨place, reached, -⟩ := follow_of_makeDirectory h
    exact Tree.isDirectory_parent inside reached
  | there _ found =>
    obtain ⟨place, reached, -⟩ := isDirectory_iff.1 found
    exact Tree.isDirectory_parent inside reached

/-- What could not be made cannot be made by trying again. -/
theorem makeDirectories_again {fault : Fault} (h : tree.makeDirectories p = (after, .error fault)) :
    (after.makeDirectories p).2 ≠ .ok () := by
  induction p using Path.parent_induction generalizing tree after fault with
  | step p ih =>
    intro good
    have first := making tree p
    have second := making after p
    rw [h] at first
    rw [good] at second
    generalize (after.makeDirectories p).1 = last at second
    cases first with
    | once present attempt =>
      cases attempt with
      | refused h absent =>
        cases second with
        | once _ again => exact again.not_refused h absent
        | below missing => exact present missing
    | top missing top =>
      cases second with
      | once present => exact present missing
      | below _ inside => exact inside top
    | blocked missing inside parent =>
      have still := ih inside parent
      cases second with
      | once _ again =>
        rw [makeDirectories_of_isDirectory (again.isDirectory_parent inside)] at still
        exact still rfl
      | below _ _ parent' =>
        rw [parent'] at still
        exact still rfl
    | below missing inside parent attempt =>
      cases attempt with
      | refused h absent =>
        cases second with
        | once _ again => exact again.not_refused h absent
        | below _ _ parent' again =>
          rw [makeDirectories_of_isDirectory (isDirectory_of_makeDirectories parent)] at parent'
          cases parent'
          exact again.not_refused h absent

end Files.Tree

end GatedConsole
