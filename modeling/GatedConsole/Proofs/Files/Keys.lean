import GatedConsole.Proofs.Files.Children

/-!
The files that a store has for its keys. Main statements: a key that can be the name of a file has a
file and a backup in the directory of the store; no two keys share either, and no file of one key is
the backup of another.
-/

set_option autoImplicit false
set_option relaxedAutoImplicit false

namespace GatedConsole

open Files

/-! ## Names of texts -/

namespace Files.Name

theorem ofText_eq_flatMap {t : Text} (scalar : ∀ c ∈ t, c.isSurrogate = false) :
    ofText t = t.flatMap Utf8.encodeOne := by
  have alone : ∀ c ∈ t, bytesOf c = Utf8.encodeOne c := by
    intro c mem
    have no_mark : isMark c = false := by
      have plain := scalar c mem
      simp only [CodePoint.isSurrogate, Bool.and_eq_false_iff, decide_eq_false_iff_not] at plain
      simp only [isMark, Bool.and_eq_false_iff, decide_eq_false_iff_not]
      omega
    rw [bytesOf, no_mark, if_neg Bool.false_ne_true]
  rw [ofText, List.flatMap_def, List.flatMap_def, List.map_congr_left alone]

/-- Texts without surrogates that give the same name are the same. -/
theorem eq_of_ofText_eq {t u : Text} (scalar : ∀ c ∈ t, c.isSurrogate = false)
    (scalar' : ∀ c ∈ u, c.isSurrogate = false) (same : ofText t = ofText u) : t = u := by
  have read := Utf8.decodeFrom_flatMap scalar 0
  have read' := Utf8.decodeFrom_flatMap scalar' 0
  rw [← ofText_eq_flatMap scalar, same, ofText_eq_flatMap scalar', read'] at read
  exact (Except.ok.inj read).symm

theorem getLast?_ofText_append (t : Text) {s : Text} {b : UInt8}
    (ends : (ofText s).getLast? = some b) : (ofText (t ++ s)).getLast? = some b := by
  rw [ofText_append, List.getLast?_append, ends]
  rfl

/-- No file has the name of a backup, since the names end in different signs. -/
theorem ofText_json_ne_backup (t u : Text) : ofText (t ++ ".json") ≠ ofText (u ++ ".json.bak") := by
  intro same
  have ends : (ofText (t ++ ".json")).getLast? = some 110 := getLast?_ofText_append t (by decide)
  have ends' : (ofText (u ++ ".json.bak")).getLast? = some 107 :=
    getLast?_ofText_append u (by decide)
  rw [same, ends'] at ends
  exact absurd ends (by decide)

end Files.Name

/-! ## Keys -/

namespace Store

/-- The key can be the name of a file in the directory. -/
structure Usable (directory : Path) (key : Text) : Prop where
  some_sign : key ≠ []
  scalar : ∀ c ∈ key, c.isSurrogate = false
  no_slash : CodePoint.ofChar '/' ∉ key
  no_nul : ∀ c ∈ key, c.val ≠ 0
  name_fits : (Name.ofText (key ++ ".json.bak")).length ≤ Name.bound
  path_fits : (Name.ofText (directory.child (key ++ ".json.bak")).text).length ≤ pathBound

instance (directory : Path) (key : Text) : Decidable (Usable directory key) :=
  decidable_of_iff
    (key ≠ [] ∧ (∀ c ∈ key, c.isSurrogate = false) ∧ CodePoint.ofChar '/' ∉ key ∧
      (∀ c ∈ key, c.val ≠ 0) ∧ (Name.ofText (key ++ ".json.bak")).length ≤ Name.bound ∧
      (Name.ofText (directory.child (key ++ ".json.bak")).text).length ≤ pathBound)
    ⟨fun h => ⟨h.1, h.2.1, h.2.2.1, h.2.2.2.1, h.2.2.2.2.1, h.2.2.2.2.2⟩,
      fun h => ⟨h.some_sign, h.scalar, h.no_slash, h.no_nul, h.name_fits, h.path_fits⟩⟩

/-- The place of the file of a key in the directory at `home`. -/
def fileAt (home : Place) (key : Text) : Place := home ++ [Name.ofText (key ++ ".json")]

/-- The place of the backup of that file. -/
def backupAt (home : Place) (key : Text) : Place := home ++ [Name.ofText (key ++ ".json.bak")]

variable {tree : Tree} {directory : Path} {home : Place} {key key' : Text}

/-- The backup has the longer name of the two. -/
theorem length_fileName_le (key : Text) :
    (Name.ofText (key ++ ".json")).length ≤ (Name.ofText (key ++ ".json.bak")).length := by
  have parts : Text.ofString ".json.bak" = Text.ofString ".json" ++ Text.ofString ".bak" := by
    decide
  rw [parts, ← List.append_assoc, ofText_append _ (Text.ofString ".bak"), List.length_append]
  exact Nat.le_add_right _ _

/-- No file of one key is the backup of another. -/
theorem fileAt_ne_backupAt (key key' : Text) : fileAt home key ≠ backupAt home key' :=
  fun same => Name.ofText_json_ne_backup key key'
    (List.singleton_inj.1 (List.append_cancel_left same))

namespace Usable

theorem fileOf_eq (h : Usable directory key) :
    fileOf directory key = directory.child (key ++ ".json") :=
  fileOf_eq_child directory h.some_sign h.no_slash

theorem backupOf_eq (h : Usable directory key) :
    backupOf directory key = directory.child (key ++ ".json.bak") :=
  backupOf_eq_child directory h.some_sign h.no_slash

theorem nameable (h : Usable directory key) : key.Nameable := by
  intro c mem
  refine ⟨h.no_nul c mem, fun surrogate => ?_⟩
  rw [h.scalar c mem] at surrogate
  cases surrogate

theorem nameable_append (h : Usable directory key) {suffix : Text} (also : suffix.Nameable) :
    (key ++ suffix).Nameable := by
  intro c mem
  exact (List.mem_append.1 mem).elim (h.nameable c) (also c)

theorem scalar_append (h : Usable directory key) {suffix : Text}
    (also : ∀ c ∈ suffix, c.isSurrogate = false) : ∀ c ∈ key ++ suffix, c.isSurrogate = false := by
  intro c mem
  exact (List.mem_append.1 mem).elim (h.scalar c) (also c)

/-- Neither of the two names leads out of the directory. -/
theorem ofText_ne_up (h : Usable directory key) {suffix : Text}
    (also : ∀ c ∈ suffix, c.isSurrogate = false) (long : 2 ≤ suffix.length) :
    Name.ofText (key ++ suffix) ≠ Name.up := by
  intro same
  have its := Name.eq_of_ofText_eq (h.scalar_append also) (by decide) same
  have some_sign := List.length_pos_iff.2 h.some_sign
  have size := congrArg List.length its
  rw [List.length_append, show (Text.ofString "..").length = 2 from rfl] at size
  omega

theorem pathFault?_backup (h : Usable directory key) (reached : tree.follow directory = .ok home) :
    pathFault? (directory.child (key ++ ".json.bak")) = none := by
  obtain ⟨whole, relative⟩ := Tree.pathFault?_of_follow reached
  have its : (key ++ Text.ofString ".json.bak").Nameable := h.nameable_append (by decide)
  rcases pathFault?_child whole relative its with fits | too_long
  · exact fits
  · rw [Path.pathFault?_of_nameable (nameable_text_child whole relative its),
      if_neg (Nat.not_lt.2 h.path_fits)] at too_long
    cases too_long

theorem enter_eq (h : Usable directory key) {suffix : Text}
    (also : ∀ c ∈ suffix, c.isSurrogate = false) (long : 2 ≤ suffix.length) :
    enter home (Name.ofText (key ++ suffix)) = home ++ [Name.ofText (key ++ suffix)] := by
  rw [enter, if_neg (by simp [h.ofText_ne_up also long])]

theorem follow_backupOf (h : Usable directory key) (reached : tree.follow directory = .ok home)
    (here : tree.at? home = some .directory) :
    tree.follow (backupOf directory key) = .ok (backupAt home key) := by
  rw [h.backupOf_eq, Tree.follow_child reached here (h.pathFault?_backup reached) h.name_fits,
    h.enter_eq (by decide) (by decide), backupAt]

theorem follow_fileOf (h : Usable directory key) (reached : tree.follow directory = .ok home)
    (here : tree.at? home = some .directory) :
    tree.follow (fileOf directory key) = .ok (fileAt home key) := by
  have whole := pathFault?_child_of_child (h.pathFault?_backup reached)
    (h.nameable_append (by decide)) (length_fileName_le key)
  have short := Nat.le_trans (length_fileName_le key) h.name_fits
  rw [h.fileOf_eq, Tree.follow_child reached here whole short,
    h.enter_eq (by decide) (by decide), fileAt]

theorem isAbove_concat (h : Usable directory key) {suffix : Text}
    (also : ∀ c ∈ suffix, c.isSurrogate = false) (long : 2 ≤ suffix.length) :
    isAbove (home ++ [Name.ofText (key ++ suffix)]) = false := by
  rw [isAbove, List.all_append, List.all_cons, List.all_nil,
    decide_eq_false (h.ofText_ne_up also long), Bool.false_and, Bool.and_false]

/-- Two keys do not share a name with the same suffix. -/
theorem eq_of_concat_eq (h : Usable directory key) (h' : Usable directory key') {suffix : Text}
    (also : ∀ c ∈ suffix, c.isSurrogate = false)
    (same : home ++ [Name.ofText (key ++ suffix)] = home ++ [Name.ofText (key' ++ suffix)]) :
    key = key' := by
  have names : Name.ofText (key ++ suffix) = Name.ofText (key' ++ suffix) :=
    List.singleton_inj.1 (List.append_cancel_left same)
  exact List.append_cancel_right
    (Name.eq_of_ofText_eq (h.scalar_append also) (h'.scalar_append also) names)

theorem fileAt_ne (h : Usable directory key) (h' : Usable directory key') (apart : key ≠ key') :
    fileAt home key ≠ fileAt home key' :=
  fun same => apart (h.eq_of_concat_eq h' (by decide) same)

theorem backupAt_ne (h : Usable directory key) (h' : Usable directory key') (apart : key ≠ key') :
    backupAt home key ≠ backupAt home key' :=
  fun same => apart (h.eq_of_concat_eq h' (by decide) same)

end Usable

end Store

end GatedConsole
