import GatedConsole.Macro.Keeping
import GatedConsole.Proofs.Files.Naming
import GatedConsole.Settings

/-!
The files of a directory. Main statements: a file can be reached exactly where its directory can and
its own name and path can be given to the system; where one of two files can be reached, the other
one can, if its name is no longer; and the file of a key and its backup are files of the directory.
-/

set_option autoImplicit false
set_option relaxedAutoImplicit false

namespace GatedConsole

open Files

namespace Path

/-- What a directory has under a name. -/
def child (directory : Path) (name : Text) : Path := ⟨directory.start, directory.parts ++ [name]⟩

/-- What stands in front of the names of a directory in the texts of their paths. -/
def lead (directory : Path) : Text :=
  if directory.parts = [] then directory.start else directory.text ++ "/"

theorem join_concat (separator piece : Text) {pieces : List Text} (some_piece : pieces ≠ []) :
    Text.join separator (pieces ++ [piece]) = Text.join separator pieces ++ separator ++ piece := by
  induction pieces with
  | nil => exact absurd rfl some_piece
  | cons first pieces ih =>
    cases pieces with
    | nil => simp [Text.join]
    | cons second pieces =>
      have rest := ih (List.cons_ne_nil second pieces)
      simp only [Text.join, List.cons_append, List.intersperse_cons_cons, List.flatten_cons,
        List.append_assoc] at rest ⊢
      rw [rest]

theorem text_child (directory : Path) (name : Text) :
    (directory.child name).text = directory.lead ++ name := by
  have some_part : (directory.child name).parts ≠ [] := by simp [child]
  rw [text, if_neg fun nothing => some_part nothing.2, lead]
  split
  · rename_i top
    rw [child, top]
    simp [Text.join]
  · rename_i inside
    rw [text, if_neg fun nothing => inside nothing.2, child, join_concat _ _ inside]
    simp

end Path

/-- A path is refused as a whole for a sign that cannot stand in it, or for its length. -/
theorem Files.pathFault?_eq_none_iff {p : Path} :
    pathFault? p = none ↔ p.text.Nameable ∧ (Name.ofText p.text).length ≤ pathBound := by
  constructor
  · intro h
    unfold pathFault? at h
    split at h
    · cases h
    · rename_i encoded
      split at h
      · cases h
      · rename_i no_nul
        split at h
        · cases h
        · rename_i short
          refine ⟨fun c mem => ⟨?_, Utf8.faultFrom_eq_none_iff.1 encoded c mem⟩, Nat.not_lt.1 short⟩
          intro nul
          exact no_nul (List.any_eq_true.2 ⟨c, mem, decide_eq_true nul⟩)
  · rintro ⟨nameable, short⟩
    rw [Path.pathFault?_of_nameable nameable, if_neg (Nat.not_lt.2 short)]

namespace Files

variable {tree : Tree} {directory : Path} {name other : Text} {inside place : Place}

theorem ofText_append (s t : Text) : Name.ofText (s ++ t) = Name.ofText s ++ Name.ofText t :=
  List.flatMap_append

/-- A directory can be given to the system where a file in it can. -/
theorem pathFault?_of_child (h : pathFault? (directory.child name) = none) :
    pathFault? directory = none := by
  obtain ⟨nameable, short⟩ := pathFault?_eq_none_iff.1 h
  rw [Path.text_child] at nameable short
  rw [ofText_append, List.length_append] at short
  by_cases top : directory.parts = []
  · by_cases here : directory.start = []
    · have its : directory.text = "." := by rw [Path.text, if_pos ⟨here, top⟩]
      rw [pathFault?_eq_none_iff, its]
      exact ⟨by decide, by decide⟩
    · have its : directory.lead = directory.text := by
        rw [Path.lead, if_pos top, Path.text, if_neg fun nothing => here nothing.1, top]
        simp [Text.join]
      rw [its] at nameable short
      rw [pathFault?_eq_none_iff]
      exact ⟨fun c mem => nameable c (List.mem_append_left _ mem), by omega⟩
  · rw [Path.lead, if_neg top] at nameable short
    rw [ofText_append, List.length_append] at short
    rw [pathFault?_eq_none_iff]
    refine ⟨fun c mem => nameable c ?_, by omega⟩
    exact List.mem_append_left _ (List.mem_append_left _ mem)

/-- Of two files of a directory, one whose name is no longer can be given to the system if the other
can. -/
theorem pathFault?_child_of_child (h : pathFault? (directory.child name) = none)
    (nameable : other.Nameable) (shorter : (Name.ofText other).length ≤ (Name.ofText name).length) :
    pathFault? (directory.child other) = none := by
  obtain ⟨signs, short⟩ := pathFault?_eq_none_iff.1 h
  rw [Path.text_child] at signs short
  rw [pathFault?_eq_none_iff, Path.text_child]
  rw [ofText_append, List.length_append] at short ⊢
  refine ⟨fun c mem => ?_, by omega⟩
  rcases List.mem_append.1 mem with before | own
  · exact signs c (List.mem_append_left _ before)
  · exact nameable c own

/-- The path of a file has only the signs of the path of its directory and of its name. -/
theorem nameable_text_child (whole : pathFault? directory = none) (relative : directory.start = [])
    (nameable : name.Nameable) : (directory.child name).text.Nameable := by
  have slash : Text.Nameable "/" := by decide
  rw [Path.text_child]
  intro c mem
  rcases List.mem_append.1 mem with before | own
  · rw [Path.lead] at before
    split at before
    · rw [relative] at before
      cases before
    · rcases List.mem_append.1 before with within | between
      · exact (pathFault?_eq_none_iff.1 whole).1 c within
      · exact slash c between
  · exact nameable c own

/-- Of a directory that can be given to the system, a file can be too, unless its path is too
long. -/
theorem pathFault?_child (whole : pathFault? directory = none) (relative : directory.start = [])
    (nameable : name.Nameable) :
    pathFault? (directory.child name) = none ∨
      pathFault? (directory.child name) = some .nameTooLong := by
  have signs := nameable_text_child whole relative nameable
  rw [Path.pathFault?_of_nameable signs]
  split
  · exact .inr rfl
  · exact .inl rfl

namespace Tree

/-- The way to a file leads through its directory. -/
theorem follow_of_child (h : tree.follow (directory.child name) = .ok place) :
    pathFault? (directory.child name) = none ∧
      ∃ inside, tree.follow directory = .ok inside ∧ tree.at? inside = some .directory ∧
        (Name.ofText name).length ≤ Name.bound ∧ place = enter inside (Name.ofText name) := by
  unfold follow at h
  split at h
  · cases h
  · rename_i whole
    split at h
    · cases h
    · rename_i relative
      rw [Path.child, List.map_append, List.foldlM_append] at h
      cases way : (directory.parts.map Name.ofText).foldlM tree.step [] with
      | error fault =>
        rw [way] at h
        cases h
      | ok inside =>
        rw [way] at h
        have last : tree.step inside (Name.ofText name) = .ok place := by
          rw [List.map_singleton] at h
          change (tree.step inside (Name.ofText name)).bind .ok = .ok place at h
          cases its : tree.step inside (Name.ofText name) with
          | error fault =>
            rw [its] at h
            cases h
          | ok next =>
            rw [its] at h
            exact h
        refine ⟨whole, inside, ?_, ?_⟩
        · rw [follow, pathFault?_of_child whole]
          dsimp only
          exact (if_neg relative).trans way
        · unfold step at last
          split at last
          · cases last
          · cases last
          · rename_i found
            split at last
            · cases last
            · rename_i short
              cases last
              exact ⟨found, Nat.not_lt.1 short, rfl⟩

/-- Where a directory is known, the places of its files are. -/
theorem place_of_child (h : tree.follow (directory.child name) = .ok place)
    (reached : tree.follow directory = .ok inside) (down : Name.ofText name ≠ Name.up) :
    place = inside ++ [Name.ofText name] := by
  obtain ⟨-, there, its, -, -, rfl⟩ := follow_of_child h
  rw [reached] at its
  cases its
  rw [enter, if_neg (by simp [down])]

/-- A name in a directory that is there can be followed, if it can be given to the system. -/
theorem follow_child (reached : tree.follow directory = .ok inside)
    (found : tree.at? inside = some .directory)
    (whole : pathFault? (directory.child name) = none)
    (short : (Name.ofText name).length ≤ Name.bound) :
    tree.follow (directory.child name) = .ok (enter inside (Name.ofText name)) := by
  have last : tree.step inside (Name.ofText name) = .ok (enter inside (Name.ofText name)) := by
    rw [step, found]
    dsimp only
    rw [if_neg (Nat.not_lt.2 short)]
  unfold follow at reached ⊢
  rw [pathFault?_of_child whole] at reached
  rw [whole]
  dsimp only at reached ⊢
  split at reached
  · cases reached
  · rename_i relative
    refine (if_neg relative).trans ?_
    rw [Path.child, List.map_append, List.foldlM_append, reached, List.map_singleton]
    change (tree.step inside (Name.ofText name)).bind .ok = _
    rw [last]
    rfl

end Tree

end Files

/-! ## Paths of one name -/

namespace Path

theorem splitOn_of_not_mem {mark : CodePoint} {t : Text} (absent : mark ∉ t) :
    t.splitOn mark = [t] := by
  induction t with
  | nil => rfl
  | cons c r ih =>
    rw [List.mem_cons, not_or] at absent
    rw [Text.splitOn, ih absent.2]
    exact if_neg (Ne.symm absent.1)

theorem withSuffix_child (directory : Path) (name suffix : Text) :
    (directory.child name).withSuffix suffix = directory.child (stem name ++ suffix) := by
  rw [withSuffix, child, List.getLast?_concat]
  dsimp only
  rw [List.dropLast_concat, child]

/-- A text without a slash is the path of that name, unless it says nothing. -/
theorem ofText_of_no_slash {t : Text} (no_slash : CodePoint.ofChar '/' ∉ t) (some_sign : t ≠ [])
    (no_dot : t ≠ ".") : ofText t = ⟨[], [t]⟩ := by
  have relative : t.takeWhile (fun c => decide (c = CodePoint.ofChar '/')) = [] := by
    cases t with
    | nil => rfl
    | cons c r =>
      rw [List.mem_cons, not_or] at no_slash
      exact List.takeWhile_cons_of_neg (by simpa using Ne.symm no_slash.1)
  rw [ofText, relative, splitOn_of_not_mem no_slash]
  simp [some_sign, no_dot]

/-- A name loses what stands behind its last dot. -/
theorem stem_json {t : Text} (some_sign : t ≠ []) : stem (t ++ ".json") = t := by
  -- read backwards, the first dot is that of the suffix, whatever dots stand in the name
  have backwards : (t ++ Text.ofString ".json").reverse = Text.ofString "nosj." ++ t.reverse := by
    rw [List.reverse_append]
    rfl
  have dropped : (Text.ofString "nosj." ++ t.reverse).dropWhile
      (fun c => decide (c ≠ CodePoint.ofChar '.')) = CodePoint.ofChar '.' :: t.reverse := rfl
  have last : (Text.ofString "nosj." ++ t.reverse).head? ≠ some (CodePoint.ofChar '.') := by
    rw [show (Text.ofString "nosj." ++ t.reverse).head? = some (CodePoint.ofChar 'n') from rfl]
    decide
  rw [stem, backwards, dropped]
  split
  · rename_i nothing
    cases nothing
  · rename_i nothing
    rw [List.cons.injEq, List.reverse_eq_nil_iff] at nothing
    exact absurd nothing.2 some_sign
  · rename_i before cut
    rw [List.cons.injEq] at cut
    rw [if_neg last, ← cut.2, List.reverse_reverse]

end Path

/-! ## The files of a data directory -/

theorem Config.pathIn_eq (directory : Path) :
    Config.pathIn directory = directory.child ".bastion_config.json" := rfl

theorem Config.parent_pathIn (directory : Path) : (pathIn directory).parent = directory := by
  rw [pathIn_eq, Path.child, Path.parent, List.dropLast_concat]

namespace Store

/-- A key that is a single name has a file of that name. -/
theorem fileOf_eq_child (directory : Path) {key : Text} (some_sign : key ≠ [])
    (no_slash : CodePoint.ofChar '/' ∉ key) :
    fileOf directory key = directory.child (key ++ ".json") := by
  have still_none : CodePoint.ofChar '/' ∉ key ++ Text.ofString ".json" := by
    rw [List.mem_append, not_or]
    exact ⟨no_slash, by decide⟩
  have long : 5 < (key ++ Text.ofString ".json").length := by
    have size := List.length_pos_iff.2 some_sign
    rw [List.length_append, show (Text.ofString ".json").length = 5 from rfl]
    omega
  have says_something : key ++ Text.ofString ".json" ≠ [] := by
    intro nothing
    rw [nothing] at long
    exact absurd long (by decide)
  have no_dot : key ++ Text.ofString ".json" ≠ "." := by
    intro dot
    rw [dot] at long
    exact absurd long (by decide)
  rw [fileOf, Path.ofText_of_no_slash still_none says_something no_dot]
  rfl

theorem backupOf_eq_child (directory : Path) {key : Text} (some_sign : key ≠ [])
    (no_slash : CodePoint.ofChar '/' ∉ key) :
    backupOf directory key = directory.child (key ++ ".json.bak") := by
  rw [backupOf, fileOf_eq_child directory some_sign no_slash, Path.withSuffix_child,
    Path.stem_json some_sign]

theorem fileOf_eq (directory : Path) :
    fileOf directory Macros.defaultKey = directory.child "bastion_macros.json" :=
  fileOf_eq_child directory (by decide) (by decide)

theorem backupOf_eq (directory : Path) :
    backupOf directory Macros.defaultKey = directory.child "bastion_macros.json.bak" :=
  backupOf_eq_child directory (by decide) (by decide)

end Store

end GatedConsole
