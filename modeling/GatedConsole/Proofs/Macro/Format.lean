import GatedConsole.Macro.Format
import GatedConsole.Proofs.Json.Grammar
import GatedConsole.Proofs.Json.Plain
import GatedConsole.Proofs.Keyed

/-!
Macro books there and back. Main statements: a book without surrogates is read as it was written,
no other book is ever read, and the kind of the line ends does not matter to what is read.
-/

set_option autoImplicit false
set_option relaxedAutoImplicit false

namespace GatedConsole

namespace MacroBook

open Json

/-- No name and no command holds a surrogate. -/
def Scalar (book : MacroBook) : Prop :=
  ∀ entry ∈ book.entries, isScalarText entry.1 = true ∧
    ∀ command ∈ entry.2, isScalarText command = true

theorem isScalarText_iff {t : Text} : isScalarText t = true ↔ ∀ c ∈ t, c.isSurrogate = false := by
  simp [isScalarText]

/-- The written form of entries. -/
def jsonOf (entries : List (Text × List Text)) : Json :=
  .object (entries.map fun (name, commands) => (name, .list (commands.map .text)))

theorem regular_jsonOf {entries : List (Text × List Text)}
    (unsplit : ∀ entry ∈ entries, Unsplit entry.1 ∧ ∀ command ∈ entry.2, Unsplit command) :
    (jsonOf entries).Regular := by
  refine regularMembers_iff.2 (List.forall_mem_map.2 ?_)
  intro entry mem
  exact ⟨(unsplit entry mem).1, regularItems_iff.2 (List.forall_mem_map.2 (unsplit entry mem).2)⟩

theorem regular_toJson {book : MacroBook} (scalar : book.Scalar) : book.toJson.Regular :=
  regular_jsonOf fun entry mem =>
    ⟨unsplit_of_scalar (isScalarText_iff.1 (scalar entry mem).1), fun command among =>
      unsplit_of_scalar (isScalarText_iff.1 ((scalar entry mem).2 command among))⟩

private theorem commands?_list {commands : List Text}
    (scalar : ∀ command ∈ commands, isScalarText command = true) :
    commands? (.list (commands.map .text)) = some commands := by
  induction commands with
  | nil => rfl
  | cons command commands ih =>
    have others := ih fun other mem => scalar other (List.mem_cons_of_mem command mem)
    simp only [commands?] at others ⊢
    simp only [List.map_cons, List.mapM_cons, command?, scalar command List.mem_cons_self, if_true,
      others, Option.bind_eq_bind, Option.bind_some, Option.pure_def]

theorem mapM_entry? {entries : List (Text × List Text)}
    (scalar : ∀ entry ∈ entries, isScalarText entry.1 = true ∧
      ∀ command ∈ entry.2, isScalarText command = true) :
    (entries.map fun (name, commands) => (name, Json.list (commands.map .text))).mapM entry? =
      some entries := by
  induction entries with
  | nil => rfl
  | cons entry entries ih =>
    obtain ⟨name, commands⟩ := scalar entry List.mem_cons_self
    have others := ih fun other mem => scalar other (List.mem_cons_of_mem entry mem)
    simp only [List.map_cons, List.mapM_cons, entry?, name, if_true, commands?_list commands,
      Option.map_some, others, Option.bind_eq_bind, Option.bind_some, Option.pure_def]

private theorem ofEntries?_entries (book : MacroBook) : ofEntries? book.entries = some book := by
  have same : Keyed.ofEntries book.entries = book.entries :=
    Keyed.ofEntries_of_nodup book.nodup_names
  have full : ∀ entry ∈ Keyed.ofEntries book.entries, entry.2 ≠ [] := by
    rw [same]
    exact book.commands_ne_nil
  rw [ofEntries?, dif_pos full]
  exact congrArg some (ext_entries same)

theorem ofJson?_toJson {book : MacroBook} (scalar : book.Scalar) :
    ofJson? book.toJson = some book := by
  simp only [toJson, ofJson?, mapM_entry? scalar]
  exact ofEntries?_entries book

/-- A book without surrogates is read as it was written. -/
theorem read?_write {book : MacroBook} (scalar : book.Scalar) : read? book.write = some book := by
  have plain : isScalarText book.write = true :=
    isScalarText_iff.2 (Json.isPlain_write book.toJson).scalar
  rw [read?, if_pos plain, write, read_write (regular_toJson scalar)]
  exact ofJson?_toJson scalar

/-! ## Only such books are read -/

private theorem mem_of_mapM {α β : Type} {f : α → Option β} {l : List α} {bs : List β}
    (h : l.mapM f = some bs) {b : β} (mem : b ∈ bs) : ∃ a ∈ l, f a = some b := by
  induction l generalizing bs with
  | nil =>
    cases h
    cases mem
  | cons a l ih =>
    simp only [List.mapM_cons, Option.bind_eq_bind, Option.bind_eq_some_iff, Option.pure_def,
      Option.some.injEq] at h
    obtain ⟨first, one, others, rest, rfl⟩ := h
    rcases List.mem_cons.1 mem with rfl | mem
    · exact ⟨a, List.mem_cons_self, one⟩
    · obtain ⟨a', among, its⟩ := ih rest mem
      exact ⟨a', List.mem_cons_of_mem a among, its⟩

private theorem scalar_of_command? {item : Json} {command : Text}
    (h : command? item = some command) : isScalarText command = true := by
  unfold command? at h
  split at h
  · split at h
    · cases h
      assumption
    · cases h
  · cases h

private theorem scalar_of_entry? {member : Text × Json} {entry : Text × List Text}
    (h : entry? member = some entry) :
    isScalarText entry.1 = true ∧ ∀ command ∈ entry.2, isScalarText command = true := by
  unfold entry? at h
  split at h
  · rename_i name
    obtain ⟨commands, read, rfl⟩ := Option.map_eq_some_iff.1 h
    refine ⟨name, ?_⟩
    intro command mem
    unfold commands? at read
    split at read
    · obtain ⟨item, _, one⟩ := mem_of_mapM read mem
      exact scalar_of_command? one
    · cases read
  · cases h

/-- A book that has been read holds no surrogate. -/
theorem scalar_of_read? {t : Text} {book : MacroBook} (h : read? t = some book) :
    book.Scalar := by
  unfold read? at h
  split at h
  · split at h
    · unfold ofJson? at h
      split at h
      · obtain ⟨entries, read, made⟩ := Option.bind_eq_some_iff.1 h
        unfold ofEntries? at made
        split at made
        · cases made
          intro entry mem
          obtain ⟨member, _, one⟩ := mem_of_mapM read (Keyed.mem_of_mem_ofEntries mem)
          exact scalar_of_entry? one
        · cases made
      · cases h
    · cases h
  · cases h

/-! ## Line ends -/

private theorem isScalarText_unifyNewlines (t : Text) :
    isScalarText t.unifyNewlines = isScalarText t := by
  -- No line end is a surrogate, and every other sign stays.
  induction t using Text.unifyNewlines.induct with
  | case1 => rfl
  | case2 => rfl
  | case3 s ih =>
    rw [Text.unifyNewlines.eq_def]
    dsimp only
    rw [if_pos rfl, if_pos rfl]
    exact ih
  | case4 d s other ih =>
    rw [Text.unifyNewlines.eq_def]
    dsimp only
    rw [if_pos rfl, if_neg other]
    exact ih
  | case5 c r other ih =>
    rw [Text.unifyNewlines_cons other]
    exact congrArg (!c.isSurrogate && ·) ih

private theorem read?_of_sameLines {t u : Text} {book : MacroBook} (same : Text.SameLines t u)
    (h : read? t = some book) : read? u = some book := by
  have scalar : isScalarText u = isScalarText t := by
    rw [← isScalarText_unifyNewlines u, ← same, isScalarText_unifyNewlines]
  unfold read? at h
  split at h
  · rename_i plain
    split at h
    · rename_i document read
      rw [read?, scalar, if_pos plain, read_of_sameLines same read]
      exact h
    · cases h
  · cases h

/-- Which book a text holds does not depend on the kind of its line ends. -/
theorem read?_unifyNewlines (t : Text) : read? t.unifyNewlines = read? t :=
  Option.ext fun _ => ⟨read?_of_sameLines (Text.SameLines.unified t).symm,
    read?_of_sameLines (Text.SameLines.unified t)⟩

end MacroBook

end GatedConsole
