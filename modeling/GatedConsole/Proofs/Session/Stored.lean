import GatedConsole.Proofs.Files.Footprint
import GatedConsole.Proofs.Session.Journal

/-!
What a session leaves in the files of its macros. Main statement: whatever steps are taken that
touch macros through lines only, no other file is touched, nothing is written before a line defines
a macro, and when every definition is written the file holds the book of the session.
-/

set_option autoImplicit false
set_option relaxedAutoImplicit false

namespace GatedConsole

open Files

/-- The place of the file of macros in a directory. -/
def macrosPlace (home : Place) : Place := home ++ [Name.ofText "bastion_macros.json"]

/-- The place of the backup of that file. -/
def backupPlace (home : Place) : Place := home ++ [Name.ofText "bastion_macros.json.bak"]

/-- The places that a write of macros may touch. -/
def macrosPlaces (home : Place) : List Place := [macrosPlace home, backupPlace home]

namespace Store

variable {tree after : Tree} {directory : Path} {home : Place} {text : Text}

/-- A write of macros touches their file and its backup. -/
theorem spares_setFile (reached : tree.follow directory = .ok home) (text : Text) :
    tree.Spares (macrosPlaces home) (setFile tree directory Macros.defaultKey text).1 := by
  unfold setFile
  split
  · exact .refl _ tree
  · rename_i kept backup
    have backed : tree.Spares (macrosPlaces home) kept := by
      rcases keepBackup_cases backup with ⟨-, rfl⟩ | ⟨old, place, -, target, rfl⟩
      · exact .refl _ kept
      · obtain ⟨its, free⟩ := Tree.follow_of_placeToWrite target
        rw [backupOf_eq] at its
        refine .put_file ?_ free old
        rw [Tree.place_of_child its reached (by decide)]
        exact List.mem_cons_of_mem _ List.mem_cons_self
    refine backed.trans (.writeText fun place its => ?_)
    rw [fileOf_eq] at its
    rw [Tree.place_of_child its (backed.grows.follow_eq reached) (by decide)]
    exact List.mem_cons_self

/-- A write that went well is in the file. -/
theorem at?_setFile (reached : tree.follow directory = .ok home)
    (h : setFile tree directory Macros.defaultKey text = (after, .ok ())) :
    ∃ bytes, Utf8.encode text = .ok bytes ∧ after.at? (macrosPlace home) = some (.file bytes) := by
  have spares := spares_setFile reached text
  rw [h] at spares
  obtain ⟨bytes, encoded, file⟩ := entry_of_setFile h
  obtain ⟨place, its, found⟩ := Tree.entry_eq_ok_iff.1 file
  rw [fileOf_eq] at its
  rw [Tree.place_of_child its (spares.grows.follow_eq reached) (by decide)] at found
  exact ⟨bytes, encoded, found⟩

/-- A store of files stays one; what it was to hold is in the file if the write went well. -/
theorem exists_set {store : Store} (medium : store.medium = .files directory tree)
    (reached : tree.follow directory = .ok home) (text : Text) :
    ∃ after, (store.set Macros.defaultKey text).1.medium = .files directory after ∧
      tree.Spares (macrosPlaces home) after ∧
      ((store.set Macros.defaultKey text).2 = .ok () →
        ∃ bytes, Utf8.encode text = .ok bytes ∧
          after.at? (macrosPlace home) = some (.file bytes)) := by
  unfold set
  split
  · exact ⟨tree, medium, .refl _ tree, nofun⟩
  · rw [medium]
    exact ⟨_, rfl, spares_setFile reached text, fun good =>
      at?_setFile reached (Prod.ext rfl good)⟩

end Store

namespace Session

open Interpreter Program

/-- The macros of a session are kept in a directory, at `home` in the tree; what has come of that
tree since `start`, if these lines have been recorded. -/
structure StoredIn (directory : Path) (home : Place) (start tree : Tree)
    (now : Session × List (Recorded Desk)) : Prop where
  key : now.1.macros.key = Macros.defaultKey
  medium : now.1.macros.store.medium = .files directory tree
  spares : start.Spares (macrosPlaces home) tree
  untouched : (∀ r ∈ now.2, inscribed? r.line = none) → tree = start
  written : (∀ r ∈ now.2, (inscribed? r.line).isSome → r.Saves) →
    (∃ r ∈ now.2, (inscribed? r.line).isSome) →
      ∃ bytes, Utf8.encode now.1.macros.book.write = .ok bytes ∧
        tree.at? (macrosPlace home) = some (.file bytes)

def Stored (directory : Path) (home : Place) (start : Tree)
    (now : Session × List (Recorded Desk)) : Prop :=
  ∃ tree, StoredIn directory home start tree now

variable {directory : Path} {home : Place} {start : Tree}

theorem stable_stored : Stable LeavesLines (Stored directory home start) where
  asides _ _ h := h
  silent _ _ h := h.history
  keeps := by
    rintro s t log h ⟨tree, stored⟩
    refine ⟨tree, ?_, ?_, stored.spares, stored.untouched, ?_⟩
    · exact h.key.trans stored.key
    · exact h.medium.trans stored.medium
    · rw [h.book]
      exact stored.written

/-- A line that defines no macro leaves the files alone. -/
private theorem StoredIn.plain {registry : Registry} {tree : Tree} {m : Session}
    {log : List (Recorded Desk)} {line : Text}
    (stored : StoredIn directory home start tree (m, log)) (undefined : definedBy? line = none) :
    StoredIn directory home start tree
      (respond registry line (record line m), log ++ [⟨line, record line m⟩]) := by
  have same : (respond registry line (record line m)).macros = m.macros :=
    macros_respond_of_none registry undefined (record line m)
  have plain : inscribed? line = none := by rw [inscribed?_eq, undefined, Option.map_none]
  refine ⟨?_, ?_, stored.spares, ?_, ?_⟩
  · rw [same]
    exact stored.key
  · rw [same]
    exact stored.medium
  · exact fun none => stored.untouched fun r mem => none r (List.mem_append_left _ mem)
  · rw [same]
    rintro all ⟨r, mem, defines⟩
    refine stored.written (fun r mem => all r (List.mem_append_left _ mem)) ⟨r, ?_, defines⟩
    rcases List.mem_append.1 mem with earlier | last
    · exact earlier
    · rw [List.mem_singleton.1 last, plain] at defines
      cases defines

/-- A line that defines a macro has the book written. -/
private theorem StoredIn.define {registry : Registry} {tree : Tree} {m : Session}
    {log : List (Recorded Desk)} {line name : Text} {commands : List Text}
    {some_command : commands ≠ []} (reached : start.follow directory = .ok home)
    (stored : StoredIn directory home start tree (m, log))
    (defined : definedBy? line = some (name, ⟨commands, some_command⟩)) :
    ∃ tree, StoredIn directory home start tree
      (respond registry line (record line m), log ++ [⟨line, record line m⟩]) := by
  have inside := stored.spares.grows.follow_eq reached
  let next : Macros := { m.macros with book := m.macros.book.define name commands some_command }
  have its : (respond registry line (record line m)).macros = next.save.1 :=
    macros_respond_of_define registry defined (record line m)
  have mem : (⟨line, record line m⟩ : Recorded Desk) ∈ log ++ [⟨line, record line m⟩] :=
    List.mem_append_right _ List.mem_cons_self
  have defines : (inscribed? line).isSome := by rw [inscribed?_eq, defined]; rfl
  have saves : (⟨line, record line m⟩ : Recorded Desk).Saves ↔ next.written = .ok () := by
    rw [Recorded.Saves, write?, defined, Option.map_some, Option.some.injEq]
    rfl
  have its_key : next.key = Macros.defaultKey := stored.key
  have its_medium : next.store.medium = .files directory tree := stored.medium
  obtain ⟨after, medium, spares, good⟩ := Store.exists_set its_medium inside next.book.write
  rw [← its_key] at medium good
  refine ⟨after, ?_, ?_, stored.spares.trans spares, ?_, ?_⟩
  · rw [its, Macros.key_save]
    exact its_key
  · rw [its, Macros.store_save]
    exact medium
  · intro none
    rw [Option.isSome_iff_ne_none] at defines
    exact absurd (none _ mem) defines
  · intro all _
    rw [its, Macros.book_save]
    exact good (saves.1 (all _ mem defines))

theorem keptByLines_stored (registry : Registry) (reached : start.follow directory = .ok home) :
    KeptByLines registry (Stored directory home start) := by
  rintro m log line - ⟨tree, stored⟩
  cases defined : definedBy? line.strip with
  | none => exact ⟨tree, stored.plain defined⟩
  | some d => exact stored.define reached defined

/-- What is in the files behind steps that touch macros through lines only. -/
theorem stored_takeAll {commands : CommandSet Desk} (bodies : commands.Only LeavesLines)
    {s : Session} {steps : List Step} (plain : Step.allOnlyLines steps = true)
    (key : s.macros.key = Macros.defaultKey)
    (medium : s.macros.store.medium = .files directory start)
    (reached : start.follow directory = .ok home) :
    Stored directory home start ((takeAll commands s steps).2, trace commands s steps) := by
  refine takeAll_kept stable_stored (keptByLines_stored commands.registry reached) bodies
    (Step.allWithin_of_allOnlyLines LeavesLines steps plain) ⟨start, ?_⟩
  exact ⟨key, medium, .refl _ start, fun _ => rfl, fun _ some_line => by simp at some_line⟩

end Session

end GatedConsole
