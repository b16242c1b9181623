import GatedConsole.Proofs.Store

/-!
Which paths can be given to the system at all. Main statement: where neither the directory of a
store nor a key holds a NUL or a surrogate that stands for no byte, whatever fails is refused by the
system.
-/

set_option autoImplicit false
set_option relaxedAutoImplicit false

namespace GatedConsole

open Files

/-- Can stand in a path: neither a NUL nor a surrogate that stands for no byte. -/
structure CodePoint.Nameable (c : CodePoint) : Prop where
  no_nul : c.val ≠ 0
  mark : c.isSurrogate = true → Name.isMark c = true

instance (c : CodePoint) : Decidable c.Nameable :=
  decidable_of_iff (c.val ≠ 0 ∧ (c.isSurrogate = true → Name.isMark c = true))
    ⟨fun h => ⟨h.1, h.2⟩, fun h => ⟨h.no_nul, h.mark⟩⟩

/-- Every sign of the text can stand in a path. -/
def Text.Nameable (t : Text) : Prop := ∀ c ∈ t, c.Nameable

instance (t : Text) : Decidable t.Nameable := inferInstanceAs (Decidable (∀ c ∈ t, _))

namespace Path

/-- Every sign of the path can stand in it. -/
structure Nameable (p : Path) : Prop where
  start : p.start.Nameable
  parts : ∀ part ∈ p.parts, part.Nameable

/-! ## Paths put together -/

theorem mem_of_mem_splitOn {mark c : CodePoint} {t piece : Text} (mem : piece ∈ t.splitOn mark)
    (within : c ∈ piece) : c ∈ t := by
  induction t generalizing piece with
  | nil =>
    rw [Text.splitOn, List.mem_singleton] at mem
    rwa [mem] at within
  | cons d r ih =>
    unfold Text.splitOn at mem
    split at mem
    · rw [List.mem_singleton] at mem
      rw [mem, List.mem_singleton] at within
      exact within ▸ List.mem_cons_self
    · rename_i first pieces parts
      rw [parts] at ih
      split at mem
      · rcases List.mem_cons.1 mem with rfl | mem
        · cases within
        · exact List.mem_cons_of_mem d (ih mem within)
      · rcases List.mem_cons.1 mem with rfl | mem
        · rcases List.mem_cons.1 within with rfl | within
          · exact List.mem_cons_self
          · exact List.mem_cons_of_mem d (ih List.mem_cons_self within)
        · exact List.mem_cons_of_mem d (ih (List.mem_cons_of_mem first mem) within)

theorem nameable_ofText {t : Text} (nameable : t.Nameable) : (ofText t).Nameable where
  start := by
    unfold ofText
    dsimp only
    split
    · exact nofun
    · decide
    · decide
  parts part mem c within :=
    nameable c (mem_of_mem_splitOn (List.mem_filter.1 mem).1 within)

theorem Nameable.join {p q : Path} (first : p.Nameable) (second : q.Nameable) :
    (p.join q).Nameable := by
  unfold Path.join
  split
  · refine ⟨first.start, fun part mem => ?_⟩
    rcases List.mem_append.1 mem with mem | mem
    · exact first.parts part mem
    · exact second.parts part mem
  · exact second

theorem mem_of_mem_stem {name : Text} {c : CodePoint} (mem : c ∈ stem name) : c ∈ name := by
  unfold stem at mem
  dsimp only at mem
  split at mem
  · exact mem
  · exact mem
  · rename_i before cut
    split at mem
    · exact mem
    · have behind : c ∈ name.reverse.dropWhile fun c => c ≠ CodePoint.ofChar '.' := by
        rw [cut]
        exact List.mem_cons_of_mem _ (List.mem_reverse.1 mem)
      exact List.mem_reverse.1 ((List.dropWhile_sublist _).subset behind)

theorem Nameable.withSuffix {p : Path} (nameable : p.Nameable) {suffix : Text}
    (also : suffix.Nameable) : (p.withSuffix suffix).Nameable := by
  unfold Path.withSuffix
  split
  · exact nameable
  · rename_i name last
    refine ⟨nameable.start, fun part mem => ?_⟩
    rcases List.mem_append.1 mem with mem | mem
    · exact nameable.parts part (List.dropLast_subset _ mem)
    · rw [List.mem_singleton.1 mem]
      intro c within
      rcases List.mem_append.1 within with within | within
      · exact nameable.parts name (List.mem_of_getLast? last) c (mem_of_mem_stem within)
      · exact also c within

theorem mem_of_mem_intersperse {separator t : Text} {pieces : List Text}
    (mem : t ∈ pieces.intersperse separator) : t = separator ∨ t ∈ pieces := by
  induction pieces with
  | nil => cases mem
  | cons piece pieces ih =>
    cases pieces with
    | nil => exact .inr mem
    | cons next pieces =>
      rw [List.intersperse_cons_cons, List.mem_cons, List.mem_cons] at mem
      rcases mem with rfl | rfl | mem
      · exact .inr List.mem_cons_self
      · exact .inl rfl
      · exact (ih mem).imp_right (List.mem_cons_of_mem piece)

theorem Nameable.text {p : Path} (nameable : p.Nameable) : p.text.Nameable := by
  unfold Path.text
  split
  · decide
  · intro c mem
    rcases List.mem_append.1 mem with mem | mem
    · exact nameable.start c mem
    · obtain ⟨piece, among, within⟩ := List.mem_flatten.1 mem
      rcases mem_of_mem_intersperse among with rfl | among
      · have slash : Text.Nameable "/" := by decide
        exact slash c within
      · exact nameable.parts piece among c within

/-- A path whose signs can stand in it is refused only for its length. -/
theorem pathFault?_of_nameable {p : Path} (nameable : p.text.Nameable) :
    pathFault? p =
      if (Name.ofText p.text).length > pathBound then some .nameTooLong else none := by
  have encoded : Utf8.faultFrom Name.isMark 0 p.text = none :=
    Utf8.faultFrom_eq_none_iff.2 fun c mem => (nameable c mem).mark
  have no_nul : (p.text.any fun c => decide (c.val = 0)) = false := by
    rw [List.any_eq_false]
    intro c mem
    rw [decide_eq_true_iff]
    exact (nameable c mem).no_nul
  rw [pathFault?, encoded, no_nul]
  dsimp only
  rw [if_neg Bool.false_ne_true]

/-- Whatever is wrong with such a path, it is the system that refuses it. -/
theorem Nameable.isSystem_of_pathFault? {p : Path} (nameable : p.Nameable) {fault : Fault}
    (h : pathFault? p = some fault) : fault.isSystem = true := by
  rw [pathFault?_of_nameable nameable.text] at h
  split at h
  · cases h
    rfl
  · cases h

end Path

/-! ## Faults of the system -/

namespace Files.Tree

variable {tree : Tree} {p : Path} {fault : Fault}

theorem isSystem_of_step {place : Place} {name : Name} (h : tree.step place name = .error fault) :
    fault.isSystem = true := by
  unfold step at h
  split at h
  · cases h
    rfl
  · cases h
    rfl
  · split at h
    · cases h
      rfl
    · cases h

theorem isSystem_of_foldlM {names : List Name} {place : Place}
    (h : names.foldlM tree.step place = .error fault) : fault.isSystem = true := by
  induction names generalizing place with
  | nil => cases h
  | cons name names ih =>
    rw [List.foldlM_cons] at h
    cases first : tree.step place name with
    | error cause =>
      rw [first] at h
      cases h
      exact isSystem_of_step first
    | ok next =>
      rw [first] at h
      exact ih h

theorem isSystem_of_follow (nameable : p.Nameable) (h : tree.follow p = .error fault) :
    fault.isSystem = true := by
  unfold follow at h
  split at h
  · rename_i cause bad
    cases h
    exact nameable.isSystem_of_pathFault? bad
  · split at h
    · cases h
      rfl
    · exact isSystem_of_foldlM h

theorem isSystem_of_placeToWrite (nameable : p.Nameable)
    (h : tree.placeToWrite p = .error fault) : fault.isSystem = true := by
  unfold placeToWrite at h
  split at h
  · rename_i cause unreached
    cases h
    exact isSystem_of_follow nameable unreached
  · split at h
    · cases h
      rfl
    · cases h

theorem isSystem_of_readBytes (nameable : p.Nameable) (h : tree.readBytes p = .error fault) :
    fault.isSystem = true := by
  unfold readBytes at h
  split at h
  · rename_i cause absent
    cases h
    unfold entry at absent
    split at absent
    · rename_i cause unreached
      cases absent
      exact isSystem_of_follow nameable unreached
    · split at absent
      · cases absent
      · cases absent
        rfl
  · cases h
    rfl
  · cases h

theorem isSystem_of_exists? (h : tree.exists? p = .error fault) : fault.isSystem = true := by
  unfold exists? at h
  split at h
  · cases h
  · cases h
    rfl
  · cases h

end Files.Tree

namespace Store

/-- The store can give a key the name of a file, if it works on files. -/
def Names (store : Store) (key : Text) : Prop :=
  match store.medium with
  | .memory _ => True
  | .files directory _ => directory.Nameable ∧ key.Nameable

variable {directory : Path} {key text : Text} {fault : Fault}

theorem nameable_fileOf (names : directory.Nameable ∧ key.Nameable) :
    (fileOf directory key).Nameable := by
  refine names.1.join (Path.nameable_ofText ?_)
  have suffix : Text.Nameable ".json" := by decide
  intro c mem
  exact (List.mem_append.1 mem).elim (names.2 c) (suffix c)

theorem nameable_backupOf (names : directory.Nameable ∧ key.Nameable) :
    (backupOf directory key).Nameable :=
  (nameable_fileOf names).withSuffix (by decide)

theorem isSystem_of_setFile {tree after : Tree} {bytes : Bytes}
    (names : directory.Nameable ∧ key.Nameable) (encoded : Utf8.encode text = .ok bytes)
    (h : setFile tree directory key text = (after, .error fault)) : fault.isSystem = true := by
  unfold setFile at h
  split at h
  · rename_i cause backup
    cases h
    unfold keepBackup at backup
    split at backup
    · rename_i unknown
      cases backup
      exact Tree.isSystem_of_exists? unknown
    · cases backup
    · split at backup
      · rename_i unread
        cases backup
        exact Tree.isSystem_of_readBytes (nameable_fileOf names) unread
      · cases target : tree.placeToWrite (backupOf directory key) with
        | error cause =>
          rw [Tree.writeBytes, target] at backup
          cases backup
          exact Tree.isSystem_of_placeToWrite (nameable_backupOf names) target
        | ok place =>
          rw [Tree.writeBytes, target] at backup
          cases backup
  · rename_i kept backup
    exact Tree.isSystem_of_placeToWrite (nameable_fileOf names) (writeText_error encoded h).2

/-- A text that can be encoded is refused by the system only, if the store can name the key. -/
theorem Names.isSystem {store after : Store} {bytes : Bytes} (names : store.Names key)
    (encoded : Utf8.encode text = .ok bytes) (h : store.set key text = (after, .error fault)) :
    fault.isSystem = true := by
  obtain ⟨medium, fail⟩ := store
  unfold set at h
  split at h
  · cases h
    rfl
  · cases medium with
    | memory texts => cases h
    | files directory tree =>
      cases outcome : setFile tree directory key text with
      | mk made result =>
        simp only [outcome, Prod.mk.injEq] at h
        obtain ⟨-, rfl⟩ := h
        exact isSystem_of_setFile names encoded outcome

/-- What a store can name does not change with what is written to it. -/
theorem Names.set {store : Store} {other : Text} (names : store.Names other) (key text : Text) :
    (store.set key text).1.Names other := by
  obtain ⟨medium, fail⟩ := store
  unfold Store.set
  split
  · exact names
  · cases medium with
    | memory texts => trivial
    | files directory tree => exact names

end Store

end GatedConsole
