import GatedConsole.Proofs.Files.Children
import GatedConsole.Proofs.Json.Settled
import GatedConsole.Proofs.Settings

/-!
The settings file there and back. Main statement: settings that were saved are loaded as they were,
over the defaults; saving them with other values put in changes the settings of these names and no
other; and what was loaded is saved as the same file each time.
-/

set_option autoImplicit false
set_option relaxedAutoImplicit false

namespace GatedConsole.Config

open Files

/-- Settings that can be read as they are written: no floats, no split pairs of surrogates, no
overlong numerals, and no deeper nesting than the reader can take. -/
structure Storable (config : Config) : Prop where
  regular : (Json.object config).Regular
  shallow : (Json.object config).nest ≤ nestingBound

variable {config values : Config} {tree after : Tree} {directory : Path}

theorem storable_iff : config.Storable ↔
    ∀ entry ∈ config, Json.Unsplit entry.1 ∧ entry.2.Regular ∧ entry.2.nest < nestingBound := by
  have depth : (Json.object config).nest ≤ nestingBound ↔
      ∀ entry ∈ config, entry.2.nest < nestingBound := by
    have inner : Json.nestMembers config ≤ nestingBound - 1 ↔ _ := Json.nestMembers_le_iff
    simp only [Json.nest, nestingBound] at inner ⊢
    rw [Nat.add_comm, ← Nat.le_sub_iff_add_le (by decide), inner]
    exact forall₂_congr fun entry _ => Nat.le_sub_iff_add_le (by decide)
  constructor
  · intro ⟨regular, shallow⟩ entry mem
    obtain ⟨name, value⟩ := Json.regularMembers_iff.1 regular entry mem
    exact ⟨name, value, depth.1 shallow entry mem⟩
  · intro each
    exact ⟨Json.regularMembers_iff.2 fun entry mem => ⟨(each entry mem).1, (each entry mem).2.1⟩,
      depth.2 fun entry mem => (each entry mem).2.2⟩

theorem Storable.overlay (storable : config.Storable) (also : values.Storable) :
    Storable (Keyed.overlay config values) := by
  refine storable_iff.2 ?_
  intro entry mem
  exact (Keyed.mem_overlay mem).elim (storable_iff.1 storable entry) (storable_iff.1 also entry)

theorem distinct_overlay (distinct : (Json.object config).Distinct)
    (also : (Json.object values).Distinct) :
    (Json.object (Keyed.overlay config values)).Distinct := by
  refine ⟨Keyed.nodup_keys_overlay distinct.1 values, Json.distinctMembers_iff.2 ?_⟩
  intro entry mem
  exact (Keyed.mem_overlay mem).elim (Json.distinctMembers_iff.1 distinct.2 entry)
    (Json.distinctMembers_iff.1 also.2 entry)

theorem distinct_defaults : (Json.object defaults).Distinct :=
  ⟨by decide, by simp [defaults, Json.DistinctMembers, Json.Distinct]⟩

/-! ## What has been loaded -/

/-- Loaded settings are the members of some object over the defaults. -/
theorem eq_overlay_of_load (h : load tree directory = .ok config) :
    ∃ members, (Json.object members).Distinct ∧ config = Keyed.overlay defaults members := by
  have none : ∃ members, (Json.object members).Distinct ∧
      defaults = Keyed.overlay defaults members := ⟨[], ⟨List.nodup_nil, trivial⟩, rfl⟩
  have some_text (text : Text) : ∃ members, (Json.object members).Distinct ∧
      ofText text = Keyed.overlay defaults members := by
    unfold ofText
    split
    · rename_i document read
      have distinct := Json.distinct_settled document
      cases its : document.settled with
      | object members => exact ⟨members, its ▸ distinct, rfl⟩
      | null | bool | int | float | text | list => exact none
    · exact none
  unfold load at h
  split at h
  · cases h
  · cases h
    exact none
  · split at h
    · cases h
      exact none
    · rename_i content read
      rcases ofBytes_cases content with ⟨fault, refused, -⟩ | ⟨text, -, its⟩
      · rw [refused] at h
        cases h
      · rw [its] at h
        cases h
        exact some_text text

theorem distinct_of_load (h : load tree directory = .ok config) :
    (Json.object config).Distinct := by
  obtain ⟨members, distinct, rfl⟩ := eq_overlay_of_load h
  exact distinct_overlay distinct_defaults distinct

/-- Loaded settings have the defaults in front already. -/
theorem keys_defaults_prefix_of_load (h : load tree directory = .ok config) :
    Keyed.keys defaults <+: Keyed.keys config := by
  obtain ⟨members, -, rfl⟩ := eq_overlay_of_load h
  exact Keyed.keys_prefix_overlay defaults members

/-! ## Saving -/

/-- What a save that went well has done: the directory was made, and the file was written. -/
theorem writeText_of_save (h : save config tree directory = (after, .ok true)) :
    ∃ made, tree.makeDirectories directory = (made, .ok ()) ∧
      made.writeText (pathIn directory) (Json.write (.object config)) = (after, .ok ()) := by
  have done {outcome : Except Files.Fault Unit} (well : saved outcome = .ok true) :
      outcome = .ok () := by
    unfold saved at well
    split at well
    · rfl
    · split at well <;> cases well
  rw [save, parent_pathIn] at h
  split at h
  · rw [Prod.mk.injEq] at h
    cases done h.2
  · rename_i made makes
    refine ⟨made, makes, ?_⟩
    rw [Prod.mk.injEq] at h
    exact Prod.ext h.1 (done h.2)

/-- The bytes of the file that holds the settings. -/
def bytesOf (config : Config) : Bytes := (Json.write (.object config)).flatMap Utf8.encodeOne

/-- Where the directory is there and the file can be written, all settings can be saved. -/
theorem save_of_placeToWrite {place : Place} (there : tree.isDirectory directory = true)
    (target : tree.placeToWrite (pathIn directory) = .ok place) (config : Config) :
    save config tree directory = (tree.put place (.file (bytesOf config)), .ok true) := by
  rw [save, parent_pathIn, Tree.makeDirectories_of_isDirectory there]
  dsimp only
  rw [Tree.writeText, target, (Json.isPlain_write (.object config)).encode_eq]
  rfl

/-- Behind a save that went well the directory is there, and the file with what was written. -/
theorem at?_of_saved (h : save config tree directory = (after, .ok true)) :
    after.isDirectory directory = true ∧
      ∃ place, after.placeToWrite (pathIn directory) = .ok place ∧
        after.at? place = some (.file (bytesOf config)) := by
  obtain ⟨made, -, written⟩ := writeText_of_save h
  obtain ⟨bytes, encoded, file⟩ := Tree.entry_of_writeText written
  cases encoded.symm.trans (Json.isPlain_write (.object config)).encode_eq
  refine ⟨?_, Tree.placeToWrite_of_file file⟩
  obtain ⟨place, way, -⟩ := Tree.entry_eq_ok_iff.1 file
  rw [pathIn_eq] at way
  obtain ⟨-, inside, reached, here, -⟩ := Tree.follow_of_child way
  exact Tree.isDirectory_iff.2 ⟨inside, reached, here⟩

/-- Saving once more changes nothing. -/
theorem save_of_saved (h : save config tree directory = (after, .ok true)) :
    save config after directory = (after, .ok true) := by
  obtain ⟨there, place, target, found⟩ := at?_of_saved h
  rw [save_of_placeToWrite there target, Tree.put_of_at? found]

/-- Saved settings are loaded as they were, over the defaults. -/
theorem load_of_saved (storable : config.Storable) (distinct : (Json.object config).Distinct)
    (h : save config tree directory = (after, .ok true)) :
    load after directory = .ok (Keyed.overlay defaults config) := by
  obtain ⟨-, place, target, found⟩ := at?_of_saved h
  have read : after.readBytes (pathIn directory) = .ok (bytesOf config) :=
    Tree.readBytes_of_entry
      (Tree.entry_eq_ok_iff.2 ⟨place, (Tree.follow_of_placeToWrite target).1, found⟩)
  rw [load_of_readBytes read, bytesOf, ofBytes_write storable.regular storable.shallow,
    Json.settled_of_distinct distinct, ofDocument]

/-- Settings that have the defaults in front are loaded as they were. -/
theorem load_of_saved_of_first (storable : config.Storable)
    (distinct : (Json.object config).Distinct)
    (first : Keyed.keys defaults <+: Keyed.keys config)
    (h : save config tree directory = (after, .ok true)) : load after directory = .ok config := by
  rw [load_of_saved storable distinct h, Keyed.overlay_eq_later first distinct.1]

/-- Putting values in is saving what was loaded with these values. -/
theorem update_eq_iff (loaded : load tree directory = .ok config) :
    update values tree directory = (after, .ok true) ↔
      save (Keyed.overlay config values) tree directory = (after, .ok true) := by
  rw [update, loaded]
  dsimp only
  cases save (Keyed.overlay config values) tree directory with
  | mk next outcome => cases outcome <;> simp [Except.mapError]

/-- All settings can be saved where the file can be written. They are loaded over the defaults, each
with its value. Of settings that were loaded, putting in values changes those of the same names and
no other, and saving them as they are writes the same file each time. -/
theorem load_saved :
    (∀ (config : Config) (tree : Tree) (directory : Path) (place : Place),
      tree.isDirectory directory = true → tree.placeToWrite (pathIn directory) = .ok place →
        ∃ after, save config tree directory = (after, .ok true)) ∧
    (∀ (config : Config) (tree after : Tree) (directory : Path),
      config.Storable → (Json.object config).Distinct →
      save config tree directory = (after, .ok true) →
        load after directory = .ok (Keyed.overlay defaults config) ∧
          ∀ key, Keyed.get? (Keyed.overlay defaults config) key =
            (Keyed.get? config key).or (Keyed.get? defaults key)) ∧
    ∀ (config : Config) (tree : Tree) (directory : Path),
      load tree directory = .ok config → config.Storable →
        (∀ (values : Config) (after : Tree),
          values.Storable → (Json.object values).Distinct →
          update values tree directory = (after, .ok true) →
            load after directory = .ok (Keyed.overlay config values) ∧
              ∀ key, Keyed.get? (Keyed.overlay config values) key =
                (Keyed.get? values key).or (Keyed.get? config key)) ∧
        ∀ after, save config tree directory = (after, .ok true) →
          load after directory = .ok config ∧ save config after directory = (after, .ok true) := by
  refine ⟨?_, ?_, ?_⟩
  · intro config tree directory place there target
    exact ⟨_, save_of_placeToWrite there target config⟩
  · intro config tree after directory storable distinct saved
    exact ⟨load_of_saved storable distinct saved, Keyed.get?_overlay_of_nodup defaults distinct.1⟩
  · intro config tree directory loaded storable
    have distinct := distinct_of_load loaded
    have first := keys_defaults_prefix_of_load loaded
    constructor
    · intro values after also apart updated
      have saved := (update_eq_iff loaded).1 updated
      refine ⟨load_of_saved_of_first (storable.overlay also) (distinct_overlay distinct apart) ?_
        saved, Keyed.get?_overlay_of_nodup config apart.1⟩
      exact first.trans (Keyed.keys_prefix_overlay config values)
    · intro after saved
      exact ⟨load_of_saved_of_first storable distinct first saved, save_of_saved saved⟩

/-- Settings with a known name and one of their own, whose value needs escapes and nests. -/
def nestedConfig : Config :=
  [(interfaceKey, .text "tui"),
    ("\n😀", .object [("\"", .list [.null, .int (-12), .object [], .bool false]), ([], .list [])])]

def fewerLines : Config := [(historyKey, .int 7)]

def dataPath : Path := .ofText "data"

/-- A tree with an empty data directory. -/
def dataTree : Tree := ⟨[([Name.ofText "data"], .directory)]⟩

theorem storable_defaults : defaults.Storable :=
  ⟨by simp only [defaults, Json.Regular, Json.RegularMembers]; decide, by decide⟩

theorem load_saved_nested :
    ∃ after, save nestedConfig dataTree dataPath = (after, .ok true) ∧
      load after dataPath = .ok (Keyed.overlay defaults nestedConfig) ∧
      (∃ changed, update fewerLines after dataPath = (changed, .ok true) ∧
        ∃ again, load changed dataPath = .ok again ∧
          Keyed.get? again historyKey = some (.int 7) ∧
          Keyed.get? again interfaceKey = some (.text "tui")) ∧
      ∃ resaved, save (Keyed.overlay defaults nestedConfig) after dataPath = (resaved, .ok true) ∧
        save (Keyed.overlay defaults nestedConfig) resaved dataPath = (resaved, .ok true) := by
  have storable : nestedConfig.Storable :=
    ⟨by simp only [nestedConfig, Json.Regular, Json.RegularMembers, Json.RegularItems]; decide,
      by decide⟩
  have distinct : (Json.object nestedConfig).Distinct := by
    simp only [nestedConfig, Json.Distinct, Json.DistinctMembers, Json.DistinctItems]
    decide
  have fewer : fewerLines.Storable :=
    ⟨by simp only [fewerLines, Json.Regular, Json.RegularMembers]; decide, by decide⟩
  have fewer_distinct : (Json.object fewerLines).Distinct := by
    simp only [fewerLines, Json.Distinct, Json.DistinctMembers]
    decide
  have target : dataTree.placeToWrite (pathIn dataPath) =
    .ok [Name.ofText "data", Name.ofText ".bastion_config.json"] := rfl
  obtain ⟨saves, loads, reloads⟩ := load_saved
  obtain ⟨after, saved⟩ := saves nestedConfig dataTree dataPath _ (by decide) target
  obtain ⟨loaded, -⟩ := loads _ _ _ _ storable distinct saved
  obtain ⟨merged, settles⟩ := reloads _ _ _ loaded (storable_defaults.overlay storable)
  -- where the settings have been saved, others can be saved as well
  obtain ⟨there, place, writable, -⟩ := at?_of_saved saved
  have updated := (update_eq_iff loaded).2 (save_of_placeToWrite there writable
    (Keyed.overlay (Keyed.overlay defaults nestedConfig) fewerLines))
  have resaved := save_of_placeToWrite there writable (Keyed.overlay defaults nestedConfig)
  obtain ⟨again, values⟩ := merged _ _ fewer fewer_distinct updated
  exact ⟨_, saved, loaded, ⟨_, updated, _, again, (values historyKey).trans rfl,
    (values interfaceKey).trans rfl⟩, _, resaved, (settles _ resaved).2⟩

end GatedConsole.Config
