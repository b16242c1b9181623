import GatedConsole.Console.Launch
import GatedConsole.Proofs.Files.Children
import GatedConsole.Proofs.History
import GatedConsole.Proofs.Macro.Media
import GatedConsole.Proofs.Settings

/-!
Opening a session on the settings that people have edited. Main statement: beside a settings file
that can be read a session always opens, with what is valid in it and the defaults for the rest,
unless the file cannot be loaded or asks for a longer history than there can be.
-/

set_option autoImplicit false
set_option relaxedAutoImplicit false

namespace GatedConsole.Launch

open Files

variable {tree : Tree} {directory : Path} {content : Bytes}

/-- A file that can be read stands in a directory. -/
theorem isDirectory_of_readBytes {name : Text}
    (read : tree.readBytes (directory.child name) = .ok content) :
    tree.isDirectory directory = true := by
  obtain ⟨place, reached, -⟩ := Tree.entry_eq_ok_iff.1 (Tree.entry_of_readBytes read)
  obtain ⟨-, inside, above, found, -⟩ := Tree.follow_of_child reached
  exact Tree.isDirectory_iff.2 ⟨inside, above, found⟩

/-- Beside a settings file that can be read, the macro file is there or is missing: its name is
shorter. -/
theorem exists?_macros_of_readBytes
    (read : tree.readBytes (Config.pathIn directory) = .ok content) :
    ∃ found, tree.exists? (Store.fileOf directory Macros.defaultKey) = .ok found := by
  rw [Config.pathIn_eq] at read
  rw [Store.fileOf_eq]
  obtain ⟨place, reached, -⟩ := Tree.entry_eq_ok_iff.1 (Tree.entry_of_readBytes read)
  obtain ⟨whole, inside, above, found, -⟩ := Tree.follow_of_child reached
  have nameable : Text.Nameable "bastion_macros.json" := by decide
  have shorter : (Name.ofText "bastion_macros.json").length ≤
      (Name.ofText ".bastion_config.json").length := by decide
  have beside := pathFault?_child_of_child whole nameable shorter
  exact Tree.exists?_of_follow (Tree.follow_child above found beside (by decide))

theorem ofStore_of_readBytes (read : tree.readBytes (Config.pathIn directory) = .ok content) :
    ∃ macros, Macros.ofStore ⟨.files directory tree, false⟩ Macros.defaultKey = .ok macros := by
  obtain ⟨found, its⟩ := exists?_macros_of_readBytes read
  rw [Macros.ofStore, Store.get]
  dsimp only
  rw [its]
  cases found with
  | false => exact ⟨_, rfl⟩
  | true => exact ⟨_, rfl⟩

/-- Beside a settings file that can be read, only the history can keep a session from opening. -/
theorem openSession_of_readBytes (read : tree.readBytes (Config.pathIn directory) = .ok content)
    (config : Config) :
    ∃ macros : Macros, openSession config tree directory =
      (tree, ((History.empty (Settings.ofConfig config).historyLimit).mapError .history).map
        (.ofUser (Settings.ofConfig config).user macros ·)) := by
  rw [Config.pathIn_eq] at read
  have there := isDirectory_of_readBytes read
  obtain ⟨macros, opened⟩ := ofStore_of_readBytes read
  refine ⟨macros, ?_⟩
  rw [openSession, Store.openFiles_of_isDirectory there]
  dsimp only
  rw [opened]
  dsimp only
  cases History.empty (Settings.ofConfig config).historyLimit with
  | error fault => rfl
  | ok history => rfl

/-- Whatever stands in a settings file that can be read: if it cannot be loaded, it is no text, or
has a number that is too long, or opens too many lists and objects. If it is loaded, it holds the
members of an object over the defaults, or the defaults; and a session opens with what is valid in
it and the defaults for the rest, unless it asks for a longer history than there can be. -/
theorem opens_of_readBytes (read : tree.readBytes (Config.pathIn directory) = .ok content) :
    (∀ fault, Config.load tree directory = .error fault → Config.Unusable content fault) ∧
      ∀ config, Config.load tree directory = .ok config →
        (∃ text, Utf8.decode content = .ok text ∧ config = Config.ofText text) ∧
        ∃ settings, Settings.Follow config settings ∧ settings.username.strip ≠ [] ∧
          1 ≤ settings.historyLimit ∧
          (settings.historyLimit ≤ History.capacityBound →
            ∃ s, openSession config tree directory = (tree, .ok s) ∧
              s.user = settings.user ∧ (s.history.capacity : Int) = settings.historyLimit ∧
                s.history.entries = []) ∧
          (History.capacityBound < settings.historyLimit →
            openSession config tree directory = (tree, .error (.history .tooLarge))) := by
  have loads := Config.load_of_readBytes read
  have outcomes := Config.ofBytes_cases content
  rw [← loads] at outcomes
  refine ⟨?_, ?_⟩
  · intro fault failed
    obtain ⟨cause, broken, unusable⟩ | ⟨text, -, whole⟩ := outcomes
    · rw [failed] at broken
      cases broken
      exact unusable
    · rw [failed] at whole
      cases whole
  · intro config loaded
    have follow := Settings.follow_ofConfig config
    have positive := follow.one_le_historyLimit
    obtain ⟨macros, opens⟩ := openSession_of_readBytes read config
    refine ⟨?_, _, follow, follow.username_ne, positive, ?_, ?_⟩
    · obtain ⟨cause, broken, -⟩ | ⟨text, decoded, whole⟩ := outcomes
      · rw [loaded] at broken
        cases broken
      · rw [loaded] at whole
        exact ⟨text, decoded, Except.ok.inj whole⟩
    · intro small
      obtain ⟨history, made, capacity, entries⟩ := History.empty_of_le positive small
      rw [made] at opens
      exact ⟨_, opens, rfl, capacity, entries⟩
    · intro large
      rw [History.empty_of_gt positive large] at opens
      exact opens

/-- Settings that somebody has edited: a blank name, and a limit that is no number. -/
def editedConfig : Config :=
  [(Config.usernameKey, .text " "), (Config.accessKey, .text "root"),
    (Config.historyKey, .text "9"), (Config.bannerKey, .bool true),
    (Config.interfaceKey, .text "cli")]

def editedBytes : Bytes := (Json.object editedConfig).write.flatMap Utf8.encodeOne

def editedTree : Tree :=
  (Tree.empty.put [Name.ofText "data"] .directory).put
    [Name.ofText "data", Name.ofText ".bastion_config.json"] (.file editedBytes)

/-- The level is used, and the defaults stand in for the rest. -/
theorem opens_of_readBytes_edited :
    editedTree.readBytes (Config.pathIn (.ofText "data")) = .ok editedBytes ∧
      ∃ s, Config.load editedTree (.ofText "data") = .ok editedConfig ∧
        openSession editedConfig editedTree (.ofText "data") = (editedTree, .ok s) ∧
        s.user = ⟨Config.defaultUsername, .root, true⟩ ∧
        s.history.capacity = History.defaultCapacity := by
  have read : editedTree.readBytes (Config.pathIn (.ofText "data")) = .ok editedBytes := rfl
  have regular : (Json.object editedConfig).Regular := by
    simp only [editedConfig, Json.Regular, Json.RegularMembers]
    decide
  have loaded : Config.load editedTree (.ofText "data") = .ok editedConfig := by
    rw [Config.load_of_readBytes read]
    exact Config.ofBytes_write regular (by decide)
  obtain ⟨-, settings, follow, visible, -, opens, -⟩ :=
    (opens_of_readBytes read).2 editedConfig loaded
  have username : settings.username = Config.defaultUsername := by
    rcases follow.username with ⟨its, -⟩ | ⟨-, default⟩
    · have same : Text.ofString " " = settings.username := Json.text.inj (Option.some.inj its)
      rw [← same] at visible
      exact absurd rfl visible
    · exact default
  have access : settings.access = .root := by
    rcases follow.access with its | ⟨other, -⟩
    · generalize settings.access = level at its
      cases level with
      | root => rfl
      | guest | executor => cases its
    · exact absurd rfl (other .root)
  have limit : settings.historyLimit = History.defaultCapacity := by
    rcases follow.historyLimit with ⟨its, -⟩ | ⟨-, default⟩
    · cases its
    · exact default
  obtain ⟨s, opened, user, capacity, -⟩ := opens (by rw [limit]; decide)
  refine ⟨read, s, loaded, opened, ?_, ?_⟩
  · rw [user, Settings.user, username, access]
  · rw [limit] at capacity
    exact Int.ofNat.inj capacity

end GatedConsole.Launch
