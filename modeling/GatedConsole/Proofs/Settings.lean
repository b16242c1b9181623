import GatedConsole.Proofs.Files.Tree
import GatedConsole.Proofs.Json.Faults
import GatedConsole.Proofs.Json.Plain
import GatedConsole.Settings

/-!
What a settings file comes to, whatever stands in it. Main statements: a file that can be read gives
the members of its object over the defaults, or the defaults, unless it is no text, has too long a
number or too many brackets; and of every settings a session can use what is valid and the defaults
for the rest.
-/

set_option autoImplicit false
set_option relaxedAutoImplicit false

namespace GatedConsole

open Files

namespace Config

/-! ## Loading -/

/-- The settings that a text holds: the members of the object that it is, over the defaults. -/
def ofText (text : Text) : Config :=
  match Json.read text.unifyNewlines with
  | .ok document => ofDocument document.settled
  | .error _ => defaults

/-- What keeps the bytes of a file from being settings: they are no text, or the text has a run of
digits that is too long for a number, or it opens too many lists and objects. -/
inductive Unusable (content : Bytes) : Fault → Prop
  | notText {fault : Utf8.DecodeFault} (undecoded : Utf8.decode content = .error fault) :
      Unusable content (.notText fault)
  | tooManyDigits {text digits : Text} (decoded : Utf8.decode content = .ok text)
      (within : digits <:+: text.unifyNewlines) (all : ∀ c ∈ digits, c.isAsciiDigit = true)
      (long : Text.numeralLimit < digits.length) : Unusable content (.tooManyDigits digits.length)
  | tooDeep {text : Text} {bracket : Json.Bracket} (decoded : Utf8.decode content = .ok text)
      (many : nestingBound < Json.brackets text.unifyNewlines) : Unusable content (.tooDeep bracket)

theorem ofBytes_cases (content : Bytes) :
    (∃ fault, ofBytes content = .error fault ∧ Unusable content fault) ∨
      ∃ text, Utf8.decode content = .ok text ∧ ofBytes content = .ok (ofText text) := by
  cases decoded : Utf8.decode content with
  | error fault =>
    left
    refine ⟨.notText fault, ?_, .notText decoded⟩
    rw [ofBytes, decoded]
  | ok text =>
    rw [ofBytes, decoded]
    dsimp only
    cases its : Json.readWithin nestingBound text.unifyNewlines with
    | ok document =>
      have read := Json.read_of_readWithin its nofun
      have same : ofText text = ofDocument document.settled := by rw [ofText, read]
      exact .inr ⟨text, rfl, congrArg _ same.symm⟩
    | error fault =>
      cases fault with
      | malformed =>
        have read := Json.read_of_readWithin its nofun
        have same : ofText text = defaults := by rw [ofText, read]
        exact .inr ⟨text, rfl, congrArg _ same.symm⟩
      | tooManyDigits count =>
        left
        cases Json.faulty_of_readWithin its with
        | digits within all long => exact ⟨_, rfl, .tooManyDigits decoded within all long⟩
      | tooDeep bracket =>
        left
        cases Json.faulty_of_readWithin its with
        | deep many => exact ⟨_, rfl, .tooDeep decoded many⟩

/-- Settings that were written are loaded as they were, over the defaults. -/
theorem ofBytes_write {config : Config} (regular : (Json.object config).Regular)
    (shallow : (Json.object config).nest ≤ nestingBound) :
    ofBytes ((Json.object config).write.flatMap Utf8.encodeOne) =
      .ok (ofDocument (Json.object config).settled) := by
  have plain := Json.isPlain_write (.object config)
  rw [ofBytes, Utf8.decode_of_encode plain.encode_eq]
  dsimp only
  rw [plain.unifyNewlines_eq, Json.readWithin_write regular shallow]

variable {tree : Tree} {directory : Path} {content : Bytes}

/-- A file that can be read is what is loaded. -/
theorem load_of_readBytes (read : tree.readBytes (pathIn directory) = .ok content) :
    load tree directory = ofBytes content := by
  have there : tree.exists? (pathIn directory) = .ok true := by
    rw [Tree.exists?, Tree.entry_of_readBytes read]
  rw [load, there]
  dsimp only
  rw [read]

end Config

/-! ## What a session is opened with -/

namespace Settings

/-- The settings have what is valid in the loaded ones, and the defaults for the rest. -/
structure Follow (config : Config) (settings : Settings) : Prop where
  username :
    (Keyed.get? config Config.usernameKey = some (.text settings.username) ∧
        settings.username.strip ≠ []) ∨
      (∀ t, Keyed.get? config Config.usernameKey = some (.text t) → t.strip = []) ∧
        settings.username = Config.defaultUsername
  access :
    Keyed.get? config Config.accessKey = some (.text settings.access.name) ∨
      (∀ level : Access, Keyed.get? config Config.accessKey ≠ some (.text level.name)) ∧
        settings.access = .guest
  historyLimit :
    (Keyed.get? config Config.historyKey = some (.int settings.historyLimit) ∧
        1 ≤ settings.historyLimit) ∨
      (∀ i, Keyed.get? config Config.historyKey = some (.int i) → i < 1) ∧
        settings.historyLimit = History.defaultCapacity

theorem usernameOf_cases (value : Option Json) :
    (value = some (.text (usernameOf value)) ∧ (usernameOf value).strip ≠ []) ∨
      (∀ t, value = some (.text t) → t.strip = []) ∧
        usernameOf value = Config.defaultUsername := by
  unfold usernameOf
  split
  · rename_i t
    split
    · rename_i blank
      right
      refine ⟨fun t' same => ?_, rfl⟩
      cases same
      exact blank
    · rename_i visible
      exact .inl ⟨rfl, visible⟩
  · rename_i other
    exact .inr ⟨fun t its => absurd its (other t), rfl⟩

theorem accessOf_cases (value : Option Json) :
    value = some (.text (accessOf value).name) ∨
      (∀ level : Access, value ≠ some (.text level.name)) ∧ accessOf value = .guest := by
  unfold accessOf
  split
  · rename_i t
    cases known : Access.ofName? t with
    | none =>
      right
      refine ⟨fun level same => ?_, rfl⟩
      cases same
      rw [Access.ofName?_name] at known
      cases known
    | some level =>
      left
      have name := List.find?_some known
      rw [← of_decide_eq_true name]
      rfl
  · rename_i other
    exact .inr ⟨fun level => other level.name, rfl⟩

theorem historyLimitOf_cases (value : Option Json) :
    (value = some (.int (historyLimitOf value)) ∧ 1 ≤ historyLimitOf value) ∨
      (∀ i, value = some (.int i) → i < 1) ∧
        historyLimitOf value = History.defaultCapacity := by
  unfold historyLimitOf
  split
  · rename_i i
    split
    · rename_i small
      right
      refine ⟨fun i' same => ?_, rfl⟩
      cases same
      exact small
    · rename_i positive
      exact .inl ⟨rfl, Int.not_lt.1 positive⟩
  · rename_i other
    exact .inr ⟨fun i its => absurd its (other i), rfl⟩

theorem follow_ofConfig (config : Config) : Follow config (ofConfig config) :=
  ⟨usernameOf_cases _, accessOf_cases _, historyLimitOf_cases _⟩

variable {config : Config} {settings : Settings}

theorem Follow.username_ne (follow : Follow config settings) : settings.username.strip ≠ [] := by
  rcases follow.username with ⟨-, visible⟩ | ⟨-, default⟩
  · exact visible
  · rw [default]
    decide

theorem Follow.one_le_historyLimit (follow : Follow config settings) :
    1 ≤ settings.historyLimit := by
  rcases follow.historyLimit with ⟨-, positive⟩ | ⟨-, default⟩
  · exact positive
  · rw [default]
    decide

end Settings

end GatedConsole
