import GatedConsole.Access
import GatedConsole.Files.Tree
import GatedConsole.History
import GatedConsole.Json.Reader
import GatedConsole.Json.Writer
import GatedConsole.Text.Blank
import GatedConsole.Text.Newline

/-!
The settings file: a JSON object beside the macros, which people edit by hand. What cannot be read
or used gives way to a default, with three exceptions that are faults: bytes that are no text, an
integer with too many digits, and values that are nested too deep.
-/

set_option autoImplicit false
set_option relaxedAutoImplicit false

namespace GatedConsole

/-- Settings by name, known ones and others. -/
abbrev Config := Keyed Text Json

namespace Config

open Files

def usernameKey : Text := "username"

def accessKey : Text := "access_level"

def historyKey : Text := "history_limit"

def bannerKey : Text := "animate_banner"

def interfaceKey : Text := "interface"

def defaultUsername : Text := "initiate"

def defaults : Config :=
  [(usernameKey, .text defaultUsername), (accessKey, .text Access.guest.name),
    (historyKey, .int History.defaultCapacity), (bannerKey, .bool true),
    (interfaceKey, .text "cli")]

def pathIn (directory : Path) : Path := directory.join (.ofText ".bastion_config.json")

/-- How deep the lists and objects of a settings file may be nested, the outermost included. -/
def nestingBound : Nat := 988

inductive Fault where
  | notText (fault : Utf8.DecodeFault)
  | tooManyDigits (count : Nat)
  | tooDeep (bracket : Json.Bracket)
  | file (fault : Files.Fault)
deriving DecidableEq

def Fault.message : Fault → Text
  | .notText fault => fault.message
  | .tooManyDigits count => Json.ReadFault.message (.tooManyDigits count)
  | .tooDeep bracket => Json.ReadFault.message (.tooDeep bracket)
  | .file fault => fault.message

/-- The settings that a document holds, over the defaults. -/
def ofDocument : Json → Config
  | .object members => Keyed.overlay defaults members
  | _ => defaults

/-- The settings that the bytes of a file hold. -/
def ofBytes (content : Bytes) : Except Fault Config :=
  match Utf8.decode content with
  | .error fault => .error (.notText fault)
  | .ok text =>
    match Json.readWithin nestingBound text.unifyNewlines with
    | .ok document => .ok (ofDocument document.settled)
    | .error (.tooManyDigits count) => .error (.tooManyDigits count)
    | .error (.tooDeep bracket) => .error (.tooDeep bracket)
    | .error .malformed => .ok defaults

def load (tree : Tree) (directory : Path) : Except Fault Config :=
  match tree.exists? (pathIn directory) with
  | .error fault => .error (.file fault)
  | .ok false => .ok defaults
  | .ok true =>
    match tree.readBytes (pathIn directory) with
    | .error _ => .ok defaults
    | .ok content => ofBytes content

/-- Whether a write went well; only the system may refuse one without a fault. -/
def saved (outcome : Except Files.Fault Unit) : Except Files.Fault Bool :=
  match outcome with
  | .ok () => .ok true
  | .error fault => if fault.isSystem then .ok false else .error fault

/-- Writes the settings, in a directory that is made if it is missing. -/
def save (config : Config) (tree : Tree) (directory : Path) : Tree × Except Files.Fault Bool :=
  match tree.makeDirectories (pathIn directory).parent with
  | (made, .error fault) => (made, saved (.error fault))
  | (made, .ok ()) =>
    let (tree, outcome) := made.writeText (pathIn directory) (Json.write (.object config))
    (tree, saved outcome)

/-- Loads the settings, puts in the given ones and writes them all. -/
def update (values : Config) (tree : Tree) (directory : Path) : Tree × Except Fault Bool :=
  match load tree directory with
  | .error fault => (tree, .error fault)
  | .ok config =>
    let (tree, outcome) := save (Keyed.overlay config values) tree directory
    (tree, outcome.mapError .file)

end Config

/-- What a session is opened with. -/
structure Settings where
  username : Text
  access : Access
  historyLimit : Int
deriving DecidableEq

namespace Settings

/-- A name must not be blank. -/
def usernameOf : Option Json → Text
  | some (.text t) => if t.strip = [] then Config.defaultUsername else t
  | _ => Config.defaultUsername

def accessOf : Option Json → Access
  | some (.text t) => (Access.ofName? t).getD .guest
  | _ => .guest

/-- A limit is a positive integer. -/
def historyLimitOf : Option Json → Int
  | some (.int i) => if i < 1 then History.defaultCapacity else i
  | _ => History.defaultCapacity

/-- The settings in use; a value that is not valid gives way to its default. -/
def ofConfig (config : Config) : Settings where
  username := usernameOf (Keyed.get? config Config.usernameKey)
  access := accessOf (Keyed.get? config Config.accessKey)
  historyLimit := historyLimitOf (Keyed.get? config Config.historyKey)

def user (s : Settings) : User := { username := s.username, access := s.access }

end Settings

end GatedConsole
