import GatedConsole.Console.Arguments
import GatedConsole.Console.Turn
import GatedConsole.Interpreter.Stock
import GatedConsole.Settings

/-!
Launching the console: arguments, settings, a session on the macros of the data directory, and one
of two front ends. The first launch leaves the default settings behind, to be edited.
-/

set_option autoImplicit false
set_option relaxedAutoImplicit false

namespace GatedConsole

namespace Launch

open Files

/-- Why no session could be opened, or why it broke off. -/
inductive Fault where
  | noDirectory
  | config (fault : Config.Fault)
  | file (fault : Files.Fault)
  | history (fault : History.CapacityFault)
  | escape (cause : Escape)
deriving DecidableEq

def Fault.message : Fault → Text
  | .noDirectory => "expected str, bytes or os.PathLike object, not list"
  | .config fault => fault.message
  | .file fault => fault.message
  | .history fault => fault.message
  | .escape cause => cause.message

/-- Opens a session with the stock commands on the macros of a directory, which is made if it is
missing. -/
def openSession (config : Config) (tree : Tree) (directory : Path) : Tree × Except Fault Session :=
  let settings := Settings.ofConfig config
  match Store.openFiles tree directory with
  | (tree, .error fault) => (tree, .error (.file fault))
  | (tree, .ok store) =>
    match Macros.ofStore store Macros.defaultKey with
    | .error fault => (tree, .error (.file fault))
    | .ok macros =>
      match History.empty settings.historyLimit with
      | .error fault => (tree, .error (.history fault))
      | .ok history => (tree, .ok (.ofUser settings.user macros history))

inductive FrontEnd where
  | lines
  | tabs
deriving DecidableEq

/-- A value counts as true unless it is false, null, zero or empty. -/
def isTrue : Json → Bool
  | .null => false
  | .bool b => b
  | .int i => i ≠ 0
  | .float (.finite _ mantissa _) => mantissa ≠ 0
  | .float _ => true
  | .text t => t ≠ []
  | .list items => !items.isEmpty
  | .object members => !members.isEmpty

/-- A session that is ready for its front end. -/
structure Ready where
  frontEnd : FrontEnd
  showBanner : Bool
  session : Session

/-- Loads the settings; where there is no file, the defaults are written to it. -/
def settle (tree : Tree) (directory : Path) : Tree × Except Fault Config :=
  match Config.load tree directory with
  | .error fault => (tree, .error (.config fault))
  | .ok config =>
    match tree.exists? (Config.pathIn directory) with
    | .error fault => (tree, .error (.file fault))
    | .ok true => (tree, .ok config)
    | .ok false =>
      match Config.save config tree directory with
      | (tree, .ok _) => (tree, .ok config)
      | (tree, .error fault) => (tree, .error (.file fault))

/-- The command line goes before the settings; an empty user name says nothing. -/
def override (arguments : Arguments) (config : Config) : Config :=
  let config :=
    match arguments.user with
    | some (c :: r) => Keyed.put Config.usernameKey (.text (c :: r)) config
    | _ => config
  match arguments.access with
  | some level => Keyed.put Config.accessKey (.text level.name) config
  | none => config

def frontEndOf (arguments : Arguments) (config : Config) : FrontEnd :=
  let asked : Bool :=
    match Keyed.get? config Config.interfaceKey with
    | some (.text t) => t = "tui"
    | _ => false
  if arguments.tabbed || asked then .tabs else .lines

def showsBanner (arguments : Arguments) (config : Config) : Bool :=
  ((Keyed.get? config Config.bannerKey).map isTrue).getD true && !arguments.noBanner

/-- Everything up to the start of the front end, in a data directory. -/
def prepareIn (directory : Path) (arguments : Arguments) (tree : Tree) :
    Tree × Except Fault Ready :=
  match settle tree directory with
  | (tree, .error fault) => (tree, .error fault)
  | (tree, .ok config) =>
    let config := override arguments config
    match openSession config tree directory with
    | (tree, .error fault) => (tree, .error fault)
    | (tree, .ok session) =>
      (tree, .ok ⟨frontEndOf arguments config, showsBanner arguments config, session⟩)

/-- Everything up to the start of the front end. -/
def prepare (arguments : Arguments) (tree : Tree) : Tree × Except Fault Ready :=
  match arguments.dataDirectory with
  | none => (tree, .error .noDirectory)
  | some directory => prepareIn (.ofText directory) arguments tree

/-- What a launch comes to. -/
structure Outcome where
  /-- The exit code of a launch that the arguments stopped. -/
  exit : Option Nat := none
  frontEnd : Option FrontEnd := none
  events : List Event := []
  tree : Tree
  fault : Option Fault := none

def faultOf : Console.Verdict → Option Fault
  | .broken cause => some (.escape cause)
  | _ => none

/-- The files after a session. -/
def treeOf (s : Session) (tree : Tree) : Tree := (s.macros.store.tree?).getD tree

/-- A launch at the time `now`, with what is typed at its prompts. -/
def launch (now : Moment) (words : List Text) (tree : Tree) (typed : List Typed) : Outcome :=
  match Arguments.parse words with
  | .error stop => { exit := some stop.code, tree := tree }
  | .ok arguments =>
    match prepare arguments tree with
    | (tree, .error fault) => { tree := tree, fault := some fault }
    | (tree, .ok ready) =>
      match ready.frontEnd with
      | .tabs => { frontEnd := some .tabs, tree := tree }
      | .lines =>
        let run := Console.run (.stock now) ready.session ready.showBanner typed
        { frontEnd := some .lines, events := run.events, tree := treeOf run.session tree,
          fault := faultOf run.verdict }

end Launch

end GatedConsole
