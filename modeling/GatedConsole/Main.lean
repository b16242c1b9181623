import GatedConsole.Console.Launch
import Std.Time.Zoned

/-!
The console as a program. It reads the data directory into a tree, asks for one line after the
other, and writes back what a turn has changed in the tree.
-/

set_option autoImplicit false
set_option relaxedAutoImplicit false

namespace GatedConsole.Main

open Files

/-- Where a place is on the disk, from the directory that `start` names. -/
def diskName (start : Text) (place : Place) : String :=
  (start ++ Text.join "/" (place.map Name.text)).toString

/-- What is at a place on the disk. -/
def entryOnDisk (start : Text) (place : Place) : IO (Option Entry) := do
  let path := (← IO.currentDir) / diskName start place
  if ← path.isDir then return some .directory
  if ← path.pathExists then return some (.file (← IO.FS.readBinFile path).toList)
  return none

def namesOnDisk (start : Text) (place : Place) : IO (List Name) := do
  let path := (← IO.currentDir) / diskName start place
  return (← path.readDir).toList.map fun entry => Name.ofText (Text.ofString entry.fileName)

/-- A tree with what is at some of the places on the disk. -/
def addPlaces (start : Text) (tree : Tree) (places : List Place) : IO Tree :=
  places.foldlM (fun tree place => do
    match ← entryOnDisk start place with
    | some entry => return tree.put place entry
    | none => return tree) tree

/-- The directories on the way to the end of a path, and what the last of them holds. -/
def readTree (start : Text) (names : List Name) : IO Tree := do
  let way := (List.range names.length).map fun n => (names.take (n + 1)).foldl enter []
  let place := names.foldl enter []
  let tree ← addPlaces start .empty way
  if tree.at? place = some .directory then
    let names ← namesOnDisk start place
    addPlaces start tree (names.map fun name => place ++ [name])
  else return tree

/-- Writes what is new or different in the second tree. -/
def writeChanges (start : Text) (before after : Tree) : IO Unit :=
  after.entries.forM fun (place, entry) => do
    unless before.at? place = some entry do
      match entry with
      | .directory => IO.FS.createDirAll (diskName start place)
      | .file content => IO.FS.writeBinFile (diskName start place) ⟨content.toArray⟩

def now : IO Moment := do
  let t ← Std.Time.PlainDateTime.now
  return ⟨t.year.toInt.toNat, t.month.toNat, t.day.toNat, t.hour.toNat, t.minute.toNat,
    t.second.toNat⟩

def clearScreen : String := "\x1b[2J\x1b[H"

def perform : Event → IO Unit
  | .printed text => IO.print text.toString
  | .asked prompt => do
    IO.print prompt.toString
    (← IO.getStdout).flush
  | .cleared => IO.print clearScreen

/-- The next line from the keyboard, without its end. -/
def readTyped : IO Typed := do
  let line ← (← IO.getStdin).getLine
  if line.isEmpty then return .endOfInput
  let text := Text.ofString line
  return .line (if text.getLast? = some (CodePoint.ofChar '\n') then text.dropLast else text)

def complain (message : Text) : IO UInt32 := do
  IO.eprintln message.toString
  return 1

/-- Turn after turn, until the user leaves. -/
partial def turns (start : Text) (tree : Tree) (s : Session) : IO UInt32 := do
  perform (Console.question s)
  let typed ← readTyped
  let (events, verdict, s) := Console.turn (.stock (← now)) s typed
  let after := Launch.treeOf s tree
  writeChanges start tree after
  events.forM perform
  match verdict with
  | .goOn => turns start after s
  | .leave => return 0
  | .broken cause => complain cause.message
  | .stuck => return 1

/-- Starts the front end of a session. -/
def openFrontEnd (directory : Path) (tree : Tree) (ready : Launch.Ready) : IO UInt32 :=
  match ready.frontEnd with
  | .tabs => complain "the tabbed front end needs a screen of its own"
  | .lines => do
    (Console.banner ready.session ready.showBanner).forM perform
    turns directory.start tree ready.session

/-- A launch with a data directory. An absolute one is looked up from the root of the disk. -/
def launchIn (directory : Path) (arguments : Arguments) : IO UInt32 := do
  let before ← readTree directory.start (directory.parts.map Name.ofText)
  let (after, outcome) := Launch.prepareIn ⟨[], directory.parts⟩ arguments before
  writeChanges directory.start before after
  match outcome with
  | .error fault => complain fault.message
  | .ok ready => openFrontEnd directory after ready

def launch (words : List Text) : IO UInt32 :=
  match Arguments.parse words with
  | .error stop => return UInt32.ofNat stop.code
  | .ok arguments =>
    match arguments.dataDirectory with
    | none => complain (Launch.Fault.message .noDirectory)
    | some directory => launchIn (.ofText directory) arguments

end GatedConsole.Main

def main (args : List String) : IO UInt32 :=
  GatedConsole.Main.launch (args.map GatedConsole.Text.ofString)
