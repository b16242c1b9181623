import GatedConsole.Access
import GatedConsole.Command.Result
import GatedConsole.Text.Quoted

/-!
A tab: a transcript, a line being typed, and the lines submitted before, through which two keys
walk. While a submission is being executed the typed line is locked.
-/

set_option autoImplicit false
set_option relaxedAutoImplicit false

namespace GatedConsole

inductive LineKind where
  | command
  | output
  | error
  | system
deriving DecidableEq

namespace LineKind

def all : List LineKind := [command, output, error, system]

def name : LineKind → Text
  | command => "command"
  | output => "output"
  | error => "error"
  | system => "system"

def ofName? (name : Text) : Option LineKind := all.find? (·.name = name)

/-- What is said of a name that is no kind of line. -/
def refusal (name : Text) : Text := name.quoted ++ " is not a valid LineType"

end LineKind

structure Line where
  kind : LineKind
  content : Text
deriving DecidableEq

/-- What stands at the top of every new tab. -/
def welcomeLines (user : User) : List Text :=
  ["╔══════════════════════════════════════════════════════════════╗",
    "║              ETERNUM BASTION MYSTICAL INTERFACE              ║",
    "╚══════════════════════════════════════════════════════════════╝",
    "",
    "🔮 Welcome, " ++ user.username,
    "⚡ Access Level: " ++ user.access.title,
    "🌟 Dimensional Link: ESTABLISHED",
    "",
    "Type \"help\" for available commands or \"man <command>\" for detailed documentation.",
    ""]

structure Tab where
  id : Nat
  title : Text
  lines : List Line := []
  buffer : Text := []
  /-- The lines submitted in this tab, oldest first. -/
  submitted : List Text := []
  /-- The submitted line that is being shown again, if one is. -/
  cursor : Option Nat := none
  executing : Bool := false
deriving DecidableEq

namespace Tab

def addLine (tab : Tab) (kind : LineKind) (content : Text) : Tab :=
  { tab with lines := tab.lines ++ [⟨kind, content⟩] }

def new (id : Nat) (title : Text) (user : User) : Tab where
  id := id
  title := title
  lines := (welcomeLines user).map (⟨.system, ·⟩)

/-- Replaces the typed line, unless a submission is being executed. -/
def setBuffer (tab : Tab) (text : Text) : Tab :=
  if tab.executing then tab else { tab with buffer := text }

/-- Shows the submitted line with this number again. -/
def recallAt (tab : Tab) (i : Nat) : Tab :=
  { tab with cursor := some i, buffer := tab.submitted.getD i [] }

/-- One step back through the submitted lines, to the oldest at most. -/
def recallPrevious (tab : Tab) : Tab :=
  if tab.submitted = [] then tab
  else
    match tab.cursor with
    | none => tab.recallAt (tab.submitted.length - 1)
    | some i => tab.recallAt (i - 1)

/-- One step forward; past the newest line the typed line is empty. -/
def recallNext (tab : Tab) : Tab :=
  match tab.cursor with
  | none => tab
  | some i =>
    if i + 1 = tab.submitted.length then { tab with cursor := none, buffer := [] }
    else tab.recallAt (i + 1)

/-- A submission begins: the line is shown and remembered, and the tab is locked. -/
def begin (tab : Tab) (command : Text) : Tab :=
  let tab := tab.addLine .command command
  { tab with executing := true, submitted := tab.submitted ++ [command], cursor := none }

/-- A failure that does not say anything. -/
def disturbance : Text := "Unknown mystical disturbance"

/-- The line that shows a failure. -/
def errorLine (result : Result) : Text :=
  match result.error with
  | none => disturbance
  | some [] => disturbance
  | some message => message

/-- Shows a result. One that is `clear` and nothing else empties the transcript. -/
def showResult (clear : Text) (tab : Tab) (result : Result) : Tab :=
  if !result.success then tab.addLine .error (errorLine result)
  else if result.output = [clear] then { tab with lines := [] }
  else { tab with lines := tab.lines ++ result.output.map (⟨.output, ·⟩) }

/-- A submission ends: the typed line is empty and the tab unlocked. -/
def finish (tab : Tab) : Tab := { tab with buffer := [], executing := false }

end Tab

end GatedConsole
