import GatedConsole.Command.Registry
import GatedConsole.Command.Result
import GatedConsole.Invocation
import GatedConsole.Moment

/-!
The commands that the console brings along: help and manual pages, who and how things are, and two
operations for root.
-/

set_option autoImplicit false
set_option relaxedAutoImplicit false

namespace GatedConsole

inductive Stock where
  | help
  | man
  | whoami
  | status
  | lockdown
  | shutdown
deriving DecidableEq

namespace Stock

def all : List Stock := [help, man, whoami, status, lockdown, shutdown]

def descriptor : Stock → Descriptor
  | help => ⟨"help", .guest, "Display available mystical commands", "help [command]", ["?"]⟩
  | man => ⟨"man", .guest, "Display detailed manual pages for commands", "man <command>", []⟩
  | whoami => ⟨"whoami", .guest, "Display current user information", "whoami", []⟩
  | status => ⟨"status", .guest, "Display current system status", "status [--detailed]", []⟩
  | lockdown =>
    ⟨"lockdown.bastion_wide", .root, "Initiate emergency bastion-wide security lockdown",
      "lockdown.bastion_wide [--except=<areas>]", []⟩
  | shutdown =>
    ⟨"shutdown.ossuary_spindle", .root, "Shutdown the mystical ossuary spindle system",
      "shutdown.ossuary_spindle --force", []⟩

def registry : Registry := ⟨all.map descriptor, by decide⟩

/-- The stock command that a descriptor describes. -/
def ofDescriptor? (d : Descriptor) : Option Stock := all.find? (·.descriptor = d)

def helpPage (d : Descriptor) : List Text :=
  ["┌─ " ++ d.name.upperAscii ++ " ─",
    "│ Description: " ++ d.description,
    "│ Usage: " ++ d.usage,
    "│ Required Access: " ++ d.access.title,
    "└─────────────────────────────────────"]

/-- The forms of input that no command stands behind. -/
def helpFooter : List Text :=
  ["",
    "  history [--limit=N]        Recent invocations",
    "  clear                      Clear the console",
    "  macros                     List inscribed macros",
    "  define.macro <name> <cmd>  Inscribe a macro",
    "  macro.<name>               Replay a macro",
    "",
    "Use \"help <command>\" or \"man <command>\" for details."]

def helpEntry (d : Descriptor) : Text := "  " ++ d.name.padRight 26 ++ " " ++ d.description

def helpOverview (level : Access) : List Text :=
  Text.ofString "═══ MYSTICAL COMMANDS ═══" ::
    ((registry.visible level).map helpEntry ++ helpFooter)

def runHelp (args : List Text) (user : User) : Result :=
  match args with
  | [] => .ok (helpOverview user.access)
  | name :: _ =>
    match registry.resolve? name with
    | none => .fail ("Command '" ++ name ++ "' not found in mystical archives")
    | some d => .ok (helpPage d)

def manualHead (d : Descriptor) : List Text :=
  ["MYSTICAL MANUAL: " ++ d.name.upperAscii,
    "",
    "NAME",
    "     " ++ d.name ++ " - " ++ d.description,
    "",
    "SYNOPSIS",
    "     " ++ d.usage,
    "",
    "ACCESS LEVEL",
    "     " ++ d.access.title ++ " or higher"]

def manualAliases (d : Descriptor) : List Text :=
  if d.aliases = [] then [] else ["", "ALIASES", "     " ++ Text.join ", " d.aliases]

def manualFooter : List Text := ["", "SEE ALSO", "     help(1), status(1)"]

def manualPage (d : Descriptor) : List Text := manualHead d ++ manualAliases d ++ manualFooter

def runMan (args : List Text) : Result :=
  match args with
  | [] => .fail "MANUAL FAULT: Command name required. Usage: man <command>"
  | name :: _ =>
    match registry.resolve? name with
    | none => .fail ("Manual entry for '" ++ name ++ "' not found in mystical archives")
    | some d => .ok (manualPage d)

def runWhoami (now : Moment) (user : User) : Result :=
  .ok
    ["═══ DIMENSIONAL IDENTITY ═══",
      "👤 User: " ++ user.username,
      "🔑 Access Level: " ++ user.access.title,
      "🌟 Authentication: " ++ (if user.authenticated then "VERIFIED" else "UNVERIFIED"),
      "⏰ Session Active: " ++ now.text,
      "",
      "🎭 " ++ user.access.description]

/-- Whether one of the flags is given. -/
def isGiven (flags : Keyed Text Flag) (keys : List Text) : Bool :=
  keys.any fun key => ((Keyed.get? flags key).map Flag.isOn).getD false

def statusLines : List Text :=
  ["═══ SYSTEM STATUS ═══",
    "🔮 Bastion Core: ONLINE",
    "⚡ Aether Flow: 87% (Optimal)",
    "🛡️  Ward Integrity: 76% (Warning)",
    "🌀 Void Containment: 42% (Critical)"]

def statusDetails : List Text :=
  ["",
    "═══ DETAILED ANALYSIS ═══",
    "   • Prism Atrium: 12 active transformations",
    "   • Ember Ring: Synchronization in progress",
    "   • Void Nexus: Containment breach detected"]

def runStatus (flags : Keyed Text Flag) : Result :=
  .ok (statusLines ++ if isGiven flags ["detailed", "d"] then statusDetails else [])

def lockdownHead : List Text :=
  ["🚨 EMERGENCY LOCKDOWN INITIATED", "🔒 Sealing all dimensional gateways..."]

def exceptionLine (area : Text) : Text := "   • " ++ area ++ ": ACCESSIBLE"

/-- The areas that stay open, which commas separate in the value of one flag. -/
def lockdownExceptions (flags : Keyed Text Flag) : List Text :=
  match Keyed.get? flags "except" with
  | some (.value areas) =>
    Text.ofString "🔓 EXCEPTIONS MAINTAINED:" :: (areas.splitOn ',').map exceptionLine
  | _ => ["🔒 NO EXCEPTIONS - TOTAL LOCKDOWN"]

def runLockdown (flags : Keyed Text Flag) : Result :=
  .ok (lockdownHead ++ lockdownExceptions flags ++ [Text.ofString "🚨 LOCKDOWN COMPLETE"])

def runShutdown (flags : Keyed Text Flag) : Result :=
  if isGiven flags ["force"] then
    .ok
      ["💀 OSSUARY SPINDLE SHUTDOWN",
        "   • Spindle RPM: 10,000... 5,000... 1,000... 0",
        "💀 OSSUARY SPINDLE: OFFLINE"]
  else
    .fail
      ("SAFETY FAULT: Ossuary spindle shutdown requires --force flag. " ++
        "This action cannot be undone.")

/-- What a stock command answers at the time `now`. -/
def run (now : Moment) (command : Stock) (invocation : Invocation) (user : User) : Result :=
  match command with
  | help => runHelp invocation.args user
  | man => runMan invocation.args
  | whoami => runWhoami now user
  | status => runStatus invocation.flags
  | lockdown => runLockdown invocation.flags
  | shutdown => runShutdown invocation.flags

end Stock

end GatedConsole
