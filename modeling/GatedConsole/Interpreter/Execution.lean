import GatedConsole.Interpreter.Suggestion

/-!
Executing a line. It is recorded, and then a macro, a built-in command or a registered command
answers for it. The steps of a macro take the same way, so that nested macros, built-in commands and
permissions are as they are for a typed line. One invocation runs at a time, under a lock.
-/

set_option autoImplicit false
set_option relaxedAutoImplicit false

namespace GatedConsole.Interpreter

variable {η : Type}

/-- The line that asks a terminal to be emptied. -/
def clearSequence : Text := "\x1b[2J\x1b[H"

/-- How many macros may enclose a macro. -/
def depthBound : Nat := 8

def voidCommand : Result := .fail "VOID COMMAND: No mystical invocation detected"

/-! ## Registered commands -/

/-- How many suggestions a refusal names. -/
def shownBound : Nat := 3

def unknown (token : Text) (suggestions : List Text) : Result :=
  if suggestions = [] then
    .fail ("RUNE FAULT: Unknown invocation '" ++ token ++
      "'. Type 'help' for available commands.")
  else
    .fail ("RUNE FAULT: Unknown invocation '" ++ token ++ "'. Did you mean: " ++
      Text.join ", " (suggestions.take shownBound) ++ "?")

def denied (required : Access) : Result :=
  .fail ("ACCESS DENIED: Insufficient mystical authority. Required: " ++ required.title)

/-- Calls a command, which is logged before its body starts. -/
def call (commands : CommandSet η) (d : Descriptor) (invocation : Invocation) (user : User) :
    Work η Result := do
  Program.update fun m =>
    { m with calls := m.calls ++ [⟨d.name, invocation.args, invocation.flags, user⟩] }
  let outcome ← commands.body d invocation user
  pure outcome.toResult

/-- The command that the first word names answers, if the user may run it. -/
def dispatch (commands : CommandSet η) (invocation : Invocation) : Work η Result := do
  let m ← Program.read
  match commands.registry.resolve? invocation.command with
  | none =>
    pure (unknown invocation.command
      (suggestions commands.registry m.user m.macros.book invocation.command))
  | some d =>
    if m.user.access.permits d.access then call commands d invocation m.user
    else pure (denied d.access)

/-! ## Built-in commands -/

def limitWord : Text := "limit"

/-- How many lines a listing may show; a limit that is no positive number is refused. -/
def historyLimit? (flags : Keyed Text Flag) : Option Int :=
  match Keyed.get? flags limitWord with
  | some (.value t) =>
    match t.integer? with
    | some limit => if limit < 1 then none else some limit
    | none => none
  | _ => some (History.defaultView : Int)

def historyLine (entry : Nat × Text) : Text := (Text.ofNat entry.1).padLeft 4 ++ "  " ++ entry.2

def showHistory (history : History) (flags : Keyed Text Flag) : Result :=
  match historyLimit? flags with
  | none => .fail "HISTORY FAULT: --limit must be a positive integer"
  | some limit =>
    .ok (Text.ofString "═══ INVOCATION HISTORY ═══" :: (history.recent limit).map historyLine)

def macroLines (entry : Text × List Text) : List Text :=
  [macroMark ++ entry.1 ++ " (" ++ Text.ofNat entry.2.length ++ " commands)",
    "    " ++ Text.join " ; " entry.2]

def listMacros (book : MacroBook) : Result :=
  if book.entries = [] then
    .ok
      ["No macros inscribed yet.",
        "Create one with: " ++ defineWord ++ " <name> <cmd1> [cmd2...]"]
  else .ok (Text.ofString "═══ INSCRIBED MACROS ═══" :: book.entries.flatMap macroLines)

/-! ## Macros -/

def inscribed (name : Text) (commands : List Text) : Result :=
  .ok
    ["✨ MACRO '" ++ name ++ "' INSCRIBED",
      "Commands (" ++ Text.ofNat commands.length ++ "): " ++ Text.join ", " commands,
      "Invoke with: " ++ macroMark ++ name]

def unsaved (name : Text) : Result :=
  .fail ("STORAGE FAULT: Macro '" ++ name ++ "' is active for this session but could not be saved")

/-- The name and the commands of a definition: the words of the line behind its first. -/
def definition? (line : Text) : Option (Text × { commands : List Text // commands ≠ [] }) :=
  match line.words with
  | _ :: name :: command :: commands => some (name, ⟨command :: commands, by simp⟩)
  | _ => none

def defineMacro (line : Text) : Work η Result :=
  match definition? line with
  | none => .done (.fail ("MACRO FAULT: Usage: " ++ defineWord ++ " <name> <cmd1> [cmd2...]"))
  | some (name, ⟨commands, some_command⟩) => do
    let saved ← Program.act fun m =>
      let (macros, saved) := m.macros.inscribe name commands some_command
      (saved, { m with macros := macros })
    match saved with
    | .ok true => pure (inscribed name commands)
    | .ok false => pure (unsaved name)
    | .error fault => .escape (.store fault)

/-- Lines of a step stand four blanks to the right in the report of its macro. -/
def inset (line : Text) : Text := "    " ++ line

/-- What a report says of a step: a success shows its lines, but never empties the terminal. -/
def stepBody (result : Result) : List Text :=
  if result.success then (result.output.filter (· ≠ clearSequence)).map inset
  else [inset (result.error.getD "None")]

def stepLine (number total : Nat) (step : Text) (success : Bool) : Text :=
  "[" ++ Text.ofNat number ++ "/" ++ Text.ofNat total ++ "] " ++ (if success then "✓ " else "✗ ") ++
    step

def stepLines (total : Nat) (numbered : (Text × Result) × Nat) : List Text :=
  stepLine numbered.2 total numbered.1.1 numbered.1.2.success :: stepBody numbered.1.2

def reportHead (name : Text) (total : Nat) : Text :=
  "⚡ MACRO " ++ name ++ ": executing " ++ Text.ofNat total ++ " commands"

def reportFoot (succeeded total : Nat) : Text :=
  "MACRO COMPLETE: " ++ Text.ofNat succeeded ++ "/" ++ Text.ofNat total ++ " succeeded"

/-- The report of a macro whose steps had these results. It is a success, whatever they were. -/
def report (name : Text) (steps : List (Text × Result)) : Result :=
  .ok
    (reportHead name steps.length :: (steps.zipIdx 1).flatMap (stepLines steps.length) ++
      [reportFoot (steps.countP (·.2.success)) steps.length])

def macroNotFound (name : Text) : Result :=
  .fail ("MACRO FAULT: Macro '" ++ name ++
    "' not found. Type 'macros' to list inscribed macros.")

def tooDeep : Result :=
  .fail ("RECURSION FAULT: Macro nesting deeper than " ++ Text.ofNat depthBound ++ " levels")

/-- Replays a macro as it is stored now. Without a way to run steps it is nested too deep. -/
def replay (runStep : Option (Text → Work η Result)) (name : Text) : Work η Result := do
  let m ← Program.read
  match m.macros.book.get? name with
  | none => pure (macroNotFound name)
  | some steps =>
    match runStep with
    | none => pure tooDeep
    | some runStep => do
      let results ← Program.forEach runStep steps
      pure (report name (steps.zip results))

/-! ## Lines -/

/-- What answers for a recorded line. -/
def answer (commands : CommandSet η) (runStep : Option (Text → Work η Result)) (line : Text)
    (invocation : Invocation) : Work η Result :=
  match invocation.command.behind? macroMark with
  | some name => replay runStep name
  | none =>
    if invocation.command = defineWord then defineMacro line
    else if invocation.command = historyWord then do
      let m ← Program.read
      pure (showHistory m.history invocation.flags)
    else if invocation.command = clearWord then .done (.ok [clearSequence])
    else if invocation.command = macrosWord then do
      let m ← Program.read
      pure (listMacros m.macros.book)
    else dispatch commands invocation

def record (line : Text) (m : Memory η) : Memory η := { m with history := m.history.append line }

/-- Records a line and answers it; a blank line is neither recorded nor answered. -/
def runLine (commands : CommandSet η) (runStep : Option (Text → Work η Result)) (line : Text) :
    Work η Result :=
  match Invocation.ofLine? line.strip with
  | none => .done voidCommand
  | some invocation => do
    Program.update (record line.strip)
    answer commands runStep line.strip invocation

/-- Runs a line in which macros may still be nested `depth` deep. -/
def run (commands : CommandSet η) : (depth : Nat) → Text → Work η Result
  | 0, line => runLine commands none line
  | depth + 1, line => runLine commands (some (run commands depth)) line

/-- Executes a line when its turn has come; the lock is given back however the line ends. -/
def execute (commands : CommandSet η) (line : Text) : Work η Result := do
  Program.take
  (run commands depthBound line).andFinally Program.giveBack

end GatedConsole.Interpreter
