import GatedConsole.Session.Run

/-!
The line console: it asks for a line, submits it in its one tab, and prints what is new in the
transcript. The submitted line itself is on the screen already.
-/

set_option autoImplicit false
set_option relaxedAutoImplicit false

namespace GatedConsole

/-- What comes from the keyboard when a line is asked for. -/
inductive Typed where
  | line (text : Text)
  | interrupt
  | endOfInput
deriving DecidableEq

/-- What happens on the screen. -/
inductive Event where
  | printed (text : Text)
  | asked (prompt : Text)
  | cleared
deriving DecidableEq

namespace Console

def exitWords : List Text := ["exit", "quit"]

def farewell : Event := .printed "\nDimensional link closed.\n"

def interruptHint : Event := .printed "Type exit or quit to leave\n"

def question (s : Session) : Event := .asked (Display.prompt s.user ++ " ")

/-- Prints lines; no line is no event. -/
def printEvents (s : Session) (lines : List Line) : List Event :=
  if lines = [] then [] else [.printed (Display.printLines s.user lines)]

/-- What the screen shows after a submission before which the transcript had `seen` lines. -/
def eventsOf (s : Session) (seen : Nat) : Option Result → List Event
  | none => []
  | some result =>
    if result.success && result.output = [Interpreter.clearSequence] then [.cleared]
    else printEvents s (s.tabs.active.lines.drop (seen + 1))

/-- Submits a line in the active tab. -/
def submitLine (commands : CommandSet Desk) (s : Session) (text : Text) :
    List Event × Ending Escape Unit × Session :=
  let s := s.updateTab s.tabs.active.id (·.setBuffer text)
  let seen := s.tabs.active.lines.length
  match Loop.run (Session.submit (Interpreter.execute commands) none) s with
  | (.done result, s) => (eventsOf s seen result, .done (), s)
  | (.escaped cause, s) => ([], .escaped cause, s)
  | (.stuck, s) => ([], .stuck, s)

/-- What one turn comes to: the next turn, the end, or a break. -/
inductive Verdict where
  | goOn
  | leave
  | broken (cause : Escape)
  | stuck
deriving DecidableEq

def verdictOf : Ending Escape Unit → Verdict
  | .done () => .goOn
  | .escaped cause => .broken cause
  | .stuck => .stuck

/-- One turn, with what was typed at its prompt. -/
def turn (commands : CommandSet Desk) (s : Session) : Typed → List Event × Verdict × Session
  | .interrupt => ([interruptHint], .goOn, s)
  | .endOfInput => ([farewell], .leave, s)
  | .line text =>
    if exitWords.contains text.strip then ([farewell], .leave, s)
    else
      let (events, ending, s) := submitLine commands s text
      (events, verdictOf ending, s)

/-- How a run ended, what was on the screen, and the last state. -/
structure Run where
  events : List Event
  verdict : Verdict
  session : Session

/-- Turn after turn; when nothing more is typed the input has ended. -/
def turns (commands : CommandSet Desk) (s : Session) : List Typed → Run
  | [] =>
    let (events, verdict, last) := turn commands s .endOfInput
    ⟨question s :: events, verdict, last⟩
  | typed :: rest =>
    let (events, verdict, next) := turn commands s typed
    match verdict with
    | .goOn =>
      let run := turns commands next rest
      { run with events := question s :: events ++ run.events }
    | verdict => ⟨question s :: events, verdict, next⟩

/-- What stands on the screen before the first prompt. -/
def banner (s : Session) (showBanner : Bool) : List Event :=
  if showBanner then printEvents s s.tabs.active.lines else []

def run (commands : CommandSet Desk) (s : Session) (showBanner : Bool) (typed : List Typed) : Run :=
  let run := turns commands s typed
  { run with events := banner s showBanner ++ run.events }

end Console

end GatedConsole
