import GatedConsole.Session.Submission
import GatedConsole.Task.Loop

/-!
Taking steps in a session. A step is a program in the session's memory. Most of them are one move;
executing and submitting take as long as the commands behind them do. Gathered steps are parts of
one program, started in order.
-/

set_option autoImplicit false
set_option relaxedAutoImplicit false

namespace GatedConsole.Session

/-- One move on a tab, if it is open. -/
def onTab (id : Option Nat) (move : Session → Tab → Reply × Session) : Work Desk Reply :=
  Program.act fun s =>
    match Session.tab? s id with
    | none => (.nothing, s)
    | some tab => move s tab

def setBuffer (text : Text) (id : Option Nat) : Work Desk Reply :=
  onTab id fun s tab => (.nothing, updateTab tab.id (·.setBuffer text) s)

/-- Walks through the submitted lines; the answer is the typed line after that. -/
def walkTab (id : Option Nat) (walk : Tab → Tab) : Work Desk Reply :=
  onTab id fun s tab => (.text (walk tab).buffer, updateTab tab.id walk s)

mutual

/-- The program of a step, given how lines are executed. -/
def work (registry : Registry) (execute : Text → Work Desk Result) : Step → Work Desk Reply
  | .execute line => Reply.result <$> execute line
  | .suggest fragment => Program.act fun s => (.texts (suggestions registry s fragment), s)
  | .candidates => Program.act fun s => (.texts (candidates registry s), s)
  | .entries => Program.act fun s => (.history s.history.entries s.history.total, s)
  | .macros => Program.act fun s => (.book s.macros.book.entries, s)
  | .define name commands => Program.act (define name commands)
  | .stored key => Program.act fun s => (stored key s, s)
  | .store key text => Program.act (store key text)
  | .failWrites fail => Program.act fun s => (.nothing, failWrites fail s)
  | .reload => Program.act reload
  | .reopen => Program.act reopen
  | .user form => Program.act (changeUser form)
  | .setBuffer text id => setBuffer text id
  | .submit id => Reply.ofResult? <$> submit execute id
  | .enter text id => do
    let _ ← setBuffer text id
    Reply.ofResult? <$> submit execute id
  | .complete id =>
    onTab id fun s tab =>
      let (suggestions, s) := complete registry s tab
      (.texts suggestions, s)
  | .up id => walkTab id Tab.recallPrevious
  | .down id => walkTab id Tab.recallNext
  | .openTab title => Program.act (openTab title)
  | .closeTab id => Program.act (closeTab id)
  | .switchTab id => Program.act (switchTab id)
  | .transcript id => onTab id fun s tab => (.lines tab.lines, s)
  | .rendered id => onTab id fun s tab => (.texts (renderedLines s tab), s)
  | .gather steps => do
    let endings ← Program.forkAll (workAll registry execute steps)
    pure (.many (endings.map Reply.ofEnding))

def workAll (registry : Registry) (execute : Text → Work Desk Result) :
    List Step → List (Work Desk Reply)
  | [] => []
  | step :: steps => work registry execute step :: workAll registry execute steps

end

def program (commands : CommandSet Desk) (step : Step) : Work Desk Reply :=
  work commands.registry (Interpreter.execute commands) step

/-- Takes a step and waits for its end. -/
def take (commands : CommandSet Desk) (s : Session) (step : Step) : Reply × Session :=
  let (ending, s) := Loop.run (program commands step) s
  (.ofEnding ending, s)

end GatedConsole.Session
