import GatedConsole.Session.State

/-!
Submitting the typed line of a tab. The line is shown and the tab locked before the line waits for
its turn; the result is shown when it comes, and the tab is unlocked however the execution ends.
-/

set_option autoImplicit false
set_option relaxedAutoImplicit false

namespace GatedConsole.Session

/-- Executes a submitted line and shows its result. -/
def executeAndShow (execute : Text → Work Desk Result) (id : Nat) (command : Text) :
    Work Desk Result := do
  let result ← execute command
  Program.update (updateTab id (·.showResult Interpreter.clearSequence result))
  pure result

/-- A submission from its beginning to its end. -/
def submission (execute : Text → Work Desk Result) (id : Nat) (command : Text) :
    Work Desk Result := do
  Program.update (updateTab id (·.begin command))
  (executeAndShow execute id command).andFinally (Program.update (updateTab id Tab.finish))

/-- Submits the typed line of a tab. A blank line, and a tab that is executing, submit nothing. -/
def submit (execute : Text → Work Desk Result) (id : Option Nat) : Work Desk (Option Result) := do
  let s ← Program.read
  match Session.tab? s id with
  | none => pure none
  | some tab =>
    if tab.executing || tab.buffer.strip = [] then pure none
    else some <$> submission execute tab.id tab.buffer.strip

end GatedConsole.Session
