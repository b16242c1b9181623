import GatedConsole.Session.Run

/-!
The prompt of the line console: completion of the word being typed, and the keys that recall lines
and complete them. After such a key the prompt shows the typed line of the tab.
-/

set_option autoImplicit false
set_option relaxedAutoImplicit false

namespace GatedConsole

/-- A completion replaces the last `back` code points before the cursor. -/
structure Completion where
  text : Text
  back : Nat
deriving DecidableEq

namespace Completion

/-- Completions for the text before the cursor. Only the first word completes: a space behind it
ends the offers. -/
def offers (suggest : Text → List Text) (beforeCursor : Text) : List Completion :=
  let fragment := beforeCursor.stripLeft
  if fragment = [] || fragment.any (· = CodePoint.ofChar ' ') then []
  else (suggest fragment).map (⟨·, fragment.length⟩)

end Completion

/-- A prompt belongs to a tab. -/
structure Prompt where
  tab : Nat
  text : Text := []
  cursor : Nat := 0
deriving DecidableEq

namespace Prompt

/-- The prompt with a text in it and the cursor at its end. -/
def withText (prompt : Prompt) (text : Text) : Prompt := ⟨prompt.tab, text, text.length⟩

inductive Key where
  | up
  | down
  | tab
deriving DecidableEq

/-- Copies the text to the tab. -/
def copyTo (prompt : Prompt) (s : Session) : Session :=
  s.updateTab prompt.tab (·.setBuffer prompt.text)

/-- The typed line of the tab. -/
def typedLine (prompt : Prompt) (s : Session) : Text :=
  match s.tabs.get? prompt.tab with
  | none => []
  | some tab => tab.buffer

def recallLine (walk : Tab → Tab) (prompt : Prompt) (s : Session) : Prompt × Session :=
  let s := (prompt.copyTo s).updateTab prompt.tab walk
  (prompt.withText (prompt.typedLine s), s)

/-- The last line of the tab's transcript, printed. -/
def lastLine (prompt : Prompt) (s : Session) : Text :=
  match s.tabs.get? prompt.tab with
  | none => []
  | some tab => Display.printLines s.user tab.lines.getLast?.toList

/-- One suggestion replaces the text; several are printed and leave it as it is. -/
def complete (registry : Registry) (prompt : Prompt) (s : Session) : (Prompt × Session) × Text :=
  let s := prompt.copyTo s
  match s.tabs.get? prompt.tab with
  | none => ((prompt, s), [])
  | some tab =>
    match s.complete registry tab with
    | ([], s) => ((prompt, s), [])
    | ([_], s) => ((prompt.withText (prompt.typedLine s), s), [])
    | (_, s) => ((prompt, s), prompt.lastLine s)

/-- What a key does, and what it prints. -/
def press (registry : Registry) (prompt : Prompt) (s : Session) :
    Key → (Prompt × Session) × Text
  | .up => (recallLine Tab.recallPrevious prompt s, [])
  | .down => (recallLine Tab.recallNext prompt s, [])
  | .tab => complete registry prompt s

/-- The end of a line: it is copied to the tab and submitted, and the prompt is empty again. -/
def enter (commands : CommandSet Desk) (prompt : Prompt) (s : Session) :
    Prompt × Ending Escape (Option Result) × Session :=
  let (ending, s) :=
    Loop.run (Session.submit (Interpreter.execute commands) (some prompt.tab)) (prompt.copyTo s)
  (prompt.withText [], ending, s)

end Prompt

end GatedConsole
