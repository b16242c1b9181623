import GatedConsole.Display.Styled
import GatedConsole.Interpreter.Execution
import GatedConsole.Session.Step
import GatedConsole.Session.Tabs

/-!
The state of a session: an interpreter with its tabs. The steps here are single moves, which nothing
can come between.
-/

set_option autoImplicit false
set_option relaxedAutoImplicit false

namespace GatedConsole

/-- What a session keeps around its interpreter: the tabs, and the answers to the steps that
commands themselves have taken. -/
structure Desk where
  tabs : Tabs
  asides : List Reply := []

abbrev Session := Memory Desk

namespace Session

def ofUser (user : User) (macros : Macros) (history : History) : Session where
  user := user
  macros := macros
  history := history
  host := { tabs := .ofUser user }

def tabs (s : Session) : Tabs := s.host.tabs

def setTabs (s : Session) (tabs : Tabs) : Session := { s with host := { s.host with tabs := tabs } }

def updateTab (id : Nat) (change : Tab → Tab) (s : Session) : Session :=
  s.setTabs (s.tabs.update id change)

/-- The tab with a number, or without one the active tab. -/
def tab? (s : Session) (id : Option Nat) : Option Tab :=
  match id with
  | none => some s.tabs.active
  | some id => s.tabs.get? id

def setStore (s : Session) (store : Store) : Session :=
  { s with macros := { s.macros with store := store } }

/-! ## The interpreter -/

def suggestions (registry : Registry) (s : Session) (fragment : Text) : List Text :=
  Interpreter.suggestions registry s.user s.macros.book fragment

def candidates (registry : Registry) (s : Session) : List Text :=
  Interpreter.candidates registry s.user s.macros.book

def define (name : Text) (commands : List Text) (s : Session) : Reply × Session :=
  let (macros, saved) := s.macros.define name commands
  (.ofDefinition saved, { s with macros := macros })

def stored (key : Text) (s : Session) : Reply :=
  .ofStore (fun text => (text.map Reply.text).getD .nothing) (s.macros.store.get key)

def store (key text : Text) (s : Session) : Reply × Session :=
  let (store, outcome) := s.macros.store.set key text
  (.ofStore (fun () => .nothing) outcome, s.setStore store)

def failWrites (fail : Bool) (s : Session) : Session :=
  s.setStore { s.macros.store with writesFail := fail }

/-- Loads the macro book again. -/
def reload (s : Session) : Reply × Session :=
  match s.macros.load with
  | .error fault => (.fault (.escape (.store fault)), s)
  | .ok macros => (.nothing, { s with macros := macros })

/-- Opens the macros anew on the same store, in place of the ones in use; the answer is how many
there are. A definition that could not be written is gone. -/
def reopen (s : Session) : Reply × Session :=
  match s.macros.load with
  | .error fault => (.fault (.escape (.store fault)), s)
  | .ok macros => (.number macros.book.size, { s with macros := macros })

def changeUser (form : UserForm) (s : Session) : Reply × Session :=
  match form.user? with
  | none => (.fault .notAUser, s)
  | some user => (.nothing, { s with user := user })

/-! ## The tabs -/

def openTab (title : Option Text) (s : Session) : Reply × Session :=
  (.number s.tabs.nextId, s.setTabs (s.tabs.openTab title s.user))

def closeTab (id : Nat) (s : Session) : Reply × Session :=
  match s.tabs.close? id with
  | none => (.bool false, s)
  | some tabs => (.bool true, s.setTabs tabs)

def switchTab (id : Nat) (s : Session) : Reply × Session :=
  match s.tabs.switch? id with
  | none => (.nothing, s)
  | some tabs => (.number id, s.setTabs tabs)

def completionLine (suggestions : List Text) : Text :=
  "Possible completions: " ++ Text.join ", " suggestions

/-- One suggestion replaces the typed line; several are listed in the transcript. -/
def showSuggestions (suggestions : List Text) (tab : Tab) : Tab :=
  match suggestions with
  | [] => tab
  | [only] => { tab with buffer := only }
  | several => tab.addLine .system (completionLine several)

/-- Completes the typed line of a tab that is not executing. -/
def complete (registry : Registry) (s : Session) (tab : Tab) : List Text × Session :=
  if tab.executing then ([], s)
  else
    let suggestions := s.suggestions registry tab.buffer
    (suggestions, s.updateTab tab.id (showSuggestions suggestions))

def renderedLines (s : Session) (tab : Tab) : List Text :=
  tab.lines.map fun line => (Display.styledLine s.user line).plain

end Session

end GatedConsole
