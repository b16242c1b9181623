import GatedConsole.Interpreter.Memory
import GatedConsole.Session.Tab

/-!
The steps that can be taken in a session, and their answers.
-/

set_option autoImplicit false
set_option relaxedAutoImplicit false

namespace GatedConsole

/-- A user as it is asked for; the level is a name, which need not be one. -/
structure UserForm where
  username : Text
  level : Text
  authenticated : Bool
deriving DecidableEq

def UserForm.user? (form : UserForm) : Option User :=
  (Access.ofName? form.level).map (⟨form.username, ·, form.authenticated⟩)

/-- A step. Where a tab can be named, none means the active one. -/
inductive Step where
  | execute (line : Text)
  | suggest (fragment : Text)
  | candidates
  | entries
  | macros
  | define (name : Text) (commands : List Text)
  | stored (key : Text)
  | store (key text : Text)
  | failWrites (fail : Bool)
  | reload
  | reopen
  | user (form : UserForm)
  | setBuffer (text : Text) (tab : Option Nat)
  | submit (tab : Option Nat)
  | enter (text : Text) (tab : Option Nat)
  | complete (tab : Option Nat)
  | up (tab : Option Nat)
  | down (tab : Option Nat)
  | openTab (title : Option Text)
  | closeTab (id : Nat)
  | switchTab (id : Nat)
  | transcript (tab : Option Nat)
  | rendered (tab : Option Nat)
  | gather (steps : List Step)

instance : Inhabited Step := ⟨.candidates⟩

/-- Why a step has no answer. -/
inductive StepFault where
  | escape (cause : Escape)
  | macros (fault : Macros.Fault)
  | notAUser
  | stuck
deriving DecidableEq

/-- What a step answers. -/
inductive Reply where
  | nothing
  | bool (b : Bool)
  | number (n : Nat)
  | text (t : Text)
  | texts (ts : List Text)
  | result (r : Result)
  | history (entries : List Text) (total : Nat)
  | book (entries : List (Text × List Text))
  | lines (lines : List Line)
  | fault (cause : StepFault)
  | many (replies : List Reply)

instance : Inhabited Reply := ⟨.nothing⟩

namespace Reply

def ofResult? : Option Result → Reply
  | none => .nothing
  | some r => .result r

def ofStore {α : Type} (reply : α → Reply) : Except Files.Fault α → Reply
  | .ok a => reply a
  | .error cause => .fault (.escape (.store cause))

def ofDefinition : Except Macros.Fault Bool → Reply
  | .ok saved => .bool saved
  | .error cause => .fault (.macros cause)

/-- The answer of a step whose program has ended. -/
def ofEnding : Ending Escape Reply → Reply
  | .done reply => reply
  | .escaped cause => .fault (.escape cause)
  | .stuck => .fault .stuck

end Reply

end GatedConsole
