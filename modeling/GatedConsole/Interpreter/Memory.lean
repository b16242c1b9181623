import GatedConsole.Access
import GatedConsole.Command.Registry
import GatedConsole.Command.Result
import GatedConsole.History
import GatedConsole.Invocation
import GatedConsole.Macro.Keeping
import GatedConsole.Task.Program

/-!
What an interpreter remembers, and what it is given: commands with their bodies.

A body is a program on the same memory. It may suspend, change the memory, and end with a result,
with something else, with a fault, or by breaking off; the interpreter answers for all but the last.
-/

set_option autoImplicit false
set_option relaxedAutoImplicit false

namespace GatedConsole

/-- One call of a command's body. -/
structure Call where
  command : Text
  args : List Text
  flags : Keyed Text Flag
  user : User
deriving DecidableEq

/-- The memory of an interpreter. What the program around it keeps is in `host`, which the
interpreter neither reads nor changes. -/
structure Memory (η : Type) where
  user : User
  macros : Macros
  history : History
  /-- The calls of command bodies so far, oldest first. -/
  calls : List Call := []
  host : η

/-- What breaks off an invocation: an abort from a body, or a store that cannot hold a text. -/
inductive Escape where
  | abort (message : Text)
  | store (fault : Files.Fault)
deriving DecidableEq

def Escape.message : Escape → Text
  | .abort message => message
  | .store fault => fault.message

/-- What a body comes back with. -/
inductive Outcome where
  | result (r : Result)
  | noResult
  | fault (message : Text)
deriving DecidableEq

def anomaly : Text := "Unknown system anomaly"

/-- A fault without a message, and a body that comes back without a result, are anomalies. -/
def Outcome.toResult : Outcome → Result
  | .result r => r
  | .noResult => .fail ("CRITICAL FAULT: " ++ anomaly)
  | .fault message => .fail ("CRITICAL FAULT: " ++ if message = [] then anomaly else message)

/-- A program in the memory of an interpreter. -/
abbrev Work (η α : Type) := Program Escape (Memory η) α

/-- Commands to dispatch to: which there are, and what each does. -/
structure CommandSet (η : Type) where
  registry : Registry
  body : Descriptor → Invocation → User → Work η Outcome

end GatedConsole
