import GatedConsole.Session.Run
import GatedConsole.Text.Quoted

/-!
Commands whose bodies are data: they pause, take steps in the session that they run in, and come to
a conclusion. A step that executes a line waits for the interpreter, which is busy with the command
itself, so such a command never ends.
-/

set_option autoImplicit false
set_option relaxedAutoImplicit false

namespace GatedConsole

inductive Conclusion where
  | result (r : Result)
  | noResult
  /-- A fault with a message, which may be shown in quotes, or without one. -/
  | fault (quote : Bool) (message : Option Text)
  | abort (message : Option Text)
  | echo

structure Script where
  pauses : Nat := 0
  steps : List Step := []
  conclusion : Conclusion

namespace Script

def flagText (flag : Text × Flag) : Text :=
  match flag.2 with
  | .switch => flag.1
  | .value t => flag.1 ++ "=" ++ t

/-- The arguments on one line and the flags, in order, on another. -/
def echoed (invocation : Invocation) : Result :=
  .ok
    [Text.join " " invocation.args,
      Text.join " " ((invocation.flags.map flagText).mergeSort Text.precedes)]

def faultText (quote : Bool) (message : Option Text) : Text :=
  match message with
  | none => []
  | some message => if quote then message.quoted else message

def conclude (invocation : Invocation) : Conclusion → Work Desk Outcome
  | .result r => .done (.result r)
  | .noResult => .done .noResult
  | .fault quote message => .done (.fault (faultText quote message))
  | .abort message => .escape (.abort (message.getD []))
  | .echo => .done (.result (echoed invocation))

/-- How a line is executed from within a command: it waits for the lock that the command's own
invocation holds. -/
def executeWithin (_ : Text) : Work Desk Result := .acquire (.done default)

def takeAside (registry : Registry) (step : Step) : Work Desk Unit := do
  let reply ← Session.work registry executeWithin step
  Program.update fun s => { s with host := { s.host with asides := s.host.asides ++ [reply] } }

def takeAsides (registry : Registry) : List Step → Work Desk Unit
  | [] => .done ()
  | step :: steps => do
    takeAside registry step
    takeAsides registry steps

def body (registry : Registry) (script : Script) (invocation : Invocation) : Work Desk Outcome := do
  Program.pauses script.pauses
  takeAsides registry script.steps
  conclude invocation script.conclusion

end Script

/-- Commands with scripts for bodies. -/
def CommandSet.ofScripts (registry : Registry) (scripts : Descriptor → Script) :
    CommandSet Desk where
  registry := registry
  body d invocation _ := (scripts d).body registry invocation

end GatedConsole
