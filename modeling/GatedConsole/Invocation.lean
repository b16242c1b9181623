import GatedConsole.Keyed
import GatedConsole.Text.Blank

/-!
A line as the invocation of a command: its first word names the command, and the others are
arguments and flags. Nothing quotes or escapes a blank.
-/

set_option autoImplicit false
set_option relaxedAutoImplicit false

namespace GatedConsole

/-- A flag is a bare switch or carries a value that is not empty. -/
inductive Flag where
  | switch
  | value (t : Text)
deriving DecidableEq

/-- A switch is on; the value behind an equals sign is never empty, so it is on as well. -/
def Flag.isOn : Flag → Bool
  | .switch => true
  | .value t => t ≠ []

structure Invocation where
  command : Text
  args : List Text
  flags : Keyed Text Flag
deriving DecidableEq

namespace Invocation

inductive Word where
  | arg (t : Text)
  | flag (key : Text) (flag : Flag)
deriving DecidableEq

/-- Two dashes introduce a flag that may have a value; with nothing behind its equals sign, and
always behind a single dash, it is a switch. -/
def Word.of (word : Text) : Word :=
  match word.behind? "--" with
  | some body =>
    match body.cut '=' with
    | (key, some (c :: r)) => .flag key (.value (c :: r))
    | (key, _) => .flag key .switch
  | none =>
    match word.behind? "-" with
    | some key => .flag key .switch
    | none => .arg word

def Word.arg? : Word → Option Text
  | .arg t => some t
  | .flag _ _ => none

def Word.flag? : Word → Option (Text × Flag)
  | .arg _ => none
  | .flag key value => some (key, value)

/-- A flag that comes twice has the last value in the first place. -/
def ofWords (command : Text) (words : List Text) : Invocation where
  command := command
  args := (words.map Word.of).filterMap Word.arg?
  flags := Keyed.ofEntries ((words.map Word.of).filterMap Word.flag?)

/-- What is said of a line that is no invocation. -/
def blankLine : Text := "cannot tokenize a blank line"

/-- The invocation that a line is; a blank line is none. -/
def ofLine? (line : Text) : Option Invocation :=
  match line.words with
  | [] => none
  | command :: words => some (ofWords command words)

end Invocation

end GatedConsole
