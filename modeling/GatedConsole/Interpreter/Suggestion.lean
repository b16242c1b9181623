import GatedConsole.Interpreter.Memory
import GatedConsole.Text.Lowercase

/-!
What a user could type, and which of it contains a fragment, in any case of letters.
-/

set_option autoImplicit false
set_option relaxedAutoImplicit false

namespace GatedConsole

namespace Interpreter

/-- In front of a name, this calls the macro of that name. -/
def macroMark : Text := "macro."

def defineWord : Text := "define.macro"

def historyWord : Text := "history"

def clearWord : Text := "clear"

def macrosWord : Text := "macros"

/-- The built-in commands that are offered. -/
def builtinWords : List Text := [historyWord, clearWord, macrosWord]

/-- Everything the user could type, in the order of display. -/
def candidates (registry : Registry) (user : User) (book : MacroBook) : List Text :=
  registry.visibleIdentifiers user.access ++ builtinWords ++ book.names.map (macroMark ++ ·)

/-- How many suggestions there are at most. -/
def suggestionBound : Nat := 5

/-- Goes through the names and takes those that match and have not been seen, up to `room`. -/
def collect (isMatch : Text → Bool) : (room : Nat) → (seen names : List Text) → List Text
  | 0, _, _ => []
  | _ + 1, _, [] => []
  | room + 1, seen, name :: names =>
    if seen.contains name || !isMatch name then collect isMatch (room + 1) seen names
    else name :: collect isMatch room (name :: seen) names

/-- The first candidates that contain the fragment, letters in any case. -/
def suggestions (registry : Registry) (user : User) (book : MacroBook) (fragment : Text) :
    List Text :=
  collect (fun name => name.lower.contains fragment.lower) suggestionBound []
    (candidates registry user book)

end Interpreter

end GatedConsole
