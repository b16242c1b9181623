import GatedConsole.Json.Reader
import GatedConsole.Json.Writer
import GatedConsole.Macro.Book

/-!
The written form of a macro book: a JSON object from names to lists of commands. Reading is strict.
Anything but strings in lists in one object is refused, even under a name that comes again, and so
is every surrogate without a partner.
-/

set_option autoImplicit false
set_option relaxedAutoImplicit false

namespace GatedConsole.MacroBook

def toJson (book : MacroBook) : Json :=
  .object (book.entries.map fun (name, commands) => (name, .list (commands.map .text)))

def write (book : MacroBook) : Text := book.toJson.write

def isScalarText (t : Text) : Bool := t.all (!·.isSurrogate)

def command? : Json → Option Text
  | .text t => if isScalarText t then some t else none
  | _ => none

def commands? : Json → Option (List Text)
  | .list items => items.mapM command?
  | _ => none

def entry? (member : Text × Json) : Option (Text × List Text) :=
  if isScalarText member.1 then (commands? member.2).map (member.1, ·) else none

def ofJson? : Json → Option MacroBook
  | .object members => (members.mapM entry?).bind ofEntries?
  | _ => none

def read? (t : Text) : Option MacroBook :=
  if isScalarText t then
    match Json.read t with
    | .ok document => ofJson? document
    | .error _ => none
  else none

end GatedConsole.MacroBook
