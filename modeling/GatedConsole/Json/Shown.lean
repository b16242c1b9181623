import GatedConsole.Json.Value
import GatedConsole.Number.Shortest
import GatedConsole.Text.Quoted

/-!
Values as messages show them, on one line and with texts in quotes.
-/

set_option autoImplicit false
set_option relaxedAutoImplicit false

namespace GatedConsole.Json

mutual

def shown : Json → Text
  | .null => "None"
  | .bool true => "True"
  | .bool false => "False"
  | .int i => Text.ofInt i
  | .float x => x.text
  | .text t => t.quoted
  | .list items => "[" ++ Text.join ", " (shownItems items) ++ "]"
  | .object members => "\x7b" ++ Text.join ", " (shownMembers members) ++ "\x7d"

def shownItems : List Json → List Text
  | [] => []
  | item :: items => item.shown :: shownItems items

def shownMembers : List (Text × Json) → List Text
  | [] => []
  | (name, value) :: members => (name.quoted ++ ": " ++ value.shown) :: shownMembers members

end

end GatedConsole.Json
