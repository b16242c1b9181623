import GatedConsole.Keyed
import GatedConsole.Number.Binary64
import GatedConsole.Text.CodePoint

/-!
JSON documents. An object keeps its members as they stand in the text; `settled` says what they
mean when a name comes twice.
-/

set_option autoImplicit false
set_option relaxedAutoImplicit false

namespace GatedConsole

inductive Json where
  | null
  | bool (b : Bool)
  | int (i : Int)
  | float (x : Binary64)
  | text (t : Text)
  | list (items : List Json)
  | object (members : List (Text × Json))

namespace Json

instance : Inhabited Json := ⟨.null⟩

mutual

/-- The document in which every object has each name once: the first place, the last value. -/
def settled : Json → Json
  | .list items => .list (settledItems items)
  | .object members => .object (Keyed.ofEntries (settledMembers members))
  | .null => .null
  | .bool b => .bool b
  | .int i => .int i
  | .float x => .float x
  | .text t => .text t

def settledItems : List Json → List Json
  | [] => []
  | item :: items => item.settled :: settledItems items

def settledMembers : List (Text × Json) → List (Text × Json)
  | [] => []
  | (name, value) :: members => (name, value.settled) :: settledMembers members

end

end Json

end GatedConsole
