import GatedConsole.Json.Value
import GatedConsole.Number.Shortest
import GatedConsole.Text.Quoted

/-!
JSON as it is written to files: two blanks for every level, a line for every item and member, and
nothing but ASCII, so that a code point above it is escaped in one unit or in two.
-/

set_option autoImplicit false
set_option relaxedAutoImplicit false

namespace GatedConsole.Json

/-- The sixteen-bit units that stand for a code point. -/
def units (c : CodePoint) : List Nat :=
  if c.val < 0x10000 then [c.val]
  else [0xD800 + (c.val - 0x10000) / 0x400, 0xDC00 + (c.val - 0x10000) % 0x400]

def escaped (c : CodePoint) : Text :=
  if c = '"' then "\\\""
  else if c = '\\' then "\\\\"
  else if c = '\n' then "\\n"
  else if c = '\r' then "\\r"
  else if c = '\t' then "\\t"
  else if c.val = 0x08 then "\\b"
  else if c.val = 0x0C then "\\f"
  else if 0x20 ≤ c.val ∧ c.val ≤ 0x7E then [c]
  else (units c).flatMap fun unit => "\\u" ++ Text.hex 4 unit

def writeText (t : Text) : Text := "\"" ++ t.flatMap escaped ++ "\""

def writeFloat : Binary64 → Text
  | .nan => "NaN"
  | .infinite negative => Binary64.sign negative ++ "Infinity"
  | .finite negative mantissa exponent => (Binary64.finite negative mantissa exponent).text

/-- The end of a line and the blanks in front of the next one. -/
def newline (level : Nat) : Text := "\n" ++ List.replicate (2 * level) (CodePoint.ofChar ' ')

mutual

def writeAt (level : Nat) : Json → Text
  | .null => "null"
  | .bool true => "true"
  | .bool false => "false"
  | .int i => Text.ofInt i
  | .float x => writeFloat x
  | .text t => writeText t
  | .list [] => "[]"
  | .list (item :: items) =>
    "[" ++ newline (level + 1) ++ writeAt (level + 1) item ++ writeItems (level + 1) items ++
      newline level ++ "]"
  | .object [] => "\x7b\x7d"
  | .object ((name, value) :: members) =>
    "\x7b" ++ newline (level + 1) ++ writeText name ++ ": " ++ writeAt (level + 1) value ++
      writeMembers (level + 1) members ++ newline level ++ "\x7d"

/-- The items behind the first one. -/
def writeItems (level : Nat) : List Json → Text
  | [] => []
  | item :: items => "," ++ newline level ++ writeAt level item ++ writeItems level items

/-- The members behind the first one. -/
def writeMembers (level : Nat) : List (Text × Json) → Text
  | [] => []
  | (name, value) :: members =>
    "," ++ newline level ++ writeText name ++ ": " ++ writeAt level value ++
      writeMembers level members

end

def write (document : Json) : Text := writeAt 0 document

end GatedConsole.Json
