import GatedConsole.Text.Utf8

/-!
File names are bytes. A text names a file through its UTF-8 bytes. A byte that is part of no code
point is written as a surrogate of its own, so that every name has a text.
-/

set_option autoImplicit false
set_option relaxedAutoImplicit false

namespace GatedConsole.Files

abbrev Name := Bytes

namespace Name

/-- Whether a code point stands for a byte of a name. -/
def isMark (c : CodePoint) : Bool := 0xDC80 ≤ c.val && c.val < 0xDD00

def markOf (b : UInt8) : CodePoint := .ofNat (0xDC00 + b.toNat)

def bytesOf (c : CodePoint) : Bytes :=
  if isMark c then [UInt8.ofNat (c.val - 0xDC00)] else Utf8.encodeOne c

/-- The name that a text gives; its surrogates have to be marks. -/
def ofText (t : Text) : Name := t.flatMap bytesOf

/-- The text of a name. -/
def text (name : Name) : Text :=
  match name with
  | [] => []
  | b :: r =>
    match Utf8.first? (b :: r) with
    | some (c, size) => c :: text (r.drop (size - 1))
    | none => markOf b :: text r
termination_by name.length
decreasing_by
  · simp only [List.length_drop, List.length_cons]
    omega
  · simp

/-- The longest name, in bytes. -/
def bound : Nat := 255

/-- The name by which every directory knows the one above it. -/
def up : Name := ofText ".."

end Name

end GatedConsole.Files
