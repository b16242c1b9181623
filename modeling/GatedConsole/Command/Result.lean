import GatedConsole.Text.CodePoint

/-!
The outcome that every command, built-in command and macro has in common.
-/

set_option autoImplicit false
set_option relaxedAutoImplicit false

namespace GatedConsole

/-- A success has lines to show; a failure has one line, or none at all. -/
structure Result where
  success : Bool
  output : List Text := []
  error : Option Text := none
deriving DecidableEq

namespace Result

instance : Inhabited Result := ⟨⟨true, [], none⟩⟩

def ok (lines : List Text) : Result := ⟨true, lines, none⟩

def fail (error : Text) : Result := ⟨false, [], some error⟩

end Result

end GatedConsole
