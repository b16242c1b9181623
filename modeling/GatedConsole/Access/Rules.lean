import GatedConsole.Access
import GatedConsole.Json.Shown

/-!
The access rules on values that need not be levels. Of two values the first that is none is refused.
-/

set_option autoImplicit false
set_option relaxedAutoImplicit false

namespace GatedConsole.Access

/-- A value that is no level. -/
structure Refusal where
  value : Json

def Refusal.message (r : Refusal) : Text := r.value.shown ++ " is not a valid AccessLevel"

/-- The level of a value: only the exact name of a level is one. -/
def ofValue (value : Json) : Except Refusal Access :=
  match value with
  | .text t =>
    match ofName? t with
    | some level => .ok level
    | none => .error ⟨value⟩
  | _ => .error ⟨value⟩

def rankOf (value : Json) : Except Refusal Nat := (ofValue value).map rank

def describe (value : Json) : Except Refusal Text := (ofValue value).map description

def symbolOf (value : Json) : Except Refusal Text := (ofValue value).map symbol

def check (held required : Json) : Except Refusal Bool := do
  let held ← ofValue held
  let required ← ofValue required
  pure (held.permits required)

end GatedConsole.Access
