import GatedConsole.Access.Rules
import GatedConsole.Command.Registry

/-!
What a registry shows to a value that need not be a level. Each command asks for itself, so that a
registry without commands refuses nothing.
-/

set_option autoImplicit false
set_option relaxedAutoImplicit false

namespace GatedConsole.Registry

/-- The commands that a value may run as a level, in order. -/
def visibleTo (registry : Registry) (held : Json) : Except Access.Refusal (List Descriptor) :=
  registry.commands.filterM fun d => Access.check held (.text d.access.name)

/-- The names and aliases that a value may run as a level, in order. -/
def visibleIdentifiersTo (registry : Registry) (held : Json) : Except Access.Refusal (List Text) :=
  (registry.visibleTo held).map identifiersOf

end GatedConsole.Registry
