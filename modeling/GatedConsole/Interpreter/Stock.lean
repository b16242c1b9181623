import GatedConsole.Command.Stock
import GatedConsole.Interpreter.Memory

/-!
The stock commands as commands to dispatch to: each ends at once with its result.
-/

set_option autoImplicit false
set_option relaxedAutoImplicit false

namespace GatedConsole

/-- The stock commands, at the time `now`. -/
def CommandSet.stock {η : Type} (now : Moment) : CommandSet η where
  registry := Stock.registry
  body d invocation user :=
    match Stock.ofDescriptor? d with
    | some command => .done (.result (command.run now invocation user))
    | none => .done .noResult

end GatedConsole
