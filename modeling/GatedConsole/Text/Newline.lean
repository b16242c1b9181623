import GatedConsole.Text.CodePoint

/-!
Line ends of a file that is read as text: a carriage return counts as a line feed, and together with
a following line feed it counts once.
-/

set_option autoImplicit false
set_option relaxedAutoImplicit false

namespace GatedConsole.Text

def unifyNewlines : Text → Text
  | [] => []
  | c :: r =>
    if c = '\r' then
      match r with
      | [] => ['\n']
      | d :: s => if d = '\n' then '\n' :: unifyNewlines s else '\n' :: unifyNewlines (d :: s)
    else c :: unifyNewlines r

end GatedConsole.Text
