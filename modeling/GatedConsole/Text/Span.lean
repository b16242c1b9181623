/-!
Classes of code points as lists of closed ranges.
-/

set_option autoImplicit false
set_option relaxedAutoImplicit false

namespace GatedConsole.Text

/-- A closed range of numbers. -/
structure Span where
  first : Nat
  last : Nat

def Span.holds (s : Span) (n : Nat) : Bool := s.first ≤ n && n ≤ s.last

/-- Whether the number lies in one of the ranges. -/
def inSpans (spans : List Span) (n : Nat) : Bool := spans.any (·.holds n)

end GatedConsole.Text
