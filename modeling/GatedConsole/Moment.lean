import GatedConsole.Text.CodePoint

/-!
Moments on the calendar and the clock, and how they are written.
-/

set_option autoImplicit false
set_option relaxedAutoImplicit false

namespace GatedConsole

/-- A moment to the second. -/
structure Moment where
  year : Nat
  month : Nat
  day : Nat
  hour : Nat
  minute : Nat
  second : Nat
deriving DecidableEq

namespace Moment

def twoDigits (n : Nat) : Text := if n < 10 then "0" ++ Text.ofNat n else Text.ofNat n

def date (m : Moment) : Text :=
  Text.join "-" [Text.ofNat m.year, twoDigits m.month, twoDigits m.day]

def time (m : Moment) : Text :=
  Text.join ":" [twoDigits m.hour, twoDigits m.minute, twoDigits m.second]

/-- Date and time of day; the year has as many digits as it needs, every other part has two. -/
def text (m : Moment) : Text := m.date ++ " " ++ m.time

end Moment

end GatedConsole
