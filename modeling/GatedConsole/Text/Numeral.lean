import GatedConsole.Text.Digit

/-!
Whole numbers as people type them: an optional sign, then decimal digits of any script, with single
low lines allowed between two digits. A numeral has at most 4300 digits.
-/

set_option autoImplicit false
set_option relaxedAutoImplicit false

namespace GatedConsole.Text

/-- The number of digits beyond which a numeral is refused. -/
def numeralLimit : Nat := 4300

def numeralDigits? : Text → Option (List Nat)
  | [] => none
  | [c] => c.digit?.map ([·])
  | c :: d :: r => do
    let value ← c.digit?
    let rest ← if d = '_' then numeralDigits? r else numeralDigits? (d :: r)
    pure (value :: rest)

def ofDigits (digits : List Nat) : Nat := digits.foldl (fun n d => 10 * n + d) 0

def natural? (t : Text) : Option Nat := do
  let digits ← numeralDigits? t
  if digits.length ≤ numeralLimit then some (ofDigits digits) else none

/-- The number that the text denotes, if it is a numeral. -/
def integer? : Text → Option Int
  | [] => none
  | c :: r =>
    if c = '-' then (natural? r).map (-Int.ofNat ·)
    else if c = '+' then (natural? r).map Int.ofNat
    else (natural? (c :: r)).map Int.ofNat

end GatedConsole.Text
