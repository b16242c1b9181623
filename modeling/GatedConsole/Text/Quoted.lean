import GatedConsole.Text.Printable

/-!
Quoted text for messages: on one line, between quotes, with escapes for what cannot be seen.
-/

set_option autoImplicit false
set_option relaxedAutoImplicit false

namespace GatedConsole.Text

def hexDigit (n : Nat) : CodePoint := CodePoint.ofChar (Nat.digitChar (n % 16))

/-- The last `width` hexadecimal digits of a number, in lower case. -/
def hex : Nat → Nat → Text
  | 0, _ => []
  | width + 1, n => hex width (n / 16) ++ [hexDigit n]

/-- The numeric escape of a code point, two, four or eight digits wide. -/
def numericEscape (c : CodePoint) : Text :=
  if c.val ≤ 0xFF then "\\x" ++ hex 2 c.val
  else if c.val ≤ 0xFFFF then "\\u" ++ hex 4 c.val
  else "\\U" ++ hex 8 c.val

def quotedOne (quote c : CodePoint) : Text :=
  if c = quote ∨ c = '\\' then ['\\', c]
  else if c = '\t' then "\\t"
  else if c = '\n' then "\\n"
  else if c = '\r' then "\\r"
  else if c.isPrintable then [c]
  else numericEscape c

/-- Single quotes are chosen unless the text holds some and no double ones. -/
def quoteFor (t : Text) : CodePoint :=
  if t.any (· = '\'') && !t.any (· = '"') then '"' else '\''

def quoted (t : Text) : Text :=
  quoteFor t :: t.flatMap (quotedOne (quoteFor t)) ++ [quoteFor t]

end GatedConsole.Text
