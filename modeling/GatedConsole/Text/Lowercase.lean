import GatedConsole.Text.Lowercase.Table

/-!
Lower case of whole texts. Two letters need more than a table: the dotted capital I becomes two
code points, and a capital sigma takes its final form at the end of a word.
-/

set_option autoImplicit false
set_option relaxedAutoImplicit false

namespace GatedConsole

namespace CodePoint

/-- The lower-case letter of a letter, where that hangs neither on context nor on length. -/
def lowerAlone (c : CodePoint) : CodePoint :=
  match Text.Lowercase.shifts.find? (·.holds c.val) with
  | some shift => ofNat (c.val + shift.delta).toNat
  | none => c

def isTransparent (c : CodePoint) : Bool := Text.inSpans Text.Lowercase.transparent c.val

def isCased (c : CodePoint) : Bool := Text.inSpans Text.Lowercase.cased c.val

end CodePoint

namespace Text

/-- Whether a letter with case comes first, marks and signs between letters being skipped. -/
def meetsLetter (t : Text) : Bool :=
  match t.dropWhile CodePoint.isTransparent with
  | [] => false
  | c :: _ => c.isCased

/-- The lower case of one code point; `before` runs backwards from it and `after` forwards. -/
def lowerBetween (before after : Text) (c : CodePoint) : Text :=
  if c = 'Σ' then
    if meetsLetter before && !meetsLetter after then ['ς'] else ['σ']
  else if c = 'İ' then ['i', '\u0307']
  else [c.lowerAlone]

def lowerFrom (before : Text) : Text → Text
  | [] => []
  | c :: r => lowerBetween before r c ++ lowerFrom (c :: before) r

def lower (t : Text) : Text := lowerFrom [] t

end Text

end GatedConsole
