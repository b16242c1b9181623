import GatedConsole.Session.Tab
import GatedConsole.Text.CellWidth

/-!
Transcript lines as styled text, and styled text as it is printed without colours.
-/

set_option autoImplicit false
set_option relaxedAutoImplicit false

namespace GatedConsole.Display

/-- The style of the text from `first` up to, and without, `last`. -/
structure StyleSpan where
  first : Nat
  last : Nat
  style : Text
deriving DecidableEq

structure Styled where
  plain : Text := []
  spans : List StyleSpan := []
deriving DecidableEq

/-- Controls that no styled text holds: bell, backspace, the vertical moves and carriage return. -/
def isDropped (c : CodePoint) : Bool := [0x07, 0x08, 0x0B, 0x0C, 0x0D].contains c.val

/-- Adds text in one style. Nothing adds no span; text that is only dropped controls adds one. -/
def Styled.add (styled : Styled) (text style : Text) : Styled :=
  if text = [] then styled
  else
    let kept := text.filter (!isDropped ·)
    let first := styled.plain.length
    ⟨styled.plain ++ kept, styled.spans ++ [⟨first, first + kept.length, style⟩]⟩

def promptStyle : Text := "medium_purple"

def styleOf : LineKind → Text
  | .command => "cyan"
  | .output => "pale_green3"
  | .error => "red1"
  | .system => "plum2"

/-- The prompt of a user, such as `[morgana@bastion]#`. -/
def prompt (user : User) : Text := "[" ++ user.username ++ "@bastion]" ++ user.access.symbol

/-- A submitted line stands behind the prompt. -/
def styledLine (user : User) (line : Line) : Styled :=
  let start : Styled :=
    if line.kind = .command then Styled.add ⟨[], []⟩ (prompt user ++ " ") promptStyle else ⟨[], []⟩
  start.add line.content (styleOf line.kind)

def tabWidth : Nat := 8

/-- The pieces between tabs, put together again. A tab becomes a blank, and blanks up to the next
multiple of eight cells; the piece before it is measured together with the first of them. -/
def joinTabs (column : Nat) : List Text → Text
  | [] => []
  | [last] => last
  | piece :: rest =>
    let piece := piece ++ Text.ofString " "
    let column := column + piece.cells
    let stop := (column + tabWidth - 1) / tabWidth * tabWidth
    piece ++ List.replicate (stop - column) (CodePoint.ofChar ' ') ++ joinTabs stop rest

/-- A line with blanks in the place of its tabs. -/
def expandTabs (line : Text) : Text := joinTabs 0 (line.splitOn '\t')

/-- What is printed for a text: each of its lines ends with a line feed. -/
def printed (t : Text) : Text :=
  (t.splitOn '\n').flatMap fun line => expandTabs line ++ Text.ofString "\n"

def printLines (user : User) (lines : List Line) : Text :=
  lines.flatMap fun line => printed (styledLine user line).plain

end GatedConsole.Display
