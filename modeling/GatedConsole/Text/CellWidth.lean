import GatedConsole.Text.CellWidth.Table
import GatedConsole.Text.CodePoint

/-!
Terminal cells. A code point takes none, one or two, and in a text two of them reach further: what
stands behind a joiner takes no cell, and the emoji selector widens the sign before it. Main
statement: without those two, the cells of a text are the sum over its code points.
-/

set_option autoImplicit false
set_option relaxedAutoImplicit false

namespace GatedConsole

namespace CodePoint

def cells (c : CodePoint) : Nat :=
  if Text.inSpans Text.zeroCells c.val then 0
  else if Text.inSpans Text.twoCells c.val then 2
  else 1

def isWidened (c : CodePoint) : Bool := Text.inSpans Text.widened c.val

def joiner : CodePoint := '\u200D'

/-- Asks for the picture of the sign before it. -/
def emojiSelector : CodePoint := '\uFE0F'

end CodePoint

namespace Text

/-- The cells from here on, `last` being the sign that a selector would widen. -/
def cellsAfter (last : Option CodePoint) : Text → Nat
  | [] => 0
  | [c] =>
    if c = CodePoint.joiner then 0
    else if c = CodePoint.emojiSelector then if last.any (·.isWidened) then 1 else 0
    else c.cells
  | c :: d :: r =>
    if c = CodePoint.joiner then cellsAfter last r
    else if c = CodePoint.emojiSelector then
      (if last.any (·.isWidened) then 1 else 0) + cellsAfter none (d :: r)
    else c.cells + cellsAfter (if c.cells = 0 then last else some c) (d :: r)

def cells (t : Text) : Nat := cellsAfter none t

theorem cellsAfter_eq_foldr {t : Text} (last : Option CodePoint)
    (h : ∀ c ∈ t, c ≠ CodePoint.joiner ∧ c ≠ CodePoint.emojiSelector) :
    cellsAfter last t = t.foldr (fun c n => c.cells + n) 0 := by
  fun_induction cellsAfter last t <;> simp_all

theorem cells_eq_foldr {t : Text}
    (h : ∀ c ∈ t, c ≠ CodePoint.joiner ∧ c ≠ CodePoint.emojiSelector) :
    t.cells = t.foldr (fun c n => c.cells + n) 0 :=
  cellsAfter_eq_foldr none h

end Text

end GatedConsole
