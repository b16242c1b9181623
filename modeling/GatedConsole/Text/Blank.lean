import GatedConsole.Text.CodePoint
import GatedConsole.Text.Span

/-!
Blank code points, and what they do to a line: they are stripped from its ends and they separate
its words, of which there are none exactly when nothing else is in the line.
-/

set_option autoImplicit false
set_option relaxedAutoImplicit false

namespace GatedConsole

def Text.blanks : List Text.Span :=
  [⟨0x09, 0x0D⟩, ⟨0x1C, 0x20⟩, ⟨0x85, 0x85⟩, ⟨0xA0, 0xA0⟩, ⟨0x1680, 0x1680⟩, ⟨0x2000, 0x200A⟩,
    ⟨0x2028, 0x2029⟩, ⟨0x202F, 0x202F⟩, ⟨0x205F, 0x205F⟩, ⟨0x3000, 0x3000⟩]

def CodePoint.isBlank (c : CodePoint) : Bool := Text.inSpans Text.blanks c.val

namespace Text

def stripLeft (t : Text) : Text := t.dropWhile CodePoint.isBlank

def stripRight (t : Text) : Text := (t.reverse.dropWhile CodePoint.isBlank).reverse

/-- The text without the blanks at its two ends. -/
def strip (t : Text) : Text := stripRight (stripLeft t)

/-- A word in front of other words; an empty one does not count. -/
def addWord (word : Text) (words : List Text) : List Text :=
  if word = [] then words else word :: words

/-- The word that the text starts in the middle of, and the words behind it. -/
def wordsFrom : Text → Text × List Text
  | [] => ([], [])
  | c :: r =>
    let (word, words) := wordsFrom r
    if c.isBlank then ([], addWord word words) else (c :: word, words)

/-- The longest pieces without a blank, in order. -/
def words (t : Text) : List Text := addWord (wordsFrom t).1 (wordsFrom t).2

theorem words_cons_blank {c : CodePoint} (h : c.isBlank) (t : Text) : words (c :: t) = words t := by
  simp [words, wordsFrom, h, addWord]

theorem words_eq_nil_iff (t : Text) : words t = [] ↔ ∀ c ∈ t, c.isBlank := by
  induction t with
  | nil => simp [words, wordsFrom, addWord]
  | cons c r ih =>
    by_cases h : c.isBlank
    · simp [words_cons_blank h, ih, h]
    · simp [words, wordsFrom, addWord, h]

end Text

end GatedConsole
