/-!
Text as a sequence of code points.

A code point is any number below `0x110000`, so the surrogates are included: a typed line, a macro
name or an escaped string can hold one, and no character of the language can. Lengths, columns and
cursor positions count code points.
-/

set_option autoImplicit false
set_option relaxedAutoImplicit false

namespace GatedConsole

structure CodePoint where
  val : Nat
  lt_bound : val < 0x110000
deriving DecidableEq

namespace CodePoint

private theorem toNat_lt_bound (c : Char) : c.toNat < 0x110000 := by
  have valid := c.valid
  simp only [UInt32.isValidChar, Nat.isValidChar] at valid
  simp only [Char.toNat]
  omega

def ofChar (c : Char) : CodePoint := ⟨c.toNat, toNat_lt_bound c⟩

instance : Coe Char CodePoint := ⟨ofChar⟩

instance : Inhabited CodePoint := ⟨' '⟩

/-- The code point of a number; a number out of range is read as the replacement character. -/
def ofNat (n : Nat) : CodePoint :=
  if h : n < 0x110000 then ⟨n, h⟩ else ⟨0xFFFD, by decide⟩

def isHighSurrogate (c : CodePoint) : Bool := 0xD800 ≤ c.val && c.val < 0xDC00

def isLowSurrogate (c : CodePoint) : Bool := 0xDC00 ≤ c.val && c.val < 0xE000

/-- Surrogates are the code points that no encoding form of text can carry. -/
def isSurrogate (c : CodePoint) : Bool := 0xD800 ≤ c.val && c.val < 0xE000

/-- The character of a code point; a surrogate has none. -/
def toChar? (c : CodePoint) : Option Char :=
  if h : c.val.isValidChar then some (Char.ofNatAux c.val h) else none

def isAsciiDigit (c : CodePoint) : Bool := 0x30 ≤ c.val && c.val ≤ 0x39

/-- Upper case in the ASCII range; every other code point stays. -/
def upperAscii (c : CodePoint) : CodePoint :=
  if 0x61 ≤ c.val ∧ c.val ≤ 0x7A then ofNat (c.val - 0x20) else c

theorem ext_val {a b : CodePoint} (h : a.val = b.val) : a = b := by
  cases a
  cases b
  simp_all

@[simp] theorem val_ofChar (c : Char) : (ofChar c).val = c.toNat := rfl

theorem val_ofNat {n : Nat} (h : n < 0x110000) : (ofNat n).val = n := by simp [ofNat, h]

@[simp] theorem ofNat_val (c : CodePoint) : ofNat c.val = c := by simp [ofNat, c.lt_bound]

end CodePoint

abbrev Text := List CodePoint

namespace Text

def ofString (s : String) : Text := s.toList.map CodePoint.ofChar

instance : Coe String Text := ⟨ofString⟩

/-- The decimal digits of a number. -/
def ofNat (n : Nat) : Text := (Nat.toDigits 10 n).map CodePoint.ofChar

def ofInt (i : Int) : Text := if i < 0 then "-" ++ ofNat i.natAbs else ofNat i.natAbs

/-- The pieces in order, with `separator` between neighbours. -/
def join (separator : Text) (pieces : List Text) : Text := (pieces.intersperse separator).flatten

def upperAscii (t : Text) : Text := t.map CodePoint.upperAscii

/-- At least `width` code points: spaces fill up on the right. -/
def padRight (width : Nat) (t : Text) : Text :=
  t ++ List.replicate (width - t.length) (CodePoint.ofChar ' ')

/-- At least `width` code points: spaces fill up on the left. -/
def padLeft (width : Nat) (t : Text) : Text :=
  List.replicate (width - t.length) (CodePoint.ofChar ' ') ++ t

/-- The rest of `t` behind `mark`, if `t` begins with it. -/
def behind? (t mark : Text) : Option Text :=
  if mark.isPrefixOf t then some (t.drop mark.length) else none

/-- Whether `part` stands somewhere in the text, in the very same letters. -/
def contains (t part : Text) : Bool :=
  match t with
  | [] => part.isEmpty
  | _ :: r => part.isPrefixOf t || contains r part

/-- Lexicographic order by code point. -/
def precedes : Text → Text → Bool
  | [], _ => true
  | _ :: _, [] => false
  | a :: r, b :: s => a.val < b.val || (a.val == b.val && precedes r s)

/-- The pieces between the occurrences of `mark`; there is one more piece than occurrences. -/
def splitOn (mark : CodePoint) : Text → List Text
  | [] => [[]]
  | c :: r =>
    match splitOn mark r with
    | [] => [[c]]
    | piece :: pieces => if c = mark then [] :: piece :: pieces else (c :: piece) :: pieces

/-- The part before the first `mark` and, if there is one, the part behind it. -/
def cut (mark : CodePoint) : Text → Text × Option Text
  | [] => ([], none)
  | c :: r =>
    if c = mark then ([], some r)
    else let (before, after) := cut mark r; (c :: before, after)

/-- The string of a text, a surrogate being shown as the replacement character. -/
def toString (t : Text) : String := String.ofList (t.map fun c => (c.toChar?).getD '\uFFFD')

end Text

end GatedConsole
