import GatedConsole.Json.Value
import GatedConsole.Text.Numeral

/-!
Reading JSON. Beyond the standard the three words for numbers that are not finite are read, and an
escaped surrogate without its partner stands for itself. An integer of more than 4300 digits is a
fault of its own, and so is a list or an object that lies too deep for a reader with limited room;
of two faults the first in the text is reported.
-/

set_option autoImplicit false
set_option relaxedAutoImplicit false

namespace GatedConsole.Json

/-- The values that hold other values. -/
inductive Bracket where
  | list
  | object
deriving DecidableEq

def Bracket.title : Bracket → Text
  | .list => "array"
  | .object => "object"

inductive ReadFault where
  | malformed
  | tooManyDigits (count : Nat)
  | tooDeep (bracket : Bracket)
deriving DecidableEq

def ReadFault.message : ReadFault → Text
  | .malformed => "malformed document"
  | .tooManyDigits count =>
    "Exceeds the limit (" ++ Text.ofNat Text.numeralLimit ++
      " digits) for integer string conversion: value has " ++ Text.ofNat count ++
      " digits; use sys.set_int_max_str_digits() to increase the limit"
  | .tooDeep bracket =>
    "maximum recursion depth exceeded while decoding a JSON " ++ bracket.title ++
      " from a unicode string"

/-- A part of the text that has been read, and the text behind it. -/
abbrev Reading (α : Type) := Except ReadFault (α × Text)

def isSpace (c : CodePoint) : Bool := c = ' ' || c = '\t' || c = '\n' || c = '\r'

def skip (t : Text) : Text := t.dropWhile isSpace

def hexValue? (c : CodePoint) : Option Nat :=
  if c.isAsciiDigit then some (c.val - 0x30)
  else if 0x61 ≤ c.val ∧ c.val ≤ 0x66 then some (c.val - 0x61 + 10)
  else if 0x41 ≤ c.val ∧ c.val ≤ 0x46 then some (c.val - 0x41 + 10)
  else none

def unit? (a b c d : CodePoint) : Option CodePoint := do
  let a ← hexValue? a
  let b ← hexValue? b
  let c ← hexValue? c
  let d ← hexValue? d
  some (.ofNat (((a * 16 + b) * 16 + c) * 16 + d))

def shortEscape? (c : CodePoint) : Option CodePoint :=
  if c = '"' ∨ c = '\\' ∨ c = '/' then some c
  else if c = 'n' then some '\n'
  else if c = 'r' then some '\r'
  else if c = 't' then some '\t'
  else if c = 'b' then some (.ofNat 0x08)
  else if c = 'f' then some (.ofNat 0x0C)
  else none

def Reading.prepend (c : CodePoint) : Reading Text → Reading Text :=
  Except.map fun (t, rest) => (c :: t, rest)

/-- The units of a string up to its closing quote. -/
def unitsOf : Text → Reading Text
  | [] => .error .malformed
  | c :: r =>
    if c = '"' then .ok ([], r)
    else if c.val < 0x20 then .error .malformed
    else if c = '\\' then
      match r with
      | [] => .error .malformed
      | e :: r =>
        if e = 'u' then
          match r with
          | a :: b :: c :: d :: r =>
            match unit? a b c d with
            | some unit => (unitsOf r).prepend unit
            | none => .error .malformed
          | _ => .error .malformed
        else
          match shortEscape? e with
          | some c => (unitsOf r).prepend c
          | none => .error .malformed
    else (unitsOf r).prepend c

def paired (high low : CodePoint) : CodePoint :=
  .ofNat (0x10000 + (high.val - 0xD800) * 0x400 + (low.val - 0xDC00))

/-- Every high surrogate and the low one right behind it become one code point. -/
def joinPairs : Text → Text
  | [] => []
  | [c] => [c]
  | high :: low :: r =>
    if high.isHighSurrogate && low.isLowSurrogate then paired high low :: joinPairs r
    else high :: joinPairs (low :: r)

/-- The string whose opening quote has been read. -/
def readString (t : Text) : Reading Text :=
  (unitsOf t).map fun (units, rest) => (joinPairs units, rest)

def asciiValue (digits : Text) : Nat := Text.ofDigits (digits.map (·.val - 0x30))

/-- The digits before the point: a zero stands alone. -/
def wholePart (t : Text) : Text :=
  match t.takeWhile CodePoint.isAsciiDigit with
  | [] => []
  | c :: digits => if c = '0' then [c] else c :: digits

/-- A point and the digits behind it, if there are any. -/
def fractionPart (t : Text) : Text × Text :=
  match t with
  | c :: r =>
    let digits := r.takeWhile CodePoint.isAsciiDigit
    if c = '.' ∧ digits ≠ [] then (digits, r.drop digits.length) else ([], t)
  | [] => ([], [])

/-- The power of ten behind a number, if there is one. -/
def exponentPart? (t : Text) : Option (Int × Text) :=
  match t with
  | [] => none
  | mark :: r =>
    if mark = 'e' ∨ mark = 'E' then
      let (negative, r) :=
        match r with
        | c :: s => if c = '-' then (true, s) else if c = '+' then (false, s) else (false, r)
        | [] => (false, [])
      let digits := r.takeWhile CodePoint.isAsciiDigit
      if digits = [] then none
      else
        let n : Int := asciiValue digits
        some (if negative then -n else n, r.drop digits.length)
    else none

/-- A number whose sign has been read. -/
def readNumber (negative : Bool) (t : Text) : Reading Json :=
  let whole := wholePart t
  if whole = [] then .error .malformed
  else
    let (fraction, r) := fractionPart (t.drop whole.length)
    let float (exponent : Int) : Json :=
      .float (.ofDecimal negative (asciiValue (whole ++ fraction)) (exponent - fraction.length))
    match exponentPart? r with
    | some (exponent, r) => .ok (float exponent, r)
    | none =>
      if fraction ≠ [] then .ok (float 0, r)
      else if whole.length > Text.numeralLimit then .error (.tooManyDigits whole.length)
      else .ok (.int (if negative then -asciiValue whole else asciiValue whole), r)

def wordsForValues : List (Text × Json) :=
  [("null", .null), ("true", .bool true), ("false", .bool false), ("NaN", .float .nan),
    ("Infinity", .float (.infinite false)), ("-Infinity", .float (.infinite true))]

/-- A value that is neither a string nor a list nor an object. -/
def readScalar (t : Text) : Reading Json :=
  match wordsForValues.findSome? fun (word, value) => (t.behind? word).map (value, ·) with
  | some reading => .ok reading
  | none =>
    match t with
    | c :: r => if c = '-' then readNumber true r else readNumber false t
    | [] => .error .malformed

mutual

/-- The value that the text begins with; lists and objects may be nested `room` deep. The fuel
bounds the nesting and the items together. -/
def readValue : Nat → Nat → Text → Except ReadFault (Json × Text)
  | 0, _, _ => .error .malformed
  | _ + 1, _, [] => .error .malformed
  | fuel + 1, room, c :: r =>
    if c = '"' then (readString r).map fun (t, rest) => (.text t, rest)
    else if c = '[' then
      match room with
      | 0 => .error (.tooDeep .list)
      | room + 1 =>
        match skip r with
        | d :: s =>
          if d = ']' then .ok (.list [], s)
          else (readItems fuel room (d :: s)).map fun (items, rest) => (.list items, rest)
        | [] => .error .malformed
    else if c = '\x7b' then
      match room with
      | 0 => .error (.tooDeep .object)
      | room + 1 =>
        match skip r with
        | d :: s =>
          if d = '\x7d' then .ok (.object [], s)
          else (readMembers fuel room (d :: s)).map fun (members, rest) => (.object members, rest)
        | [] => .error .malformed
    else readScalar (c :: r)

/-- The items up to the closing bracket; there is at least one. -/
def readItems : Nat → Nat → Text → Except ReadFault (List Json × Text)
  | 0, _, _ => .error .malformed
  | fuel + 1, room, t => do
    let (item, r) ← readValue fuel room t
    match skip r with
    | c :: s =>
      if c = ',' then (readItems fuel room (skip s)).map fun (items, rest) => (item :: items, rest)
      else if c = ']' then .ok ([item], s)
      else .error .malformed
    | [] => .error .malformed

/-- The members up to the closing brace; there is at least one. -/
def readMembers : Nat → Nat → Text → Except ReadFault (List (Text × Json) × Text)
  | 0, _, _ => .error .malformed
  | _ + 1, _, [] => .error .malformed
  | fuel + 1, room, quote :: t => do
    if quote ≠ '"' then .error .malformed
    let (name, r) ← readString t
    match skip r with
    | colon :: s =>
      if colon ≠ ':' then .error .malformed
      let (value, r) ← readValue fuel room (skip s)
      match skip r with
      | c :: s =>
        if c = ',' then
          (readMembers fuel room (skip s)).map fun (members, rest) =>
            ((name, value) :: members, rest)
        else if c = '\x7d' then .ok ([(name, value)], s)
        else .error .malformed
      | [] => .error .malformed
    | [] => .error .malformed

end

/-- The document that the whole text is, nested at most `room` deep. -/
def readWithin (room : Nat) (t : Text) : Except ReadFault Json := do
  let (value, rest) ← readValue (2 * t.length + 2) room (skip t)
  if skip rest = [] then .ok value else .error .malformed

/-- The document that the whole text is. Its length is room enough for every nesting. -/
def read (t : Text) : Except ReadFault Json := readWithin t.length t

end GatedConsole.Json
