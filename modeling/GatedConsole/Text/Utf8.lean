import GatedConsole.Text.Quoted

/-!
UTF-8. Decoding accepts exactly the shortest forms of scalar values and says where and why it
stops; encoding refuses surrogates.
-/

set_option autoImplicit false
set_option relaxedAutoImplicit false

namespace GatedConsole

abbrev Bytes := List UInt8

namespace Utf8

/-- Why a sequence of bytes is no encoded code point. -/
inductive Flaw where
  | start
  | continuation
  | ended
deriving DecidableEq

def Flaw.message : Flaw → Text
  | .start => "invalid start byte"
  | .continuation => "invalid continuation byte"
  | .ended => "unexpected end of data"

/-- The bytes that could not be decoded, and the position of the first of them. -/
structure DecodeFault where
  flaw : Flaw
  position : Nat
  bytes : Bytes
deriving DecidableEq

def range (position count : Nat) : Text :=
  Text.ofNat position ++ "-" ++ Text.ofNat (position + count - 1)

def DecodeFault.message (f : DecodeFault) : Text :=
  match f.bytes with
  | [b] =>
    "'utf-8' codec can't decode byte 0x" ++ Text.hex 2 b.toNat ++ " in position " ++
      Text.ofNat f.position ++ ": " ++ f.flaw.message
  | bytes =>
    "'utf-8' codec can't decode bytes in position " ++ range f.position bytes.length ++ ": " ++
      f.flaw.message

def isContinuation (b : UInt8) : Bool := 0x80 ≤ b.toNat && b.toNat < 0xC0

/-- Whether `second` may follow `first`: this bars long forms, surrogates and what lies above. -/
def maySecond (first second : UInt8) : Bool :=
  isContinuation second &&
    !(first = 0xE0 && second.toNat < 0xA0) && !(first = 0xED && 0xA0 ≤ second.toNat) &&
    !(first = 0xF0 && second.toNat < 0x90) && !(first = 0xF4 && 0x90 ≤ second.toNat)

def payload (b : UInt8) : Nat := b.toNat % 64

def two (a b : UInt8) : CodePoint := .ofNat (a.toNat % 32 * 64 + payload b)

def three (a b c : UInt8) : CodePoint := .ofNat (a.toNat % 16 * 4096 + payload b * 64 + payload c)

def four (a b c d : UInt8) : CodePoint :=
  .ofNat (a.toNat % 8 * 262144 + payload b * 4096 + payload c * 64 + payload d)

/-- Decodes the bytes that start at `position`. -/
def decodeFrom (position : Nat) : Bytes → Except DecodeFault Text
  | [] => .ok []
  | a :: r =>
    if a.toNat < 0x80 then (decodeFrom (position + 1) r).map (.ofNat a.toNat :: ·)
    else if a.toNat < 0xC2 ∨ 0xF5 ≤ a.toNat then .error ⟨.start, position, [a]⟩
    else
      match r with
      | [] => .error ⟨.ended, position, [a]⟩
      | b :: r =>
        if !maySecond a b then .error ⟨.continuation, position, [a]⟩
        else if a.toNat < 0xE0 then (decodeFrom (position + 2) r).map (two a b :: ·)
        else
          match r with
          | [] => .error ⟨.ended, position, [a, b]⟩
          | c :: r =>
            if !isContinuation c then .error ⟨.continuation, position, [a, b]⟩
            else if a.toNat < 0xF0 then (decodeFrom (position + 3) r).map (three a b c :: ·)
            else
              match r with
              | [] => .error ⟨.ended, position, [a, b, c]⟩
              | d :: r =>
                if !isContinuation d then .error ⟨.continuation, position, [a, b, c]⟩
                else (decodeFrom (position + 4) r).map (four a b c d :: ·)

def decode (bytes : Bytes) : Except DecodeFault Text := decodeFrom 0 bytes

/-- The code point that the bytes begin with, and how many of them it takes. -/
def first? (bytes : Bytes) : Option (CodePoint × Nat) :=
  [1, 2, 3, 4].findSome? fun size =>
    match decode (bytes.take size) with
    | .ok [c] => some (c, size)
    | _ => none

/-- A run of surrogates, and the position of the first of them. -/
structure EncodeFault where
  position : Nat
  run : Text
deriving DecidableEq

def EncodeFault.message (f : EncodeFault) : Text :=
  match f.run with
  | [c] =>
    "'utf-8' codec can't encode character '" ++ Text.numericEscape c ++ "' in position " ++
      Text.ofNat f.position ++ ": surrogates not allowed"
  | run =>
    "'utf-8' codec can't encode characters in position " ++ range f.position run.length ++
      ": surrogates not allowed"

def encodeOne (c : CodePoint) : Bytes :=
  let byte (n : Nat) : UInt8 := UInt8.ofNat n
  if c.val < 0x80 then [byte c.val]
  else if c.val < 0x800 then [byte (0xC0 + c.val / 64), byte (0x80 + c.val % 64)]
  else if c.val < 0x10000 then
    [byte (0xE0 + c.val / 4096), byte (0x80 + c.val / 64 % 64), byte (0x80 + c.val % 64)]
  else
    [byte (0xF0 + c.val / 262144), byte (0x80 + c.val / 4096 % 64), byte (0x80 + c.val / 64 % 64),
      byte (0x80 + c.val % 64)]

/-- The first surrogate that is not forgiven, with those right behind it, in a text that starts at
`position`. -/
def faultFrom (forgiven : CodePoint → Bool) (position : Nat) : Text → Option EncodeFault
  | [] => none
  | c :: r =>
    if c.isSurrogate && !forgiven c then some ⟨position, c :: r.takeWhile (·.isSurrogate)⟩
    else faultFrom forgiven (position + 1) r

/-- The first run of surrogates in a text. -/
def firstFault? (t : Text) : Option EncodeFault := faultFrom (fun _ => false) 0 t

def encode (t : Text) : Except EncodeFault Bytes :=
  match firstFault? t with
  | some fault => .error fault
  | none => .ok (t.flatMap encodeOne)

end Utf8

end GatedConsole
