import GatedConsole.Number.Binary64
import GatedConsole.Text.CodePoint

/-!
The shortest decimal that reads back as the same binary number, the nearest one of those.

The reals that round to `m * 2 ^ e` form an interval around it, which holds its ends exactly when
`m` is even. For one, two, and up to seventeen digits the two neighbours of the number on that
decimal grid are tried; the first grid with a hit wins.
-/

set_option autoImplicit false
set_option relaxedAutoImplicit false

namespace GatedConsole.Binary64

/-- A positive ratio of naturals. -/
structure Ratio where
  num : Nat
  den : Nat

def Ratio.le (a b : Ratio) : Bool := a.num * b.den ≤ b.num * a.den

def Ratio.lt (a b : Ratio) : Bool := a.num * b.den < b.num * a.den

/-- `n * 2 ^ exponent` -/
def Ratio.binary (n : Nat) (exponent : Int) : Ratio :=
  if exponent < 0 then ⟨n, Nat.pow 2 exponent.natAbs⟩ else ⟨n * Nat.pow 2 exponent.natAbs, 1⟩

/-- `n * 10 ^ exponent` -/
def Ratio.decimal (n : Nat) (exponent : Int) : Ratio :=
  if exponent < 0 then ⟨n, Nat.pow 10 exponent.natAbs⟩ else ⟨n * Nat.pow 10 exponent.natAbs, 1⟩

/-- The reals that round to a number. -/
structure Interval where
  low : Ratio
  high : Ratio
  closed : Bool

def Interval.holds (i : Interval) (r : Ratio) : Bool :=
  if i.closed then i.low.le r && r.le i.high else i.low.lt r && r.lt i.high

/-- Below a power of two the neighbours lie half as far apart as above it. -/
def roundingInterval (mantissa : Nat) (exponent : Int) : Interval :=
  let below := if mantissa = Nat.pow 2 52 ∧ exponent > minExponent then 1 else 2
  ⟨.binary (4 * mantissa - below) (exponent - 2), .binary (4 * mantissa + 2) (exponent - 2),
    mantissa % 2 = 0⟩

/-- The exponent `k` with `10 ^ (k - 1) ≤ r < 10 ^ k`, for a ratio not below `10 ^ -400`. -/
def decimalExponent (r : Ratio) : Int :=
  ((Nat.toDigits 10 (r.num * Nat.pow 10 400 / r.den)).length : Int) - 400

/-- `r / 10 ^ exponent`, rounded down. -/
def gridFloor (r : Ratio) (exponent : Int) : Nat :=
  if exponent < 0 then r.num * Nat.pow 10 exponent.natAbs / r.den
  else r.num / (r.den * Nat.pow 10 exponent.natAbs)

/-- Whether `n` is nearer to `r / 10 ^ exponent` than `n + 1` is; of a tie the even one is
nearer. -/
def lowerIsNearer (r : Ratio) (exponent : Int) (n : Nat) : Bool :=
  let middle : Ratio := .decimal (10 * n + 5) (exponent - 1)
  r.lt middle || (r.le middle && n % 2 = 0)

/-- The neighbour of `r` on the grid of `10 ^ exponent` that lies in the interval, if one does. -/
def onGrid? (i : Interval) (r : Ratio) (exponent : Int) : Option Nat :=
  let n := gridFloor r exponent
  match i.holds (.decimal n exponent), i.holds (.decimal (n + 1) exponent) with
  | true, true => some (if lowerIsNearer r exponent n then n else n + 1)
  | true, false => some n
  | false, true => some (n + 1)
  | false, false => none

/-- Digits, and the power of ten that the last of them counts. -/
structure Decimal where
  digits : List Char
  exponent : Int

def Decimal.ofNat (n : Nat) (exponent : Int) : Decimal :=
  let digits := Nat.toDigits 10 n
  let zeros := (digits.reverse.takeWhile (· = '0')).length
  ⟨digits.take (digits.length - zeros), exponent + zeros⟩

def shortest (mantissa : Nat) (exponent : Int) : Decimal :=
  let r := Ratio.binary mantissa exponent
  let i := roundingInterval mantissa exponent
  let k := decimalExponent r
  let grids := (List.range 17).map fun (n : Nat) => k - (n : Int) - 1
  match grids.findSome? fun e => (onGrid? i r e).map (Decimal.ofNat · e) with
  | some decimal => decimal
  | none => Decimal.ofNat (gridFloor r (k - 17)) (k - 17)

/-- Positional from `0.0001` up to below `10 ^ 16`, with a digit on each side of the point; with an
exponent of at least two digits otherwise. -/
def Decimal.text (d : Decimal) : Text :=
  let count : Int := d.digits.length
  let point := count + d.exponent
  let digits : Text := d.digits.map CodePoint.ofChar
  let zeros (n : Int) : Text := List.replicate n.toNat (CodePoint.ofChar '0')
  if -4 < point ∧ point ≤ 16 then
    if point ≤ 0 then "0." ++ zeros (-point) ++ digits
    else if count ≤ point then digits ++ zeros (point - count) ++ ".0"
    else digits.take point.toNat ++ "." ++ digits.drop point.toNat
  else
    let tens := point - 1
    let power := Text.ofNat tens.natAbs
    let fraction : Text := if count = 1 then [] else "." ++ digits.drop 1
    digits.take 1 ++ fraction ++ "e" ++ (if tens < 0 then "-" else "+") ++
      zeros (2 - (power.length : Int)) ++ power

def sign (negative : Bool) : Text := if negative then "-" else []

/-- The text of a number; it reads back as the number. -/
def text : Binary64 → Text
  | .nan => "nan"
  | .infinite negative => sign negative ++ "inf"
  | .finite negative 0 _ => sign negative ++ "0.0"
  | .finite negative mantissa exponent => sign negative ++ (shortest mantissa exponent).text

end GatedConsole.Binary64
