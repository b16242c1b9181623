/-!
Binary floating point with 53 significant bits, as exact arithmetic on naturals.

A finite number is a mantissa times a power of two. Every ratio of naturals is rounded to the
nearest such number, a tie going to the even mantissa.
-/

set_option autoImplicit false
set_option relaxedAutoImplicit false

namespace GatedConsole

/-- A finite number has its mantissa below `2 ^ 53` and its exponent from `-1074` up to `971`. -/
inductive Binary64 where
  | nan
  | infinite (negative : Bool)
  | finite (negative : Bool) (mantissa : Nat) (exponent : Int)
deriving DecidableEq

namespace Binary64

def minExponent : Int := -1074

def maxExponent : Int := 971

def zero (negative : Bool) : Binary64 := .finite negative 0 minExponent

/-- The numerator and the denominator of `num / den / 2 ^ exponent`. -/
def scaled (num den : Nat) (exponent : Int) : Nat × Nat :=
  if exponent < 0 then (num * Nat.pow 2 exponent.natAbs, den)
  else (num, den * Nat.pow 2 exponent.natAbs)

/-- The natural nearest to `num / den`, the even one of two. -/
def roundDiv (num den : Nat) : Nat :=
  let q := num / den
  let r := num % den
  if 2 * r > den ∨ (2 * r = den ∧ q % 2 = 1) then q + 1 else q

/-- The exponent for which the mantissa of `num / den` has 53 bits, or the least one. -/
def exponentOf (num den : Nat) : Int :=
  let guess := max minExponent ((num.log2 : Int) - den.log2 - 53)
  let (n, d) := scaled num den guess
  if n / d < Nat.pow 2 53 then guess else guess + 1

/-- The number nearest to a positive ratio. -/
def ofRatio (negative : Bool) (num den : Nat) : Binary64 :=
  let exponent := exponentOf num den
  let (n, d) := scaled num den exponent
  let mantissa := roundDiv n d
  let (mantissa, exponent) :=
    if mantissa = Nat.pow 2 53 then (Nat.pow 2 52, exponent + 1) else (mantissa, exponent)
  if exponent > maxExponent then .infinite negative else .finite negative mantissa exponent

/-- The number nearest to `digits * 10 ^ exponent`. Far outside the range nothing is computed. -/
def ofDecimal (negative : Bool) (digits : Nat) (exponent : Int) : Binary64 :=
  if digits = 0 then zero negative
  else
    let magnitude : Int := (Nat.toDigits 10 digits).length + exponent
    if magnitude > 310 then .infinite negative
    else if magnitude < -330 then zero negative
    else if exponent < 0 then ofRatio negative digits (Nat.pow 10 exponent.natAbs)
    else ofRatio negative (digits * Nat.pow 10 exponent.natAbs) 1

end Binary64

end GatedConsole
