/-!
# Finite binary64 numbers

A number is a sign and `mantissa * 2 ^ exponent`, with the mantissa below
`2 ^ 53` and the exponent not below -1074.  All rounding is `nearest?`: the
exact quotient of two naturals, rounded to the nearest such number with ties to
an even mantissa.
-/

namespace ScopedCheck

/-- A finite binary64 number. -/
structure Binary64 where
  negative : Bool
  mantissa : Nat
  exponent : Int
  deriving DecidableEq, Repr

namespace Binary64

/-- Mantissas have 53 bits. -/
def mantissaBound : Nat := 1 <<< 53

def leastFull : Nat := 1 <<< 52

def zero (negative : Bool) : Binary64 :=
  ⟨negative, 0, -1074⟩

/-- A quotient rounded to the nearest natural, a half going to the even one. -/
def roundHalfEven (num den : Nat) : Nat :=
  let q := num / den
  let r := num % den
  if 2 * r < den then q
  else if den < 2 * r then q + 1
  else q + q % 2

/-- The quotient `num / den / 2 ^ shift` as a quotient of naturals. -/
def shifted (num den : Nat) (shift : Int) : Nat × Nat :=
  if 0 ≤ shift then (num, den <<< shift.toNat) else (num <<< (-shift).toNat, den)

/-- The exponent at which a positive quotient has a mantissa of full width, or the least one. -/
def exponentOf (num den : Nat) : Int :=
  let low : Int := (Nat.log2 num : Int) - (Nat.log2 den : Int) - 53
  let (n, d) := shifted num den low
  max (if n / d < mantissaBound then low else low + 1) (-1074)

/-- The nearest number to a quotient; none when that is beyond the largest one. -/
def nearest? (negative : Bool) (num den : Nat) : Option Binary64 :=
  if num = 0 then some (zero negative)
  else
    let exponent := exponentOf num den
    let (n, d) := shifted num den exponent
    let mantissa := roundHalfEven n d
    let found : Binary64 :=
      if mantissa < mantissaBound then ⟨negative, mantissa, exponent⟩
      else ⟨negative, leastFull, exponent + 1⟩
    if 971 < found.exponent then none else some found

def ofNat? (n : Nat) : Option Binary64 :=
  nearest? false n 1

/-- The magnitude of a number as a quotient of naturals. -/
def ratio (x : Binary64) : Nat × Nat :=
  shifted x.mantissa 1 (-x.exponent)

def mul? (x y : Binary64) : Option Binary64 :=
  let (a, b) := x.ratio
  let (c, d) := y.ratio
  nearest? false (a * c) (b * d)

def div? (x y : Binary64) : Option Binary64 :=
  let (a, b) := x.ratio
  let (c, d) := y.ratio
  nearest? false (a * d) (b * c)

def withSign (negative : Bool) (x : Binary64) : Binary64 :=
  { x with negative }

/--
A significand scaled by a power of ten.

The significand and the power are each rounded first, and their product or
quotient once more; powers beyond `10 ^ -308` are divided off in two steps.
None when the result is too large.
-/
def scale? (negative : Bool) (significand : Nat) (exponent : Int) : Option Binary64 := do
  let x ← ofNat? significand
  if x.mantissa = 0 then return zero negative
  if 308 < exponent then none
  let power (k : Nat) : Option Binary64 := ofNat? (Nat.pow 10 k)
  if 0 ≤ exponent then
    return (← mul? x (← power exponent.toNat)).withSign negative
  if -308 ≤ exponent then
    return (← div? x (← power (-exponent).toNat)).withSign negative
  let y ← div? x (← power 308)
  if -616 ≤ exponent then
    return (← div? y (← power (-exponent - 308).toNat)).withSign negative
  return zero negative

end Binary64

end ScopedCheck
