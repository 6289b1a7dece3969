import ScopedCheck.Decimal.Binary64

/-!
# The shortest decimal that reads back

A binary64 number stands for every real that rounds to it.  Among the decimals
in that interval the ones with the fewest digits are taken, and of those the
nearest one.
-/

namespace ScopedCheck

namespace Decimal

/-- The reals that round to a number, all over one denominator. -/
structure Interval where
  low : Nat
  value : Nat
  high : Nat
  denominator : Nat
  /-- Whether both ends belong to it. -/
  closed : Bool

def intervalOf (x : Binary64) : Interval :=
  let (n, d) := x.ratio
  let (unit, unitDen) := Binary64.shifted 1 1 (-x.exponent)
  let below := if x.mantissa = Binary64.leastFull && -1074 < x.exponent then 1 else 2
  ⟨4 * n * unitDen - below * unit * d, 4 * n * unitDen, 4 * n * unitDen + 2 * unit * d,
    4 * d * unitDen, x.mantissa % 2 == 0⟩

/-- Whether `digits * 10 ^ exponent` lies in an interval. -/
def Interval.holds (interval : Interval) (digits : Nat) (exponent : Int) : Bool :=
  let scaled (n : Nat) : Nat := if 0 ≤ exponent then n else n * Nat.pow 10 (-exponent).toNat
  let power := if 0 ≤ exponent then Nat.pow 10 exponent.toNat else 1
  let point := digits * interval.denominator * power
  if interval.closed then scaled interval.low ≤ point && point ≤ scaled interval.high
  else scaled interval.low < point && point < scaled interval.high

/-- The exponent of the leading decimal digit of `num / den`, looked for upwards from a guess. -/
def leadingExponent : Nat → Nat → Nat → Int → Int
  | 0, _, _, exponent => exponent
  | fuel + 1, num, den, exponent =>
      let reached :=
        if 0 ≤ exponent + 1 then den * Nat.pow 10 (exponent + 1).toNat ≤ num
        else den ≤ num * Nat.pow 10 (-(exponent + 1)).toNat
      if reached then leadingExponent fuel num den (exponent + 1) else exponent

/-- The better of the two neighbours of the value on the grid of `10 ^ exponent`. -/
def onGrid? (interval : Interval) (exponent : Int) : Option Nat :=
  let num := if 0 ≤ exponent then interval.value
    else interval.value * Nat.pow 10 (-exponent).toNat
  let den := if 0 ≤ exponent then interval.denominator * Nat.pow 10 exponent.toNat
    else interval.denominator
  let down := num / den
  let nearest := Binary64.roundHalfEven num den
  let other := if nearest = down then down + 1 else down
  if 0 < nearest && interval.holds nearest exponent then some nearest
  else if 0 < other && interval.holds other exponent then some other
  else none

/-- The first grid with a hit, from the coarsest one on. -/
def firstGrid : Nat → Interval → Int → Nat × Int
  | 0, interval, exponent => ((onGrid? interval exponent).getD 0, exponent)
  | fuel + 1, interval, exponent =>
      match onGrid? interval exponent with
      | some digits => (digits, exponent)
      | none => firstGrid fuel interval (exponent - 1)

/-- Takes the zeros off the end of a number, counting them into the exponent. -/
def dropZeros : Nat → Nat × Int → Nat × Int
  | 0, pair => pair
  | fuel + 1, (digits, exponent) =>
      if digits % 10 = 0 && 0 < digits then dropZeros fuel (digits / 10, exponent + 1)
      else (digits, exponent)

def shortest (x : Binary64) : Nat × Int :=
  let interval := intervalOf x
  let leading := leadingExponent 700 interval.value interval.denominator (-330)
  dropZeros 20 (firstGrid 17 interval leading)

structure Layout where
  /-- Least and greatest exponent of the leading digit that are written positionally. -/
  least : Int
  greatest : Int
  /-- Least number of digits of a written exponent. -/
  exponentDigits : Nat

def digitsOf (n : Nat) : List Char :=
  Nat.toDigits 10 n

/-- Lays out digits whose leading one has a given exponent. -/
def Layout.write (layout : Layout) (digits : List Char) (leading : Int) : List Char :=
  if layout.least ≤ leading && leading ≤ layout.greatest then
    if leading < 0 then
      ['0', '.'] ++ List.replicate (-leading - 1).toNat '0' ++ digits
    else
      let whole := leading.toNat + 1
      if digits.length ≤ whole then
        digits ++ List.replicate (whole - digits.length) '0' ++ ['.', '0']
      else digits.take whole ++ ['.'] ++ digits.drop whole
  else
    let fraction := if digits.length ≤ 1 then [] else '.' :: digits.drop 1
    let power := digitsOf leading.natAbs
    digits.take 1 ++ fraction ++ ['e', if leading < 0 then '-' else '+'] ++
      List.replicate (layout.exponentDigits - power.length) '0' ++ power

def Layout.text (layout : Layout) (x : Binary64) : List Char :=
  let sign := if x.negative then ['-'] else []
  if x.mantissa = 0 then sign ++ ['0', '.', '0']
  else
    let (digits, exponent) := shortest x
    let written := digitsOf digits
    sign ++ layout.write written (exponent + written.length - 1)

end Decimal

end ScopedCheck
