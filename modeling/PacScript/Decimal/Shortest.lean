/-!
# The shortest decimal of a 32-bit float

A 32-bit float is given by its bits. A finite one that is not zero has the magnitude
`mantissa * 2 ^ exponent`; it stands for every real number that rounds to it, an interval around
that magnitude whose two ends belong to it when the mantissa is even. `shortest` finds the decimal
with the fewest digits in that interval, and among those the nearest to the magnitude; where the
two neighbours on the decimal grid are equally near, the caller says which one it takes.

All arithmetic is exact: a magnitude is kept as a fraction whose numerator has two spare bits for
the ends of its interval.
-/

namespace PacScript.Decimal

/-- What the bits of a 32-bit float denote. -/
inductive Single where
  /-- Not a number, whatever the sign and the payload. -/
  | nan
  /-- An infinity. -/
  | infinite (negative : Bool)
  /-- Zero. -/
  | zero (negative : Bool)
  /-- A finite number of the magnitude `mantissa * 2 ^ exponent`. `lowest` says that the mantissa
  is the least of its binade, below which floats are twice as dense. -/
  | finite (negative : Bool) (mantissa : Nat) (exponent : Int) (lowest : Bool)
  deriving DecidableEq, Repr

/-- Reads the bits of a 32-bit float: a sign, eight bits of exponent and twenty-three bits of
mantissa. -/
def Single.ofBits (bits : UInt32) : Single :=
  let negative := bits.toNat / 0x80000000 == 1
  let exponent : Nat := bits.toNat / 0x800000 % 0x100
  let fraction : Nat := bits.toNat % 0x800000
  if exponent = 255 then
    if fraction = 0 then .infinite negative else .nan
  else if exponent = 0 then
    if fraction = 0 then .zero negative else .finite negative fraction (-149) false
  else
    .finite negative (0x800000 + fraction) (exponent - 150) (fraction == 0 && exponent != 1)

/-- A positive fraction. -/
structure Fraction where
  /-- The numerator. -/
  num : Nat
  /-- The denominator. -/
  den : Nat

/-- `n * base ^ exponent` as a fraction. -/
def Fraction.scaled (n base : Nat) (exponent : Int) : Fraction :=
  ⟨n * base.pow exponent.toNat, base.pow (-exponent).toNat⟩

/-- The number of decimal digits of a number; zero has one. -/
def digitCount (n : Nat) : Nat :=
  (Nat.toDigits 10 n).length

/-- A decimal: the number `digits * 10 ^ exponent`. -/
structure Digits where
  /-- The digits, as a number. -/
  digits : Nat
  /-- The power of ten of the last digit. -/
  exponent : Int
  deriving DecidableEq, Repr

/-- Which of two decimals that are equally near is taken. -/
inductive Tie where
  /-- The larger. -/
  | up
  /-- The one whose last digit is even. -/
  | even
  deriving DecidableEq, Repr

/-- The interval of the reals that round to a float: its middle and its ends, as numerators over
one denominator, and whether the ends belong to it. -/
structure Interval where
  /-- The numerator of the lower end. -/
  low : Nat
  /-- The numerator of the float itself. -/
  middle : Nat
  /-- The numerator of the upper end. -/
  high : Nat
  /-- The common denominator. -/
  den : Nat
  /-- True when the ends belong to the interval. -/
  closed : Bool

/-- The interval of a float with the given mantissa and exponent: half a unit to each side, and a
quarter below the least mantissa of a binade. -/
def Interval.ofFloat (mantissa : Nat) (exponent : Int) (lowest : Bool) : Interval :=
  let unit := Fraction.scaled 1 2 (exponent - 2)
  { low := (4 * mantissa - if lowest then 1 else 2) * unit.num
    middle := 4 * mantissa * unit.num
    high := (4 * mantissa + 2) * unit.num
    den := unit.den
    closed := mantissa % 2 == 0 }

/-- True when `n` units of the fraction `grid` lie in the interval. -/
def Interval.contains (interval : Interval) (grid : Fraction) (n : Nat) : Bool :=
  let point := n * grid.num * interval.den
  let low := interval.low * grid.den
  let high := interval.high * grid.den
  if interval.closed then low ≤ point && point ≤ high else low < point && point < high

/-- The point of a grid that lies in the interval and is nearest to its middle: one of the two
neighbours of the middle. -/
def Interval.onGrid? (interval : Interval) (grid : Fraction) (tie : Tie) : Option Nat :=
  let scaled := interval.middle * grid.den
  let unit := interval.den * grid.num
  let below := scaled / unit
  let above := below + 1
  match interval.contains grid below, interval.contains grid above with
  | false, false => none
  | true, false => some below
  | false, true => some above
  | true, true =>
    -- Both neighbours round to the float: the remainder says which is nearer.
    let twice := 2 * (scaled % unit)
    if twice < unit then some below
    else if unit < twice then some above
    else match tie with
      | .up => some above
      | .even => some (if below % 2 = 0 then below else above)

/-- A decimal without zeros at the end of its digits. -/
def Digits.trimmed (decimal : Digits) : Nat → Digits
  | 0 => decimal
  | fuel + 1 =>
    if decimal.digits != 0 && decimal.digits % 10 == 0 then
      Digits.trimmed ⟨decimal.digits / 10, decimal.exponent + 1⟩ fuel
    else decimal

/-- Tries the grids from the one of `leading`, the power of ten of the first digit, on to finer
ones, at most `fuel` of them. -/
def Interval.search (interval : Interval) (tie : Tie) (leading : Int) : Nat → Digits
  | 0 => ⟨0, 0⟩
  | fuel + 1 =>
    match interval.onGrid? (Fraction.scaled 1 10 leading) tie with
    | some n => Digits.trimmed ⟨n, leading⟩ (digitCount n)
    | none => interval.search tie (leading - 1) fuel

/-- The power of ten of the first digit of a fraction of at least `10 ^ (-45)`. -/
def leadingPower (num den : Nat) : Int :=
  (digitCount (num * Nat.pow 10 45 / den) : Int) - 46

/-- The shortest decimal that rounds to a float of the given mantissa and exponent. Nine digits
tell any two 32-bit floats apart, so that no finer grid is needed. -/
def shortest (mantissa : Nat) (exponent : Int) (lowest : Bool) (tie : Tie) : Digits :=
  let interval := Interval.ofFloat mantissa exponent lowest
  interval.search tie (leadingPower interval.middle interval.den) 9

/-- One tenth has one digit, and the two spellings of a tie differ in it. -/
example : shortest 13421773 (-27) false .up = ⟨1, -1⟩ ∧
    shortest 13582589 (-2) false .up = ⟨33956473, -1⟩ ∧
    shortest 13582589 (-2) false .even = ⟨33956472, -1⟩ := by decide

end PacScript.Decimal
