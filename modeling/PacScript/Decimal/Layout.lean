import PacScript.Decimal.Shortest

/-!
# Writing a decimal

The decimal that was chosen for a float is written positionally or with an exponent. What differs
between the outputs of this library is collected in a `Layout`; each output has one.
-/

namespace PacScript.Decimal

/-- How floats are written. -/
structure Layout where
  /-- Which of two equally near shortest decimals is written. -/
  tie : Tie
  /-- The powers of ten of the first digit for which a number is written without an exponent:
  `none` for all, else the least and the greatest. -/
  positional : Option (Int × Int)
  /-- Whether a whole number that is written without an exponent ends in `.0`. -/
  wholeMark : Bool

/-- A decimal without an exponent. -/
def Digits.positional (decimal : Digits) (wholeMark : Bool) : String :=
  let digits := Nat.toDigits 10 decimal.digits
  let whole : Int := digits.length + decimal.exponent
  if 0 ≤ decimal.exponent then
    String.ofList (digits ++ List.replicate decimal.exponent.toNat '0') ++
      (if wholeMark then ".0" else "")
  else if 0 < whole then
    String.ofList (digits.take whole.toNat) ++ "." ++ String.ofList (digits.drop whole.toNat)
  else
    "0." ++ String.ofList (List.replicate (-whole).toNat '0' ++ digits)

/-- A decimal with one digit before the point and an exponent, whose sign is always written. -/
def Digits.scientific (decimal : Digits) : String :=
  let digits := Nat.toDigits 10 decimal.digits
  let power : Int := digits.length + decimal.exponent - 1
  let fraction := String.ofList (digits.drop 1)
  String.ofList (digits.take 1) ++ (if fraction.isEmpty then "" else "." ++ fraction) ++ "e" ++
    (if power < 0 then "-" else "+") ++ toString power.natAbs

/-- A decimal in the given layout. -/
def Layout.write (layout : Layout) (decimal : Digits) : String :=
  let power : Int := digitCount decimal.digits + decimal.exponent - 1
  match layout.positional with
  | none => decimal.positional layout.wholeMark
  | some (least, greatest) =>
    if least ≤ power ∧ power ≤ greatest then decimal.positional layout.wholeMark
    else decimal.scientific

/-- The minus sign of a negative number. -/
def sign (negative : Bool) : String :=
  if negative then "-" else ""

/-- A float in the given layout; `none` for what is not a finite number. -/
def Layout.single? (layout : Layout) (bits : UInt32) : Option String :=
  match Single.ofBits bits with
  | .nan => none
  | .infinite _ => none
  | .zero negative => some (sign negative ++ if layout.wholeMark then "0.0" else "0")
  | .finite negative mantissa exponent lowest =>
    some (sign negative ++ layout.write (shortest mantissa exponent lowest layout.tie))

end PacScript.Decimal
