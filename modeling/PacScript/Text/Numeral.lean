/-!
# Numerals

Numbers as digits: hexadecimal and decimal numerals as a definition text or a command line writes
them, and the upper-case hexadecimal in which signatures, addresses and bytes are printed.
-/

namespace PacScript.Text

/-- The value of a digit in the given base, which is at most sixteen. Letters count in both
cases. -/
def digit? (base : Nat) (c : Char) : Option Nat :=
  let value :=
    if '0' ≤ c ∧ c ≤ '9' then some (c.toNat - '0'.toNat)
    else if 'a' ≤ c ∧ c ≤ 'f' then some (c.toNat - 'a'.toNat + 10)
    else if 'A' ≤ c ∧ c ≤ 'F' then some (c.toNat - 'A'.toNat + 10)
    else none
  value.filter (· < base)

/-- The number that a non-empty sequence of digits denotes. -/
def ofDigits? (base : Nat) : List Char → Option Nat
  | [] => none
  | digits => digits.foldlM (fun value c => (digit? base c).map (value * base + ·)) 0

/-- The number below `bound` that a numeral denotes: digits, with at most one plus sign before
them. -/
def numeral? (base bound : Nat) (text : List Char) : Option Nat :=
  let digits := match text with
    | '+' :: rest => rest
    | _ => text
  (ofDigits? base digits).filter (· < bound)

/-- A hexadecimal numeral, before which `0x` or `0X` may stand. -/
def hexNumeral? (bound : Nat) (text : List Char) : Option Nat :=
  match text with
  | '0' :: 'x' :: rest => numeral? 16 bound rest
  | '0' :: 'X' :: rest => numeral? 16 bound rest
  | _ => numeral? 16 bound text

/-- The upper-case hexadecimal digits of a number, with zeros before them up to `width`. -/
def hex (width n : Nat) : String :=
  let digits := (Nat.toDigits 16 n).map Char.toUpper
  String.ofList (List.replicate (width - digits.length) '0' ++ digits)

/-- The bytes of a buffer as two upper-case hexadecimal digits each. -/
def hexBytes (data : ByteArray) : String :=
  data.foldl (fun text byte => text ++ hex 2 byte.toNat) ""

/-- The sign stands after the mark of the base, and digits have to follow. -/
example : hexNumeral? 0x100 ['0', 'x', '+', '2', '5'] = some 0x25 ∧ hexNumeral? 0x100 ['+'] = none ∧
    hexNumeral? 0x100 ['1', '0', '0'] = none := by decide

end PacScript.Text
