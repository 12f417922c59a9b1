import PacScript.Text.Unicode

/-!
# Windows-1252

A single-byte encoding: each byte is the code point of the same number, except for thirty-two
bytes from 0x80 on that stand for the characters of a table.
-/

namespace PacScript.Text

/-- The code points of the bytes from 0x80 to 0x9F. -/
def windows1252Upper : Array Nat :=
  #[0x20AC, 0x0081, 0x201A, 0x0192, 0x201E, 0x2026, 0x2020, 0x2021,
    0x02C6, 0x2030, 0x0160, 0x2039, 0x0152, 0x008D, 0x017D, 0x008F,
    0x0090, 0x2018, 0x2019, 0x201C, 0x201D, 0x2022, 0x2013, 0x2014,
    0x02DC, 0x2122, 0x0161, 0x203A, 0x0153, 0x009D, 0x017E, 0x0178]

/-- The step of Windows-1252, in which every byte is a character. -/
def windows1252 : Step := fun byte _ =>
  let point :=
    if 0x80 ≤ byte && byte ≤ 0x9F then (windows1252Upper[byte.toNat - 0x80]?).getD 0
    else byte.toNat
  (some (Char.ofNat point), 0)

end PacScript.Text
