import PacScript.Text.Unicode
import PacScript.Text.ShiftJis.Table

/-!
# Shift_JIS

Bytes up to 0x80 stand for themselves, those from 0xA1 to 0xDF for half-width katakana, and a lead
byte makes a character together with the trail byte after it. The lead bytes 0xF0 to 0xF9 address
the private use area; those of the others are in the table. A trail byte below 0x80 that makes no
character with its lead byte is read again as a character of its own, so that a stray lead byte
never swallows an ASCII character.
-/

namespace PacScript.Text.ShiftJis

/-- The place of a trail byte in a row of 188. -/
def place? (trail : UInt8) : Option Nat :=
  if 0x40 ≤ trail && trail ≤ 0x7E then some (trail.toNat - 0x40)
  else if 0x80 ≤ trail && trail ≤ 0xFC then some (trail.toNat - 0x41)
  else none

/-- The character in a place of the row of a lead byte; U+FFFD stands for none. -/
def cell? (lead : UInt8) (place : Nat) : Option Char :=
  (cells[lead.toNat]?.bind (·[place]?)).filter (· != '\uFFFD')

/-- The character of a lead byte and a trail byte. -/
def pair? (lead trail : UInt8) : Option Char :=
  (place? trail).bind fun place =>
    if 0xF0 ≤ lead && lead ≤ 0xF9 then
      some (Char.ofNat (0xE000 + (lead.toNat - 0xF0) * 188 + place))
    else
      cell? lead place

/-- True for the bytes that begin a pair. -/
def isLead (byte : UInt8) : Bool :=
  (0x81 ≤ byte && byte ≤ 0x9F) || (0xE0 ≤ byte && byte ≤ 0xFC)

/-- The step of Shift_JIS. -/
def step : Step := fun byte rest =>
  if byte ≤ 0x80 then (some (Char.ofNat byte.toNat), 0)
  else if 0xA1 ≤ byte && byte ≤ 0xDF then (some (Char.ofNat (0xFF61 + (byte.toNat - 0xA1))), 0)
  else if isLead byte then
    match rest with
    | [] => (none, 0)
    | trail :: _ =>
      match pair? byte trail with
      | some char => (some char, 1)
      | none => (none, if trail < 0x80 then 0 else 1)
  else (none, 0)

end PacScript.Text.ShiftJis
