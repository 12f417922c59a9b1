/-!
# Decoding a byte sequence into characters

A multi-byte encoding is given by its *step*: what the next byte and those after it begin with.
The step returns the character, or `none` when no character begins there, and how many of the
bytes after the first one belong to it. `decodeWith` repeats the step to the end of the bytes.
A malformed sequence thus stays visible in the result, and it is the reader's choice to put
U+FFFD in its place or to refuse the text.

The steps of UTF-8 and of the two byte orders of UTF-16 are here. In UTF-8 a malformed sequence is
a maximal part of a well-formed one, so a byte that could begin a character is never swallowed.
-/

namespace PacScript.Text

/-- How an encoding begins to read: the character that a byte and the bytes after it begin with,
`none` when there is none, and how many of the bytes after the first one are used up. -/
abbrev Step := UInt8 → List UInt8 → Option Char × Nat

/-- Repeats a step to the end of the bytes, with the characters found so far in `found`. -/
def decodeFrom (step : Step) (found : Array (Option Char)) : List UInt8 → Array (Option Char)
  | [] => found
  | byte :: rest =>
    let (char, used) := step byte rest
    decodeFrom step (found.push char) (rest.drop used)
  termination_by bytes => bytes.length
  decreasing_by
    simp only [List.length_drop, List.length_cons]
    omega

/-- The characters of a byte sequence in the encoding of `step`; a malformed sequence is `none`. -/
def decodeWith (step : Step) (bytes : List UInt8) : Array (Option Char) :=
  decodeFrom step #[] bytes

/-- The rest of a UTF-8 sequence of which `needed` bytes are outstanding: the character whose
leading bits are in `bits`, and how many bytes continue the sequence. The next byte has to lie
between `low` and `high`, and each later one between 0x80 and 0xBF. -/
def utf8Rest (bits : Nat) : Nat → UInt8 → UInt8 → List UInt8 → Option Char × Nat
  | 0, _, _, _ => (some (Char.ofNat bits), 0)
  | needed + 1, low, high, byte :: rest =>
    if low ≤ byte && byte ≤ high then
      let (char, used) := utf8Rest (bits * 0x40 + byte.toNat % 0x40) needed 0x80 0xBF rest
      (char, used + 1)
    else
      (none, 0)
  | _ + 1, _, _, [] => (none, 0)

/-- The step of UTF-8. The second byte is restricted after 0xE0 and 0xF0, where fewer bytes would
do, after 0xED, where surrogates would follow, and after 0xF4, where the code space ends. -/
def utf8 : Step := fun byte rest =>
  if byte ≤ 0x7F then (some (Char.ofNat byte.toNat), 0)
  else if byte < 0xC2 then (none, 0)
  else if byte ≤ 0xDF then utf8Rest (byte.toNat % 0x20) 1 0x80 0xBF rest
  else if byte = 0xE0 then utf8Rest 0x0 2 0xA0 0xBF rest
  else if byte = 0xED then utf8Rest 0xD 2 0x80 0x9F rest
  else if byte ≤ 0xEF then utf8Rest (byte.toNat % 0x10) 2 0x80 0xBF rest
  else if byte = 0xF0 then utf8Rest 0 3 0x90 0xBF rest
  else if byte ≤ 0xF3 then utf8Rest (byte.toNat % 0x08) 3 0x80 0xBF rest
  else if byte = 0xF4 then utf8Rest 4 3 0x80 0x8F rest
  else (none, 0)

/-- True for the first half of a surrogate pair. -/
def isHighSurrogate (unit : Nat) : Bool :=
  0xD800 ≤ unit && unit ≤ 0xDBFF

/-- True for the second half of a surrogate pair. -/
def isLowSurrogate (unit : Nat) : Bool :=
  0xDC00 ≤ unit && unit ≤ 0xDFFF

/-- The character of a surrogate pair. -/
def ofSurrogates (high low : Nat) : Char :=
  Char.ofNat (0x10000 + (high - 0xD800) * 0x400 + (low - 0xDC00))

/-- The step of UTF-16, whose units are put together from two bytes by `unit`. An odd byte at the
end is malformed, alone or together with the half of a pair before it. -/
def utf16 (unit : UInt8 → UInt8 → Nat) : Step := fun byte rest =>
  match rest with
  | [] => (none, 0)
  | second :: later =>
    let first := unit byte second
    if isLowSurrogate first then (none, 1)
    else if isHighSurrogate first then
      match later with
      | [] => (none, 1)
      | [_] => (none, 2)
      | third :: fourth :: _ =>
        if isLowSurrogate (unit third fourth) then
          (some (ofSurrogates first (unit third fourth)), 3)
        else
          (none, 1)
    else (some (Char.ofNat first), 1)

/-- The step of UTF-16 with the more significant byte first. -/
def utf16Big : Step := utf16 fun a b => a.toNat * 0x100 + b.toNat

/-- The step of UTF-16 with the less significant byte first. -/
def utf16Little : Step := utf16 fun a b => b.toNat * 0x100 + a.toNat

end PacScript.Text
