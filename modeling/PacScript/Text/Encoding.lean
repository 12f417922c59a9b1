import PacScript.Bytes
import PacScript.Search
import PacScript.Text.ShiftJis
import PacScript.Text.Windows1252

/-!
# Text in a buffer

Script strings are in Shift_JIS, some debug names in Windows-1252. `Encoding.decode` follows the
byte-order-mark rule: bytes that begin with a mark are in the Unicode encoding of the mark,
whatever the declared encoding is. `Encoding.decodeStrict` knows no marks and accepts well-formed
bytes only. Strings are stored either up to a zero byte (`Bytes.terminatedAt`) or with a known
length (`Bytes.textAt`); both drop the NUL characters of the text.
-/

namespace PacScript

/-- The encodings in which a script holds text. -/
inductive Encoding where
  /-- The double-byte Japanese encoding of script strings. -/
  | shiftJis
  /-- The single-byte Western encoding of some debug names. -/
  | windows1252
  deriving DecidableEq, Repr

namespace Encoding

/-- The step of an encoding. -/
def step : Encoding → Text.Step
  | shiftJis => Text.ShiftJis.step
  | windows1252 => Text.windows1252

/-- The encoding that a byte order mark announces, with the bytes after the mark. -/
def ofMark? : List UInt8 → Option (Text.Step × List UInt8)
  | 0xEF :: 0xBB :: 0xBF :: rest => some (Text.utf8, rest)
  | 0xFE :: 0xFF :: rest => some (Text.utf16Big, rest)
  | 0xFF :: 0xFE :: rest => some (Text.utf16Little, rest)
  | _ => none

/-- The characters of a byte sequence, by its byte order mark if it has one and else by the
declared encoding; a malformed sequence is `none`. -/
def characters (encoding : Encoding) (bytes : List UInt8) : Array (Option Char) :=
  match ofMark? bytes with
  | some (step, rest) => Text.decodeWith step rest
  | none => Text.decodeWith encoding.step bytes

/-- The text of a byte sequence with U+FFFD for what is malformed. -/
def decode (encoding : Encoding) (bytes : List UInt8) : String :=
  String.ofList ((encoding.characters bytes).toList.map (·.getD '\uFFFD'))

/-- True when part of the byte sequence is malformed. -/
def hasErrors (encoding : Encoding) (bytes : List UInt8) : Bool :=
  (encoding.characters bytes).contains none

/-- The text of a byte sequence that is well-formed in the declared encoding. -/
def decodeStrict (encoding : Encoding) (bytes : List UInt8) : Option String :=
  ((Text.decodeWith encoding.step bytes).toList.mapM id).map String.ofList

end Encoding

/-- A text without its NUL characters. -/
def withoutNul (text : String) : String :=
  String.ofList (text.toList.filter (· != '\u0000'))

namespace Bytes

/-- The position of the first zero byte at or after `offset`. -/
def terminator? (data : ByteArray) (offset : Nat) : Option Nat :=
  Search.first (fun i => data[i]? == some 0) offset data.size

/-- The text that starts at `offset` and ends at the first zero byte, with the number of bytes it
takes, the zero byte included. Without a zero byte one byte more was expected than there is. -/
def terminatedAt (data : ByteArray) (offset : Nat) (encoding : Encoding) :
    Except Truncation (String × Nat) :=
  match terminator? data offset with
  | some stop =>
    let bytes := data.extract offset (stop + 1)
    .ok (withoutNul (encoding.decode bytes.data.toList), stop + 1 - offset)
  | none => .error (truncation data offset (data.size - offset + 1))

/-- The text in the `length` bytes from `offset` on. -/
def textAt (data : ByteArray) (offset length : Nat) (encoding : Encoding) :
    Except Truncation String :=
  (slice data offset length).map fun bytes => withoutNul (encoding.decode bytes.data.toList)

end Bytes

end PacScript
