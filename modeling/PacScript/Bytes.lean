/-!
# Bounded reads from a buffer

Every read names the offset it starts at. A read that would run past the end of the buffer fails
with a `Truncation`, which says how many bytes were asked for and how many there were; no read
looks outside the buffer. Words are read byte by byte, `littleWord` least significant byte first
and `bigWord` most significant byte first.
-/

namespace PacScript

/-- Buffers are compared byte by byte. The instance is given here, so that what is derived from it
does not depend on what else is imported. -/
instance Bytes.instDecidableEq : DecidableEq ByteArray := ByteArray.instDecidableEq

/-- A read that asked for more bytes than the buffer holds from its offset on. -/
structure Truncation where
  /-- Where the read started. -/
  offset : Nat
  /-- How many bytes it asked for. -/
  expected : Nat
  /-- How many bytes there were. -/
  actual : Nat
  deriving DecidableEq, Repr

/-- The word of four bytes, least significant first. -/
def littleWord (a b c d : UInt8) : UInt32 :=
  UInt32.ofNat (a.toNat + 0x100 * b.toNat + 0x10000 * c.toNat + 0x1000000 * d.toNat)

/-- The word of four bytes, most significant first. -/
def bigWord (a b c d : UInt8) : UInt32 :=
  littleWord d c b a

/-- The half word of two bytes, least significant first. -/
def littleHalf (a b : UInt8) : UInt16 :=
  UInt16.ofNat (a.toNat + 0x100 * b.toNat)

namespace Bytes

/-- The failure of a read of `length` bytes at `offset`. -/
def truncation (data : ByteArray) (offset length : Nat) : Truncation :=
  ⟨offset, length, data.size - offset⟩

/-- The `length` bytes from `offset` on. -/
def slice (data : ByteArray) (offset length : Nat) : Except Truncation ByteArray :=
  if offset + length ≤ data.size then
    .ok (data.extract offset (offset + length))
  else
    .error (truncation data offset length)

/-- The byte at `offset`. -/
def byteAt (data : ByteArray) (offset : Nat) : Except Truncation UInt8 :=
  if h : offset + 1 ≤ data.size then .ok data[offset] else .error (truncation data offset 1)

/-- The little-endian half word at `offset`. -/
def halfAt (data : ByteArray) (offset : Nat) : Except Truncation UInt16 :=
  if h : offset + 2 ≤ data.size then
    .ok (littleHalf data[offset] data[offset + 1])
  else
    .error (truncation data offset 2)

/-- The little-endian word at `offset`. -/
def wordAt (data : ByteArray) (offset : Nat) : Except Truncation UInt32 :=
  if h : offset + 4 ≤ data.size then
    .ok (littleWord data[offset] data[offset + 1] data[offset + 2] data[offset + 3])
  else
    .error (truncation data offset 4)

/-- The big-endian word at `offset`. Signatures are stored this way, so that their first byte is
the marker. -/
def signatureAt (data : ByteArray) (offset : Nat) : Except Truncation UInt32 :=
  if h : offset + 4 ≤ data.size then
    .ok (bigWord data[offset] data[offset + 1] data[offset + 2] data[offset + 3])
  else
    .error (truncation data offset 4)

end Bytes

end PacScript
