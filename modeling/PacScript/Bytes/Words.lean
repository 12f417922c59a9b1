import PacScript.Bytes

/-!
# Word tables

Buffers that are read as a sequence of little-endian words, and the two shapes of such a sequence
that the classification of gaps looks for: the table `0, 1, …, n - 1` of a message index, and the
tag/value pairs of arguments.
-/

namespace PacScript.Bytes

/-- The little-endian words of a buffer. A tail of fewer than four bytes is not part of any. -/
def words (data : ByteArray) : Array UInt32 :=
  Array.ofFn fun i : Fin (data.size / 4) =>
    have := i.isLt
    littleWord data[4 * i.val] data[4 * i.val + 1] data[4 * i.val + 2] data[4 * i.val + 3]

/-- The words of a buffer taken two by two. A tail of fewer than eight bytes is not part of any
pair. -/
def wordPairs (data : ByteArray) : Array (UInt32 × UInt32) :=
  Array.ofFn fun i : Fin (data.size / 8) =>
    have := i.isLt
    (littleWord data[8 * i.val] data[8 * i.val + 1] data[8 * i.val + 2] data[8 * i.val + 3],
      littleWord data[8 * i.val + 4] data[8 * i.val + 5] data[8 * i.val + 6] data[8 * i.val + 7])

/-- True when the buffer is not empty and holds exactly the words `0, 1, …, n - 1`. -/
def isSequential (data : ByteArray) : Bool :=
  data.size != 0 && data.size % 4 == 0 &&
    (words data).zipIdx.all fun (word, index) => word.toNat == index

/-- True for the powers of two; zero is none. -/
def isPowerOfTwo (word : UInt32) : Bool :=
  word != 0 && word &&& (word - 1) == 0

/-- The largest tag of a tag/value pair. -/
def maxTag : UInt32 := 0x40

/-- True when the buffer is not empty and consists of tag/value pairs, each of whose tags is a
power of two of at most `maxTag`. -/
def isTagged (data : ByteArray) : Bool :=
  data.size != 0 && data.size % 8 == 0 &&
    (wordPairs data).all fun (tag, _) => isPowerOfTwo tag && tag ≤ maxTag

end PacScript.Bytes
