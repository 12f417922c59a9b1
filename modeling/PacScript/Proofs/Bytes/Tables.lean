import Mathlib.Algebra.Group.Nat.Defs
import PacScript.Bytes.Words
import PacScript.Proofs.Bytes

/-!
# What the word tables are

A buffer is a table of a kind of entries when its bytes are the encodings of the entries, one after
another. All encodings of a kind are equally long, so that the entries of a buffer are at fixed
places and no two tables have the same bytes (`toList_eq_flatMap_iff`). The two tests that the
classification of gaps uses hold exactly of the tables that they are named for: the numbers of
messages (`isSequential_iff`) and the tags and values of arguments (`isTagged_iff`). No buffer is
both, since the first word of a message table is zero, which is no tag.
-/

namespace PacScript

/-- The four bytes of a word, least significant first. -/
def littleBytes (word : UInt32) : List UInt8 :=
  [UInt8.ofNat word.toNat, UInt8.ofNat (word.toNat / 0x100), UInt8.ofNat (word.toNat / 0x10000),
    UInt8.ofNat (word.toNat / 0x1000000)]

/-- A word has four bytes. -/
@[simp] theorem length_littleBytes (word : UInt32) : (littleBytes word).length = 4 := rfl

/-- Four bytes are those of a word exactly when the word is made of them. -/
theorem littleBytes_eq_iff {a b c d : UInt8} {word : UInt32} :
    [a, b, c, d] = littleBytes word ↔ littleWord a b c d = word := by
  have ha := a.toNat_lt
  have hb := b.toNat_lt
  have hc := c.toNat_lt
  have hd := d.toNat_lt
  have hword := word.toNat_lt
  unfold littleBytes littleWord
  simp only [List.cons.injEq, and_true, ← UInt8.toNat_inj, ← UInt32.toNat_inj, UInt8.toNat_ofNat',
    UInt32.toNat_ofNat']
  omega

namespace Bytes

/-- The bytes of a word stand where four bytes stand that make it. -/
theorem at_littleBytes_iff {data : ByteArray} {position : Nat} {word : UInt32} :
    At data position (littleBytes word) ↔
      ∃ a b c d, At data position [a, b, c, d] ∧ word = littleWord a b c d := by
  constructor
  · intro h
    unfold littleBytes at h
    exact ⟨_, _, _, _, h, (littleBytes_eq_iff.1 rfl).symm⟩
  · intro h
    obtain ⟨a, b, c, d, hat, hword⟩ := h
    rw [← littleBytes_eq_iff.2 hword.symm]
    exact hat

/-- A buffer consists of the bytes that stand at its start and are as many. -/
theorem toList_eq_iff_at {data : ByteArray} {bytes : List UInt8} :
    data.data.toList = bytes ↔ At data 0 bytes ∧ data.size = bytes.length := by
  have hwhole := at_extract data (Nat.zero_le data.size) (Nat.le_refl _)
  rw [ByteArray.extract_zero_size] at hwhole
  constructor
  · intro h
    rw [h] at hwhole
    refine ⟨hwhole, ?_⟩
    rw [← h, Array.length_toList, ByteArray.size_data]
  · intro h
    obtain ⟨hat, hsize⟩ := h
    rw [at_iff_extract, Nat.zero_add, ← hsize, ByteArray.extract_zero_size] at hat
    rw [hat, List.data_toByteArray]

/-! ## Tables of entries -/

section

variable {α : Type} {encode : α → List UInt8} {width : Nat}

/-- The encodings of entries are as long as all of them together. -/
theorem length_flatMap_eq (hwidth : ∀ entry, (encode entry).length = width) (entries : List α) :
    (entries.flatMap encode).length = width * entries.length := by
  induction entries with
  | nil => rfl
  | cons entry entries ih =>
    rw [List.flatMap_cons, List.length_append, hwidth, ih, List.length_cons, Nat.mul_succ,
      Nat.add_comm]

/-- The entries of a table stand at fixed distances. -/
theorem at_flatMap_iff (hwidth : ∀ entry, (encode entry).length = width) {data : ByteArray}
    {position : Nat} {entries : List α} :
    At data position (entries.flatMap encode) ↔
      ∀ i (hi : i < entries.length), At data (position + width * i) (encode entries[i]) := by
  induction entries generalizing position with
  | nil => simp
  | cons entry entries ih =>
    rw [List.flatMap_cons, at_append, hwidth, ih]
    constructor
    · intro h i hi
      obtain ⟨hentry, hentries⟩ := h
      cases i with
      | zero => exact hentry
      | succ i =>
        have hrest := hentries i (Nat.lt_of_succ_lt_succ hi)
        rw [Nat.add_assoc, Nat.add_comm width, ← Nat.mul_succ] at hrest
        exact hrest
    · intro h
      refine ⟨h 0 (Nat.zero_lt_succ _), ?_⟩
      intro i hi
      have hrest := h (i + 1) (Nat.succ_lt_succ hi)
      rw [Nat.mul_succ, Nat.add_comm _ width, ← Nat.add_assoc] at hrest
      exact hrest

/-- A buffer is the table of its entries if no bytes are left over, and of no others. -/
theorem toList_eq_flatMap_iff (hpos : 0 < width)
    (hwidth : ∀ entry, (encode entry).length = width) {data : ByteArray} {found entries : List α}
    (hcount : found.length = data.size / width)
    (hfound : ∀ i (hi : i < found.length) entry,
      At data (width * i) (encode entry) ↔ found[i] = entry) :
    data.data.toList = entries.flatMap encode ↔ data.size % width = 0 ∧ found = entries := by
  rw [toList_eq_iff_at, at_flatMap_iff hwidth, length_flatMap_eq hwidth]
  constructor
  · intro h
    obtain ⟨hat, hsize⟩ := h
    rw [hsize] at hcount ⊢
    rw [Nat.mul_div_cancel_left _ hpos] at hcount
    refine ⟨Nat.mul_mod_right _ _, List.ext_getElem hcount ?_⟩
    intro i hi hi'
    have hentry := hat i hi'
    rw [Nat.zero_add] at hentry
    exact (hfound i hi _).1 hentry
  · intro h
    obtain ⟨haligned, rfl⟩ := h
    have hsize := Nat.div_add_mod data.size width
    rw [← hcount, haligned, Nat.add_zero] at hsize
    refine ⟨?_, hsize.symm⟩
    intro i hi
    rw [Nat.zero_add]
    exact (hfound i hi _).2 rfl

end

/-- The bytes of a tag and its value. -/
def pairBytes (pair : UInt32 × UInt32) : List UInt8 :=
  littleBytes pair.1 ++ littleBytes pair.2

/-- A pair of words has eight bytes. -/
@[simp] theorem length_pairBytes (pair : UInt32 × UInt32) : (pairBytes pair).length = 8 := rfl

/-- A word of the buffer is the one whose bytes stand in its place. -/
theorem littleWord_eq_iff {data : ByteArray} {position : Nat} {word : UInt32}
    (hfirst : position < data.size) (hsecond : position + 1 < data.size)
    (hthird : position + 2 < data.size) (hfourth : position + 3 < data.size) :
    littleWord data[position] data[position + 1] data[position + 2] data[position + 3] = word ↔
      At data position (littleBytes word) := by
  rw [at_littleBytes_iff]
  exact eq_four_iff hfirst hsecond hthird hfourth littleWord word

/-- There is a word for each four bytes; those that are left over are in none. -/
@[simp] theorem size_words (data : ByteArray) : (words data).size = data.size / 4 :=
  Array.size_ofFn

/-- A word of a table is that of its four bytes. -/
theorem getElem_words {data : ByteArray} {i : Nat} (hi : i < (words data).size)
    (hsize : 4 * i + 4 ≤ data.size) : (words data)[i] =
      littleWord data[4 * i] data[4 * i + 1] data[4 * i + 2] data[4 * i + 3] := by
  simp only [words, Array.getElem_ofFn]

/-- The words of a buffer are those that are read at the multiples of four. -/
theorem getElem?_words {data : ByteArray} {i : Nat} {word : UInt32} :
    (words data)[i]? = some word ↔ wordAt data (4 * i) = .ok word := by
  rw [wordAt_eq_ok_iff, ← at_littleBytes_iff]
  rcases Nat.lt_or_ge i (words data).size with hlt | hge
  · have hsize := hlt
    rw [size_words] at hsize
    rw [Array.getElem?_eq_getElem hlt, Option.some.injEq, getElem_words hlt (by omega),
      littleWord_eq_iff]
  · -- There is no word at an index beyond, since its last byte would be behind the end.
    rw [Array.getElem?_eq_none hge]
    simp only [reduceCtorEq, false_iff]
    intro hat
    have hend := hat.cons_length_le
    rw [size_words] at hge
    simp only [List.length_cons, List.length_nil] at hend
    omega

/-- A buffer is the table of its words if no bytes are left over. -/
theorem toList_eq_words_iff {data : ByteArray} {entries : List UInt32} :
    data.data.toList = entries.flatMap littleBytes ↔
      data.size % 4 = 0 ∧ (words data).toList = entries := by
  apply toList_eq_flatMap_iff (by decide) length_littleBytes
  · rw [Array.length_toList, size_words]
  · intro i hi word
    have hindex : i < data.size / 4 := by rwa [Array.length_toList, size_words] at hi
    rw [Array.getElem_toList, getElem_words _ (by omega), littleWord_eq_iff]

/-- There is a pair for each eight bytes; those that are left over are in none. -/
@[simp] theorem size_wordPairs (data : ByteArray) : (wordPairs data).size = data.size / 8 :=
  Array.size_ofFn

/-- A pair of a table has the words of its eight bytes. -/
theorem getElem_wordPairs {data : ByteArray} {i : Nat} (hi : i < (wordPairs data).size)
    (hsize : 8 * i + 8 ≤ data.size) : (wordPairs data)[i] =
      (littleWord data[8 * i] data[8 * i + 1] data[8 * i + 2] data[8 * i + 3],
        littleWord data[8 * i + 4] data[8 * i + 5] data[8 * i + 6] data[8 * i + 7]) := by
  simp only [wordPairs, Array.getElem_ofFn]

/-- A buffer is the table of its pairs if no bytes are left over. -/
theorem toList_eq_wordPairs_iff {data : ByteArray} {entries : List (UInt32 × UInt32)} :
    data.data.toList = entries.flatMap pairBytes ↔
      data.size % 8 = 0 ∧ (wordPairs data).toList = entries := by
  apply toList_eq_flatMap_iff (by decide) length_pairBytes
  · rw [Array.length_toList, size_wordPairs]
  · intro i hi pair
    obtain ⟨tag, value⟩ := pair
    have hindex : i < data.size / 8 := by rwa [Array.length_toList, size_wordPairs] at hi
    rw [Array.getElem_toList, getElem_wordPairs _ (by omega), Prod.mk.injEq, pairBytes, at_append,
      length_littleBytes, ← littleWord_eq_iff, ← littleWord_eq_iff]

/-! ## The tables that gaps are looked through for -/

/-- The buffer is the table `0, 1, …, count - 1` of message numbers. -/
def IsMessageTable (data : ByteArray) (count : Nat) : Prop :=
  data.data.toList = ((List.range count).map UInt32.ofNat).flatMap littleBytes

/-- The tags that arguments may have. -/
def tags : List UInt32 := [1, 2, 4, 8, 16, 32, 64]

/-- The buffer is the table of tags and values. -/
structure IsArguments (data : ByteArray) (pairs : List (UInt32 × UInt32)) : Prop where
  /-- The bytes are those of the pairs. -/
  bytes_eq : data.data.toList = pairs.flatMap pairBytes
  /-- Each pair has a tag. -/
  tags : ∀ pair ∈ pairs, pair.1 ∈ tags

/-- A message table has as many words as messages. -/
theorem IsMessageTable.size {data : ByteArray} {count : Nat} (h : IsMessageTable data count) :
    data.size = 4 * count := by
  have hlength := congrArg List.length h
  rw [length_flatMap_eq length_littleBytes, List.length_map,
    List.length_range, Array.length_toList, ByteArray.size_data] at hlength
  exact hlength

/-- Words have their indices as their numbers exactly when they are the numbers in order. -/
theorem all_zipIdx_iff {words : Array UInt32} (hsize : words.size ≤ 2 ^ 32) :
    (words.zipIdx.all fun (word, index) => word.toNat == index) = true ↔
      words.toList = (List.range words.size).map UInt32.ofNat := by
  rw [Array.all_eq_true]
  constructor
  · intro h
    apply List.ext_getElem (by simp)
    intro i hi hi'
    have hnumber := h i (by simpa using hi)
    simp only [Array.getElem_zipIdx, Nat.zero_add, beq_iff_eq] at hnumber
    rw [Array.getElem_toList, List.getElem_map, List.getElem_range, ← UInt32.toNat_inj, hnumber,
      UInt32.toNat_ofNat']
    rw [Array.length_toList] at hi
    omega
  · intro h i hi
    rw [Array.size_zipIdx] at hi
    have hnumber : words.toList[i]? = some (UInt32.ofNat i) := by
      rw [h, List.getElem?_map, List.getElem?_range hi, Option.map_some]
    rw [Array.getElem?_toList, Array.getElem?_eq_getElem hi, Option.some.injEq] at hnumber
    simp only [Array.getElem_zipIdx, Nat.zero_add, beq_iff_eq, hnumber, UInt32.toNat_ofNat']
    omega

/-- The test for message tables holds of these and nothing else, as long as the numbers are
words. -/
theorem isSequential_iff {data : ByteArray} (hsize : data.size < 2 ^ 34) :
    isSequential data = true ↔ ∃ count, 0 < count ∧ IsMessageTable data count := by
  unfold isSequential
  rw [Bool.and_eq_true, Bool.and_eq_true, bne_iff_ne, beq_iff_eq,
    all_zipIdx_iff (by rw [size_words]; omega), size_words]
  constructor
  · intro h
    obtain ⟨⟨hne, haligned⟩, hlist⟩ := h
    exact ⟨data.size / 4, by omega, toList_eq_words_iff.2 ⟨haligned, hlist⟩⟩
  · intro h
    obtain ⟨count, hpos, htable⟩ := h
    have hcount := htable.size
    have hdiv : data.size / 4 = count := by omega
    rw [hdiv]
    exact ⟨⟨by omega, (toList_eq_words_iff.1 htable).1⟩, (toList_eq_words_iff.1 htable).2⟩

/-- The powers of two that are tags are the tags. -/
theorem isPowerOfTwo_and_le_iff {word : UInt32} :
    (isPowerOfTwo word && word ≤ maxTag) = true ↔ word ∈ tags := by
  -- There are few words up to the largest tag, and all tags are among them.
  have hsmall : ∀ number < 0x41, (isPowerOfTwo (UInt32.ofNat number) &&
      UInt32.ofNat number ≤ maxTag) = true ↔ UInt32.ofNat number ∈ tags := by decide
  have hbound : tags.all (· ≤ maxTag) = true := by decide
  rcases Nat.lt_or_ge word.toNat 0x41 with hlt | hge
  · have hword := hsmall word.toNat hlt
    rw [UInt32.ofNat_toNat] at hword
    exact hword
  · have hlarge : ¬ word ≤ maxTag := by
      rw [UInt32.le_iff_toNat_le]
      exact Nat.not_le.2 hge
    constructor
    · intro h
      simp [hlarge] at h
    · intro h
      have hle := List.all_eq_true.1 hbound word h
      exact absurd (of_decide_eq_true hle) hlarge

/-- The test for arguments holds of these and nothing else. -/
theorem isTagged_iff {data : ByteArray} :
    isTagged data = true ↔ ∃ pairs, pairs ≠ [] ∧ IsArguments data pairs := by
  unfold isTagged
  rw [Bool.and_eq_true, Bool.and_eq_true, bne_iff_ne, beq_iff_eq, Array.all_eq_true_iff_forall_mem]
  simp only [isPowerOfTwo_and_le_iff, ← Array.mem_toList_iff]
  constructor
  · intro h
    obtain ⟨⟨hne, haligned⟩, hmem⟩ := h
    refine ⟨(wordPairs data).toList, ?_, toList_eq_wordPairs_iff.2 ⟨haligned, rfl⟩, hmem⟩
    rw [ne_eq, ← List.length_eq_zero_iff, Array.length_toList, size_wordPairs]
    omega
  · intro h
    obtain ⟨pairs, hne, harguments⟩ := h
    obtain ⟨haligned, hpairs⟩ := toList_eq_wordPairs_iff.1 harguments.bytes_eq
    refine ⟨⟨?_, haligned⟩, ?_⟩
    · rw [← hpairs, ne_eq, ← List.length_eq_zero_iff, Array.length_toList, size_wordPairs] at hne
      omega
    · rw [hpairs]
      exact harguments.tags

/-- The pairs of a table of arguments are those that it is made of. -/
theorem IsArguments.wordPairs_eq {data : ByteArray} {pairs : List (UInt32 × UInt32)}
    (h : IsArguments data pairs) : (wordPairs data).toList = pairs :=
  (toList_eq_wordPairs_iff.1 h.bytes_eq).2

/-- No buffer passes both tests: the first word of a message table is zero, which is no tag. -/
theorem not_isTagged_of_isSequential {data : ByteArray} (h : isSequential data = true) :
    isTagged data = false := by
  rw [Bool.eq_false_iff]
  intro htagged
  unfold isSequential at h
  unfold isTagged at htagged
  rw [Bool.and_eq_true, Bool.and_eq_true, bne_iff_ne, beq_iff_eq, Array.all_eq_true] at h htagged
  obtain ⟨⟨hne, -⟩, hnumbers⟩ := h
  obtain ⟨⟨-, haligned⟩, htags⟩ := htagged
  have hwords : 0 < (words data).size := by
    rw [size_words]
    omega
  have hpairs : 0 < (wordPairs data).size := by
    rw [size_wordPairs]
    omega
  -- Both tests look at the first word: one asks for the number zero, the other one for a tag.
  have hnumber := hnumbers 0 (by rwa [Array.size_zipIdx])
  have htag := htags 0 hpairs
  simp only [Array.getElem_zipIdx, beq_iff_eq] at hnumber
  rw [isPowerOfTwo_and_le_iff, getElem_wordPairs hpairs (by omega)] at htag
  rw [getElem_words hwords (by omega)] at hnumber
  have hpositive : tags.all (·.toNat != 0) = true := by decide
  have hne := List.all_eq_true.1 hpositive _ htag
  rw [bne_iff_ne] at hne
  exact hne hnumber

end Bytes

end PacScript
