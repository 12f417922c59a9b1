import PacScript.Bytes
import PacScript.Proofs.Search
import PacScript.Text.Encoding

/-!
# What a read finds

`Bytes.At data position bytes` says that `bytes` stand in the buffer from `position` on. It is the
view through which everything that is read from a buffer is specified: a read succeeds exactly when
bytes of the right shape stand at its position, and its result is a function of these bytes. The
bytes at a position are those of `ByteArray.extract` (`at_iff_extract`), and a sequence of pieces
stands at a position when each stands where the one before it ends (`at_append`).
-/

namespace PacScript.Bytes

/-- The bytes stand in the buffer from the position on. -/
def At (data : ByteArray) : Nat → List UInt8 → Prop
  | _, [] => True
  | position, byte :: rest => data[position]? = some byte ∧ At data (position + 1) rest

/-- No bytes stand everywhere. -/
@[simp] theorem at_nil (data : ByteArray) (position : Nat) : At data position [] := trivial

/-- Bytes stand at a position when the first of them is there and the others stand behind it. -/
@[simp] theorem at_cons (data : ByteArray) (position : Nat) (byte : UInt8) (rest : List UInt8) :
    At data position (byte :: rest) ↔ data[position]? = some byte ∧ At data (position + 1) rest :=
  Iff.rfl

/-- Of two consecutive pieces the second stands where the first one ends. -/
theorem at_append (data : ByteArray) (position : Nat) (front back : List UInt8) :
    At data position (front ++ back) ↔
      At data position front ∧ At data (position + front.length) back := by
  induction front generalizing position with
  | nil => simp
  | cons byte front ih =>
    rw [List.cons_append, at_cons, at_cons, ih, and_assoc, List.length_cons]
    rw [show position + 1 + front.length = position + (front.length + 1) by omega]

/-- A byte that is found lies in the buffer. -/
theorem lt_size_of_getElem? {data : ByteArray} {position : Nat} {byte : UInt8}
    (h : data[position]? = some byte) : position < data.size := by
  rcases Nat.lt_or_ge position data.size with hlt | hge
  · exact hlt
  · rw [getElem?_neg data position (Nat.not_lt.2 hge)] at h
    simp at h

/-- A byte is found only at a position of the buffer, and is the one that stands there. -/
theorem getElem?_eq_some {data : ByteArray} {position : Nat} {byte : UInt8} :
    data[position]? = some byte ↔ ∃ h : position < data.size, data[position] = byte := by
  constructor
  · intro h
    have hlt := lt_size_of_getElem? h
    rw [getElem?_pos data position hlt] at h
    exact ⟨hlt, Option.some.inj h⟩
  · intro hexists
    obtain ⟨hlt, rfl⟩ := hexists
    exact getElem?_pos data position hlt

/-- Bytes that stand at a position of the buffer end in it. -/
theorem At.length_le {data : ByteArray} {position : Nat} {bytes : List UInt8}
    (h : At data position bytes) (hposition : position ≤ data.size) :
    position + bytes.length ≤ data.size := by
  induction bytes generalizing position with
  | nil => exact hposition
  | cons byte bytes ih =>
    have hlt := lt_size_of_getElem? h.1
    have hrest := ih h.2 hlt
    rw [List.length_cons]
    omega

/-- The byte at an index of the bytes that stand at a position. -/
theorem At.getElem? {data : ByteArray} {position : Nat} {bytes : List UInt8}
    (h : At data position bytes) {i : Nat} (hi : i < bytes.length) :
    data[position + i]? = some bytes[i] := by
  induction bytes generalizing position i with
  | nil => simp at hi
  | cons byte bytes ih =>
    cases i with
    | zero => exact h.1
    | succ i =>
      have hrest := ih h.2 (Nat.lt_of_succ_lt_succ hi)
      rw [show position + 1 + i = position + (i + 1) by omega] at hrest
      exact hrest

/-- The bytes at a position are what is extracted there. -/
theorem at_iff_extract {data : ByteArray} {position : Nat} {bytes : List UInt8} :
    At data position bytes ↔
      data.extract position (position + bytes.length) = bytes.toByteArray := by
  induction bytes generalizing position with
  | nil => simp
  | cons byte bytes ih =>
    rw [at_cons, ih, List.length_cons, ← List.singleton_append, List.toByteArray_append,
      show position + 1 + bytes.length = position + (bytes.length + 1) by omega]
    constructor
    · intro hexists
      obtain ⟨hbyte, hrest⟩ := hexists
      obtain ⟨hlt, hbyte⟩ := getElem?_eq_some.1 hbyte
      -- The first byte and the rest are extracts next to each other.
      rw [← hrest, ← hbyte, ← ByteArray.extract_add_one (by omega),
        ByteArray.extract_append_extract]
      congr 1 <;> omega
    · intro h
      have hsize := congrArg ByteArray.size h
      simp only [ByteArray.size_extract, ByteArray.size_append, List.size_toByteArray,
        List.length_cons, List.length_nil] at hsize
      have hlt : position < data.size := by omega
      rw [ByteArray.extract_eq_extract_append_extract (position + 1) (by omega) (by omega),
        ByteArray.extract_add_one hlt,
        ByteArray.append_eq_append_iff_of_size_eq_left (by simp)] at h
      obtain ⟨hbyte, hrest⟩ := h
      rw [List.toByteArray_inj, List.cons.injEq] at hbyte
      exact ⟨getElem?_eq_some.2 ⟨hlt, hbyte.1⟩, hrest⟩

/-- What is extracted has the length of its range. -/
theorem length_extract {data : ByteArray} {start stop : Nat} (hstop : stop ≤ data.size) :
    (data.extract start stop).data.toList.length = stop - start := by
  rw [Array.length_toList, ByteArray.size_data, ByteArray.size_extract, Nat.min_eq_left hstop]

/-- What is extracted stands where it was extracted from. -/
theorem at_extract (data : ByteArray) {start stop : Nat} (h : start ≤ stop)
    (hstop : stop ≤ data.size) : At data start (data.extract start stop).data.toList := by
  rw [at_iff_extract, length_extract hstop, Nat.add_sub_cancel' h]
  ext1
  rw [List.data_toByteArray, Array.toArray_toList]

/-! ## Reads of a fixed number of bytes -/

/-- What a read gives, if it does not fail. -/
theorem toOption_eq_some_iff {α ε : Type} {read : Except ε α} {value : α} :
    read.toOption = some value ↔ read = .ok value := by
  cases read <;> simp [Except.toOption]

/-- A byte that is read is the one at the position. -/
theorem byteAt_eq_ok_iff {data : ByteArray} {position : Nat} {byte : UInt8} :
    byteAt data position = .ok byte ↔ At data position [byte] := by
  rw [at_cons, getElem?_eq_some]
  unfold byteAt
  split
  · rename_i h
    simp [Nat.lt_of_succ_le h]
  · rename_i h
    simp [show ¬ position < data.size from h]

/-- Two bytes that are there stand where they are. -/
theorem at_two {data : ByteArray} {position : Nat} (hfirst : position < data.size)
    (hsecond : position + 1 < data.size) :
    At data position [data[position], data[position + 1]] := by
  rw [at_cons, at_cons]
  exact ⟨getElem?_pos _ _ _, getElem?_pos _ _ _, trivial⟩

/-- What is made of four bytes is made of the four that stand there. -/
theorem eq_four_iff {α : Type} {data : ByteArray} {position : Nat} (hfirst : position < data.size)
    (hsecond : position + 1 < data.size) (hthird : position + 2 < data.size)
    (hfourth : position + 3 < data.size) (make : UInt8 → UInt8 → UInt8 → UInt8 → α) (made : α) :
    make data[position] data[position + 1] data[position + 2] data[position + 3] = made ↔
      ∃ a b c d, At data position [a, b, c, d] ∧ made = make a b c d := by
  constructor
  · intro h
    refine ⟨_, _, _, _, ?_, h.symm⟩
    rw [at_cons, at_cons, at_cons, at_cons]
    exact ⟨getElem?_pos _ _ _, getElem?_pos _ _ _, getElem?_pos _ _ _, getElem?_pos _ _ _,
      trivial⟩
  · intro h
    obtain ⟨a, b, c, d, hat, rfl⟩ := h
    simp only [at_cons, at_nil, and_true, getElem?_eq_some] at hat
    obtain ⟨⟨_, rfl⟩, ⟨_, rfl⟩, ⟨_, rfl⟩, ⟨_, rfl⟩⟩ := hat
    rfl

/-- Bytes that stand at a position, at least one, end in the buffer. -/
theorem At.cons_length_le {data : ByteArray} {position : Nat} {byte : UInt8} {rest : List UInt8}
    (h : At data position (byte :: rest)) : position + (rest.length + 1) ≤ data.size := by
  have hlt := lt_size_of_getElem? h.1
  exact h.length_le (Nat.le_of_lt hlt)

/-- A half word that is read is that of the two bytes at the position, least significant first. -/
theorem halfAt_eq_ok_iff {data : ByteArray} {position : Nat} {half : UInt16} :
    halfAt data position = .ok half ↔ ∃ a b, At data position [a, b] ∧ half = littleHalf a b := by
  unfold halfAt
  split
  · rename_i h
    constructor
    · intro hhalf
      exact ⟨_, _, at_two (by omega) (by omega), (Except.ok.inj hhalf).symm⟩
    · intro hexists
      obtain ⟨a, b, hat, rfl⟩ := hexists
      simp only [at_cons, at_nil, and_true, getElem?_eq_some] at hat
      obtain ⟨⟨_, rfl⟩, ⟨_, rfl⟩⟩ := hat
      rfl
  · rename_i h
    simp only [reduceCtorEq, false_iff]
    intro hexists
    obtain ⟨a, b, hat, -⟩ := hexists
    exact h hat.cons_length_le

/-- A word that is read is that of the four bytes at the position, least significant first. -/
theorem wordAt_eq_ok_iff {data : ByteArray} {position : Nat} {word : UInt32} :
    wordAt data position = .ok word ↔
      ∃ a b c d, At data position [a, b, c, d] ∧ word = littleWord a b c d := by
  unfold wordAt
  split
  · rename_i h
    rw [Except.ok.injEq]
    exact eq_four_iff (by omega) (by omega) (by omega) (by omega) littleWord word
  · rename_i h
    simp only [reduceCtorEq, false_iff]
    intro hexists
    obtain ⟨a, b, c, d, hat, -⟩ := hexists
    exact h hat.cons_length_le

/-- A signature that is read is that of the four bytes at the position, most significant first. -/
theorem signatureAt_eq_ok_iff {data : ByteArray} {position : Nat} {signature : UInt32} :
    signatureAt data position = .ok signature ↔
      ∃ a b c d, At data position [a, b, c, d] ∧ signature = bigWord a b c d := by
  unfold signatureAt
  split
  · rename_i h
    rw [Except.ok.injEq]
    exact eq_four_iff (by omega) (by omega) (by omega) (by omega) bigWord signature
  · rename_i h
    simp only [reduceCtorEq, false_iff]
    intro hexists
    obtain ⟨a, b, c, d, hat, -⟩ := hexists
    exact h hat.cons_length_le

/-- A signature that is read lies in the buffer. -/
theorem size_of_signatureAt {data : ByteArray} {position : Nat} {signature : UInt32}
    (h : signatureAt data position = .ok signature) : position + 4 ≤ data.size := by
  obtain ⟨a, b, c, d, hat, -⟩ := signatureAt_eq_ok_iff.1 h
  exact hat.cons_length_le

/-! ## Texts -/

/-- The zero byte that ends a text is behind the bytes of the text, none of which is zero. -/
theorem terminator?_eq_some_iff {data : ByteArray} {position stop : Nat} :
    terminator? data position = some stop ↔
      ∃ bytes, 0 ∉ bytes ∧ At data position (bytes ++ [0]) ∧ stop = position + bytes.length := by
  unfold terminator?
  rw [Search.first_eq_some_iff]
  constructor
  · intro hexists
    obtain ⟨hle, hlt, hzero, hbefore⟩ := hexists
    have hat := at_extract data hle (Nat.le_of_lt hlt)
    have hlength := @length_extract data position stop (Nat.le_of_lt hlt)
    -- Only where the bytes stand and how many they are is needed from here on.
    generalize (data.extract position stop).data.toList = bytes at hat hlength
    refine ⟨bytes, ?_, ?_, by omega⟩
    · intro hmem
      obtain ⟨i, hi, hbyte⟩ := List.mem_iff_getElem.1 hmem
      have hnone := hbefore (position + i) (by omega) (by omega)
      rw [hat.getElem? hi, hbyte] at hnone
      simp at hnone
    · rw [at_append, hlength, Nat.add_sub_cancel' hle, at_cons]
      exact ⟨hat, eq_of_beq hzero, trivial⟩
  · intro hexists
    obtain ⟨bytes, hnonzero, hat, rfl⟩ := hexists
    rw [at_append, at_cons] at hat
    obtain ⟨hbytes, hzero, -⟩ := hat
    refine ⟨by omega, lt_size_of_getElem? hzero, by simp [hzero], ?_⟩
    intro i hle hlt
    -- A position in front of the zero byte is that of one of the bytes.
    obtain ⟨j, rfl⟩ := Nat.exists_eq_add_of_le hle
    have hj : j < bytes.length := by omega
    rw [hbytes.getElem? hj]
    have hne : bytes[j] ≠ 0 := fun h => hnonzero (h ▸ List.getElem_mem hj)
    simp [hne]

/-- A text is read up to the first zero byte, which it takes along. -/
theorem terminatedAt_eq_ok_iff {data : ByteArray} {position taken : Nat} {encoding : Encoding}
    {text : String} :
    terminatedAt data position encoding = .ok (text, taken) ↔
      ∃ bytes, 0 ∉ bytes ∧ At data position (bytes ++ [0]) ∧
        text = withoutNul (encoding.decode (bytes ++ [0])) ∧ taken = bytes.length + 1 := by
  -- The bytes taken are those up to the terminator, and so its place fixes them.
  have hread : ∀ bytes : List UInt8, At data position (bytes ++ [0]) →
      (data.extract position (position + bytes.length + 1)).data.toList = bytes ++ [0] := by
    intro bytes hat
    rw [at_iff_extract, List.length_append, List.length_singleton, ← Nat.add_assoc] at hat
    rw [hat, List.data_toByteArray, List.toList_toArray]
  unfold terminatedAt
  split
  · rename_i stop hstop
    obtain ⟨bytes, hnonzero, hat, rfl⟩ := terminator?_eq_some_iff.1 hstop
    dsimp only
    rw [hread bytes hat, Except.ok.injEq, Prod.mk.injEq]
    constructor
    · intro hexists
      obtain ⟨rfl, rfl⟩ := hexists
      exact ⟨bytes, hnonzero, hat, rfl, by omega⟩
    · intro hexists
      obtain ⟨other, hother, hat', rfl, rfl⟩ := hexists
      have hsame : position + other.length = position + bytes.length := by
        have := terminator?_eq_some_iff.2 ⟨other, hother, hat', rfl⟩
        rw [hstop] at this
        exact (Option.some.inj this).symm
      have hbytes : bytes ++ [0] = other ++ [0] := by
        rw [← hread bytes hat, ← hread other hat', hsame]
      rw [hbytes]
      exact ⟨rfl, by omega⟩
  · rename_i hnone
    simp only [reduceCtorEq, false_iff]
    intro hexists
    obtain ⟨bytes, hnonzero, hat, -⟩ := hexists
    rw [terminator?_eq_some_iff.2 ⟨bytes, hnonzero, hat, rfl⟩] at hnone
    simp at hnone

end PacScript.Bytes
