import PacScript.Proofs.Bytes

/-!
# Cutting a buffer

A buffer can be cut at a position and the bytes behind the cut be read as a buffer of their own,
its *suffix*. A read of the suffix finds what a read of the whole buffer finds that starts as many
bytes further on as were cut off, and it fails when that one fails, with the same account of the
failure but for its offset (`wordAt_suffix` and the lemmas like it).

The bytes in front of a cut are a buffer too, of which the whole one is an *extension*. A range of a
buffer holds the same bytes in its extensions (`extract_extend`).
-/

namespace PacScript

/-- The truncation of a read that starts `distance` bytes further on, with as many bytes behind
it. -/
def Truncation.moved (distance : Nat) (truncation : Truncation) : Truncation :=
  { truncation with offset := distance + truncation.offset }

namespace Bytes

/-- The bytes of a buffer from `start` on. -/
def suffix (data : ByteArray) (start : Nat) : ByteArray :=
  data.extract start data.size

/-- A suffix has the bytes from its start on. -/
@[simp] theorem size_suffix (data : ByteArray) (start : Nat) :
    (suffix data start).size = data.size - start := by
  rw [suffix, ByteArray.size_extract, Nat.min_self]

/-- A byte of the suffix is the byte of the buffer that is as much further on. -/
theorem getElem?_suffix (data : ByteArray) (start position : Nat) :
    (suffix data start)[position]? = data[start + position]? := by
  rcases Nat.lt_or_ge (start + position) data.size with hlt | hge
  · have hinside : position < (suffix data start).size := by
      rw [size_suffix]
      omega
    rw [getElem?_pos (suffix data start) position hinside, getElem?_pos data _ hlt]
    exact congrArg some (ByteArray.getElem_extract hinside)
  · have houtside : ¬ position < (suffix data start).size := by
      rw [size_suffix]
      omega
    rw [getElem?_neg (suffix data start) position houtside,
      getElem?_neg data _ (Nat.not_lt.2 hge)]

/-- A range that goes beyond the end of the buffer holds the bytes up to the end. -/
theorem extract_min (data : ByteArray) (start stop : Nat) :
    data.extract start (min stop data.size) = data.extract start stop := by
  have hwhole : (data.extract 0 data.size).extract start stop = data.extract start stop := by
    rw [ByteArray.extract_zero_size]
  rw [ByteArray.extract_extract, Nat.zero_add, Nat.zero_add] at hwhole
  exact hwhole

/-- A byte of a range is the byte of the buffer in its place. -/
theorem getElem?_extract_iff {data : ByteArray} {start stop position : Nat} {byte : UInt8} :
    (data.extract start stop)[position]? = some byte ↔
      start + position < stop ∧ data[start + position]? = some byte := by
  rw [getElem?_eq_some, getElem?_eq_some]
  constructor
  · intro h
    obtain ⟨hlt, rfl⟩ := h
    have hsize := hlt
    rw [ByteArray.size_extract] at hsize
    exact ⟨by omega, by omega, (ByteArray.getElem_extract hlt).symm⟩
  · intro h
    obtain ⟨hstop, hlt, rfl⟩ := h
    have hsize : position < (data.extract start stop).size := by
      rw [ByteArray.size_extract]
      omega
    exact ⟨hsize, ByteArray.getElem_extract hsize⟩

/-- A word of a range is the word of the buffer in its place, if it ends in the range. -/
theorem wordAt_extract_iff {data : ByteArray} {start stop position : Nat} {word : UInt32} :
    wordAt (data.extract start stop) position = .ok word ↔
      start + position + 4 ≤ stop ∧ wordAt data (start + position) = .ok word := by
  rw [wordAt_eq_ok_iff, wordAt_eq_ok_iff]
  simp only [at_cons, at_nil, and_true, getElem?_extract_iff, ← Nat.add_assoc]
  constructor
  · intro h
    obtain ⟨a, b, c, d, ⟨⟨-, ha⟩, ⟨-, hb⟩, ⟨-, hc⟩, hstop, hd⟩, hword⟩ := h
    exact ⟨hstop, a, b, c, d, ⟨ha, hb, hc, hd⟩, hword⟩
  · intro h
    obtain ⟨hstop, a, b, c, d, ⟨ha, hb, hc, hd⟩, hword⟩ := h
    exact ⟨a, b, c, d, ⟨⟨by omega, ha⟩, ⟨by omega, hb⟩, ⟨by omega, hc⟩, hstop, hd⟩, hword⟩

/-- A range of the suffix is the range of the buffer that is as much further on. -/
theorem extract_suffix (data : ByteArray) (start first stop : Nat) :
    (suffix data start).extract first stop = data.extract (start + first) (start + stop) := by
  unfold suffix
  rw [ByteArray.extract_extract, extract_min]

/-- The end of the suffix is that of the buffer. -/
theorem add_size_suffix {data : ByteArray} {start : Nat} (hstart : start ≤ data.size) :
    start + (suffix data start).size = data.size := by
  rw [size_suffix]
  omega

/-! ## Reads of a suffix -/

/-- A failure is mapped. -/
theorem mapError_error {ε ε' α : Type} (f : ε → ε') (failure : ε) :
    (Except.error failure : Except ε α).mapError f = .error (f failure) := rfl

/-- A success has no failure to map. -/
theorem mapError_ok {ε ε' α : Type} (f : ε → ε') (found : α) :
    (Except.ok found : Except ε α).mapError f = .ok found := rfl

/-- A read that is too long is reported for the buffer as for the suffix, but for the position. -/
theorem truncation_suffix (data : ByteArray) (start offset length : Nat) :
    truncation data (start + offset) length =
      (truncation (suffix data start) offset length).moved start := by
  have hactual : data.size - (start + offset) = (suffix data start).size - offset := by
    rw [size_suffix]
    omega
  unfold truncation
  rw [hactual]
  rfl

/-- A read of `length` bytes is made of the same bytes in the suffix and in the buffer, or else fails
in both. -/
theorem bounded_suffix {α : Type} {data : ByteArray} {start position length : Nat}
    (hlength : 0 < length)
    {whole : start + position + length ≤ data.size → α}
    {part : position + length ≤ (suffix data start).size → α}
    (hsame : ∀ hwhole hpart, whole hwhole = part hpart) :
    (if h : start + position + length ≤ data.size then Except.ok (whole h)
      else .error (truncation data (start + position) length)) =
    (if h : position + length ≤ (suffix data start).size then Except.ok (part h)
      else .error (truncation (suffix data start) position length)).mapError (·.moved start) := by
  have hsize := size_suffix data start
  by_cases hpart : position + length ≤ (suffix data start).size
  · have hwhole : start + position + length ≤ data.size := by omega
    rw [dif_pos hwhole, dif_pos hpart, hsame hwhole hpart]
    rfl
  · have hwhole : ¬ start + position + length ≤ data.size := by omega
    rw [dif_neg hwhole, dif_neg hpart, truncation_suffix]
    rfl

/-- A byte is read from the buffer as from the suffix. -/
theorem byteAt_suffix (data : ByteArray) (start position : Nat) :
    byteAt data (start + position) =
      (byteAt (suffix data start) position).mapError (·.moved start) := by
  unfold byteAt
  apply bounded_suffix (by decide)
  intro hwhole hpart
  simp only [suffix, ByteArray.getElem_extract]

/-- A half word is read from the buffer as from the suffix. -/
theorem halfAt_suffix (data : ByteArray) (start position : Nat) :
    halfAt data (start + position) =
      (halfAt (suffix data start) position).mapError (·.moved start) := by
  unfold halfAt
  apply bounded_suffix (by decide)
  intro hwhole hpart
  simp only [suffix, ByteArray.getElem_extract, Nat.add_assoc]

/-- A word is read from the buffer as from the suffix. -/
theorem wordAt_suffix (data : ByteArray) (start position : Nat) :
    wordAt data (start + position) =
      (wordAt (suffix data start) position).mapError (·.moved start) := by
  unfold wordAt
  apply bounded_suffix (by decide)
  intro hwhole hpart
  simp only [suffix, ByteArray.getElem_extract, Nat.add_assoc]

/-- A signature is read from the buffer as from the suffix. -/
theorem signatureAt_suffix (data : ByteArray) (start position : Nat) :
    signatureAt data (start + position) =
      (signatureAt (suffix data start) position).mapError (·.moved start) := by
  unfold signatureAt
  apply bounded_suffix (by decide)
  intro hwhole hpart
  simp only [suffix, ByteArray.getElem_extract, Nat.add_assoc]

/-- A signature that is read in the buffer is read in the suffix. -/
theorem signatureAt_of_suffix {data : ByteArray} {start position : Nat} {signature : UInt32}
    (h : signatureAt data (start + position) = .ok signature) :
    signatureAt (suffix data start) position = .ok signature := by
  rw [signatureAt_suffix] at h
  cases hread : signatureAt (suffix data start) position with
  | error truncation =>
    rw [hread] at h
    simp [mapError_error] at h
  | ok found =>
    rw [hread] at h
    exact h

/-- The next zero byte of the suffix is that of the buffer. -/
theorem terminator?_suffix {data : ByteArray} {start : Nat} (hstart : start ≤ data.size)
    (position : Nat) :
    terminator? data (start + position) =
      (terminator? (suffix data start) position).map (start + ·) := by
  unfold terminator?
  simp only [getElem?_suffix]
  rw [← Search.first_add (fun i => data[i]? == some 0), add_size_suffix hstart]

/-- A text of the suffix is the text of the buffer, and takes as many bytes. -/
theorem terminatedAt_suffix {data : ByteArray} {start : Nat} (hstart : start ≤ data.size)
    (position : Nat) (encoding : Encoding) :
    terminatedAt data (start + position) encoding =
      (terminatedAt (suffix data start) position encoding).mapError (·.moved start) := by
  unfold terminatedAt
  rw [terminator?_suffix hstart]
  cases terminator? (suffix data start) position with
  | none =>
    have hleft : data.size - (start + position) = (suffix data start).size - position := by
      rw [size_suffix]
      omega
    simp only [Option.map_none, mapError_error, truncation_suffix, hleft]
  | some stop =>
    have htaken : start + (stop + 1) - (start + position) = stop + 1 - position := by omega
    simp only [Option.map_some, mapError_ok, extract_suffix, Nat.add_assoc, htaken]

/-! ## Extensions of a buffer -/

/-- A range of a buffer holds the same bytes in its extensions. -/
theorem extract_extend {data : ByteArray} (extra : ByteArray) {start stop : Nat}
    (hstop : stop ≤ data.size) : (data ++ extra).extract start stop = data.extract start stop := by
  have hnothing : extra.extract (start - data.size) (stop - data.size) = .empty := by
    rw [ByteArray.extract_eq_empty_iff]
    omega
  rw [ByteArray.extract_append, hnothing, ByteArray.append_empty]

/-- A signature that can be read in the extension and lies in the buffer is that of the buffer. -/
theorem signatureAt_extend {data : ByteArray} (extra : ByteArray) {position : Nat}
    (hsize : position + 4 ≤ data.size) :
    signatureAt (data ++ extra) position = signatureAt data position := by
  have hlonger : position + 4 ≤ (data ++ extra).size := by
    rw [ByteArray.size_append]
    omega
  unfold signatureAt
  rw [dif_pos hsize, dif_pos hlonger]
  rw [ByteArray.getElem_append_left (by omega), ByteArray.getElem_append_left (by omega),
    ByteArray.getElem_append_left (by omega), ByteArray.getElem_append_left (by omega)]

end Bytes

end PacScript
