import PacScript.Proofs.Bytes
import PacScript.Proofs.Text.ShiftJis

/-!
# Texts up to their terminator

A text in a buffer is decoded together with the zero byte that ends it, with replacements and by the
byte order mark. On a well-formed text this agrees with strict decoding of the bytes before the zero
byte (`terminatedAt_shiftJis`): the zero byte is no trail byte, and well-formed bytes with a NUL
behind them are well-formed, so that neither a mark nor a replacement comes in.
-/

namespace PacScript.Bytes

variable {data : ByteArray} {offset : Nat}

/-- A text has no end exactly when no zero byte follows. -/
theorem exists_terminatedAt_eq_error_iff {encoding : Encoding} :
    (∃ truncation, terminatedAt data offset encoding = .error truncation) ↔
      ∀ i, offset ≤ i → data[i]? ≠ some 0 := by
  have hnone : terminator? data offset = none ↔ ∀ i, offset ≤ i → data[i]? ≠ some 0 := by
    unfold terminator?
    rw [Search.first_eq_none_iff]
    constructor
    · intro h i hle hzero
      have hlt := lt_size_of_getElem? hzero
      exact beq_eq_false_iff_ne.1 (h i hle hlt) hzero
    · intro h i hle _
      exact beq_eq_false_iff_ne.2 (h i hle)
  rw [← hnone]
  unfold terminatedAt
  cases terminator? data offset <;> simp

/-- What is read up to a terminator: a text and how many bytes it takes. -/
structure Terminates (data : ByteArray) (offset : Nat) (text : String) (taken : Nat) : Prop where
  /-- There is at least the terminator. -/
  taken_pos : 1 ≤ taken
  /-- The last byte that is taken is zero. -/
  terminator : data[offset + taken - 1]? = some 0
  /-- No byte before it is. -/
  nonzero : ∀ i, offset ≤ i → i < offset + taken - 1 → data[i]? ≠ some 0
  /-- The text has no NUL character. -/
  not_mem_nul : '\u0000' ∉ text.toList
  /-- If the bytes before the terminator are a well-formed text, it is this text. -/
  strict : ∀ well, Encoding.shiftJis.decodeStrict
    (data.extract offset (offset + taken - 1)).data.toList = some well → text = well

/-- A well-formed text without zero bytes is what it and its terminator are read as. -/
theorem withoutNul_decode {bytes : List UInt8} {text : String} (hnonzero : 0 ∉ bytes)
    (h : Encoding.shiftJis.decodeStrict bytes = some text) :
    withoutNul (Encoding.shiftJis.decode (bytes ++ [0])) = text := by
  have hformed := Text.ShiftJis.decodeStrict_eq_some_iff.1 h
  have hnul : Text.ShiftJis.Character [0] '\u0000' := .single (by decide)
  have hterminator : Text.ShiftJis.WellFormed [0] ['\u0000'] := .cons hnul .nil
  have hbelow : (0 : UInt8) < 0x40 := by decide
  have hkept : '\u0000' ∉ text.toList := mt (hformed.ofNat_mem_iff hbelow).1 hnonzero
  have hall : ∀ char ∈ text.toList, (char != '\u0000') = true := by
    intro char hmem
    rw [bne_iff_ne]
    exact fun heq => hkept (heq ▸ hmem)
  rw [(hformed.append hterminator).decode_eq]
  unfold withoutNul
  rw [String.toList_ofList, List.filter_append, List.filter_eq_self.2 hall]
  exact (congrArg String.ofList (List.append_nil _)).trans String.ofList_toList

/-- A text is read unless no zero byte follows. It takes the bytes up to the first zero byte, this
one included, and agrees with strict decoding: a well-formed text is read as it is. -/
theorem terminatedAt_shiftJis (data : ByteArray) (offset : Nat) :
    ((∃ truncation, terminatedAt data offset .shiftJis = .error truncation) ↔
        ∀ i, offset ≤ i → data[i]? ≠ some 0) ∧
      ∀ text taken, terminatedAt data offset .shiftJis = .ok (text, taken) →
        Terminates data offset text taken := by
  refine ⟨exists_terminatedAt_eq_error_iff, ?_⟩
  intro text taken h
  obtain ⟨bytes, hnonzero, hat, rfl, rfl⟩ := terminatedAt_eq_ok_iff.1 h
  have hend : offset + (bytes.length + 1) - 1 = offset + bytes.length := by omega
  obtain ⟨hbytes, hzero, -⟩ := (at_append _ _ _ _).1 hat
  refine ⟨by omega, ?_, ?_, ?_, ?_⟩
  · rw [hend]
    exact hzero
  · rw [hend]
    intro i hle hlt heq
    -- A zero byte further in front would be one of the bytes of the text.
    have hi : i - offset < bytes.length := by omega
    have hbyte := hbytes.getElem? hi
    rw [Nat.add_sub_cancel' hle, heq] at hbyte
    exact hnonzero (Option.some.inj hbyte ▸ List.getElem_mem hi)
  · unfold withoutNul
    rw [String.toList_ofList, List.mem_filter]
    simp
  · intro well hwell
    rw [hend, at_iff_extract.1 hbytes, List.data_toByteArray, List.toList_toArray] at hwell
    exact withoutNul_decode hnonzero hwell

/-- A text of a single byte, a katakana and a pair, which other bytes surround. -/
theorem terminatedAt_shiftJis_mixed :
    terminatedAt ⟨#[0, 0x68, 0xB1, 0xF0, 0x40, 0, 0x41]⟩ 1 .shiftJis = .ok ("hｱ\uE000", 5) ∧
      Terminates ⟨#[0, 0x68, 0xB1, 0xF0, 0x40, 0, 0x41]⟩ 1 "hｱ\uE000" 5 := by
  have hletter : Text.ShiftJis.Character [0x68] 'h' := .single (by decide)
  have hkatakana : Text.ShiftJis.Character [0xB1] 'ｱ' := .katakana (by decide) (by decide)
  have hpair : Text.ShiftJis.Character [0xF0, 0x40] '\uE000' := .pair (by decide) (by decide)
  have hformed : Text.ShiftJis.WellFormed [0x68, 0xB1, 0xF0, 0x40] ['h', 'ｱ', '\uE000'] :=
    .cons hletter (.cons hkatakana (.cons hpair .nil))
  rw [← String.toList_ofList (l := ['h', 'ｱ', '\uE000'])] at hformed
  have hstrict := Text.ShiftJis.decodeStrict_eq_some_iff.2 hformed
  have hat : At ⟨#[0, 0x68, 0xB1, 0xF0, 0x40, 0, 0x41]⟩ 1 ([0x68, 0xB1, 0xF0, 0x40] ++ [0]) :=
    ⟨rfl, rfl, rfl, rfl, rfl, trivial⟩
  have hread := terminatedAt_eq_ok_iff.2
    ⟨_, by decide, hat, (withoutNul_decode (by decide) hstrict).symm, rfl⟩
  exact ⟨hread, (terminatedAt_shiftJis _ _).2 _ _ hread⟩

end PacScript.Bytes
