import PacScript.Proofs.Text.Decoding

/-!
# Well-formed Shift_JIS

A character takes one byte or a pair (`Character`), and bytes are decoded strictly exactly when they
are those of characters one after the other (`decodeStrict_eq_some_iff`). A byte below 0x40 stands
for itself, is never part of a pair, and its character is written in no other way
(`Character.eq_ofNat_iff`). So a well-formed text has a NUL or a line feed just when its bytes have.

No character begins with the first byte of a byte order mark, and a well-formed text is therefore
never taken for Unicode: decoding it with replacements gives the same (`WellFormed.decode_eq`).
-/

namespace PacScript.Text.ShiftJis

/-! ## Pairs of bytes -/

/-- A trail byte is not below 0x40, and its place is in the row. -/
theorem of_place? {trail : UInt8} {place : Nat} (h : place? trail = some place) :
    0x40 ≤ trail ∧ place < 188 := by
  unfold place? at h
  simp only [Bool.and_eq_true, decide_eq_true_eq] at h
  split at h
  · rename_i htrail
    obtain rfl := Option.some.inj h
    have hle : trail.toNat ≤ 0x7E := htrail.2
    exact ⟨htrail.1, by omega⟩
  · split at h
    · rename_i htrail
      obtain rfl := Option.some.inj h
      have hle : trail.toNat ≤ 0xFC := htrail.2
      exact ⟨UInt8.le_trans (by decide) htrail.1, by omega⟩
    · simp at h

/-- The number of a character. -/
theorem toNat_ofNat {n : Nat} (h : n.isValidChar) : (Char.ofNat n).toNat = n := by
  rw [Char.ofNat, dif_pos h]
  rfl

/-- A test that characters pass, their string passes. It lets a table of strings be checked by its
characters. -/
theorem all_toList_ofList {chars : List Char} {test : Char → Bool} (h : chars.all test = true) :
    (String.ofList chars).toList.all test = true := by
  rw [String.toList_ofList]
  exact h

set_option maxRecDepth 4096 in
/-- No character of the table is an ASCII character. -/
theorem forall_rows : ∀ row ∈ rows, row.2.toList.all (0x80 ≤ ·.toNat) = true := by
  unfold rows
  simp only [List.forall_mem_cons, List.not_mem_nil, false_imp_iff, implies_true, and_true]
  and_intros <;> exact all_toList_ofList (by decide +kernel)

/-- A cell with a character is in the row of its lead byte. -/
theorem exists_row {lead : UInt8} {place : Nat} {char : Char} (h : cell? lead place = some char) :
    ∃ row, rows.lookup lead = some row ∧ char ∈ row.toList := by
  unfold cell? at h
  obtain ⟨hcell, -⟩ := Option.filter_eq_some_iff.1 h
  obtain ⟨cell, hrow, hchar⟩ := Option.bind_eq_some_iff.1 hcell
  unfold cells at hrow
  have hlt : lead.toNat < 256 := lead.toNat_lt
  rw [Array.getElem?_ofFn, dif_pos hlt, UInt8.ofNat_toNat, Option.some.injEq] at hrow
  subst hrow
  cases hlookup : rows.lookup lead with
  | none => simp [hlookup] at hchar
  | some row =>
    rw [hlookup, Option.map_some, Option.getD_some, List.getElem?_toArray] at hchar
    exact ⟨row, rfl, List.mem_of_getElem? hchar⟩

/-- A pair of bytes is no ASCII character. -/
theorem le_toNat_of_pair? {lead trail : UInt8} {char : Char} (h : pair? lead trail = some char) :
    0x80 ≤ char.toNat := by
  unfold pair? at h
  obtain ⟨place, hplace, hchar⟩ := Option.bind_eq_some_iff.1 h
  split at hchar
  · -- The leads from 0xF0 on have no row, their pairs are numbered from U+E000 on.
    rename_i hprivate
    obtain rfl := Option.some.inj hchar
    have hlead : lead.toNat ≤ 0xF9 := by
      rw [Bool.and_eq_true, decide_eq_true_eq, decide_eq_true_eq] at hprivate
      exact hprivate.2
    have hlt := (of_place? hplace).2
    have hvalid : (0xE000 + (lead.toNat - 0xF0) * 188 + place).isValidChar := by
      right
      omega
    rw [toNat_ofNat hvalid]
    omega
  · obtain ⟨row, hrow, hmem⟩ := exists_row hchar
    obtain ⟨front, back, hsplit, -⟩ := List.lookup_eq_some_iff.1 hrow
    have hin : (lead, row) ∈ rows := by
      rw [hsplit]
      exact List.mem_append_right _ List.mem_cons_self
    have hall := List.all_eq_true.1 (forall_rows _ hin) char hmem
    exact of_decide_eq_true hall

/-- The trail byte of a pair is not below 0x40. -/
theorem le_of_pair? {lead trail : UInt8} {char : Char} (h : pair? lead trail = some char) :
    0x40 ≤ trail := by
  unfold pair? at h
  obtain ⟨place, hplace, -⟩ := Option.bind_eq_some_iff.1 h
  exact (of_place? hplace).1

/-- The row of 0xEF, with which a byte order mark begins, is empty. -/
theorem pair?_mark (trail : UInt8) : pair? 0xEF trail = none := by
  cases h : pair? 0xEF trail with
  | none => rfl
  | some char =>
    unfold pair? at h
    obtain ⟨place, -, hchar⟩ := Option.bind_eq_some_iff.1 h
    rw [if_neg (by decide)] at hchar
    obtain ⟨row, hrow, -⟩ := exists_row hchar
    have hnone : rows.lookup 0xEF = none := by decide
    rw [hnone] at hrow
    simp at hrow

/-! ## Characters -/

/-- The bytes of a character. -/
inductive Character : List UInt8 → Char → Prop
  /-- A byte up to 0x80 stands for itself. -/
  | single {byte : UInt8} (hbyte : byte ≤ 0x80) : Character [byte] (Char.ofNat byte.toNat)
  /-- A half-width katakana. -/
  | katakana {byte : UInt8} (hlow : 0xA1 ≤ byte) (hhigh : byte ≤ 0xDF) :
    Character [byte] (Char.ofNat (0xFF61 + (byte.toNat - 0xA1)))
  /-- A lead byte and a trail byte. -/
  | pair {lead trail : UInt8} {char : Char} (hlead : isLead lead = true)
    (hpair : pair? lead trail = some char) : Character [lead, trail] char

/-- A lead byte is above 0x80, and no katakana. -/
theorem of_isLead {lead : UInt8} (h : isLead lead = true) :
    0x80 < lead ∧ ¬(0xA1 ≤ lead ∧ lead ≤ 0xDF) ∧ lead ≤ 0xFC := by
  unfold isLead at h
  simp only [Bool.or_eq_true, Bool.and_eq_true, decide_eq_true_eq, UInt8.le_iff_toNat_le,
    UInt8.lt_iff_toNat_lt, UInt8.reduceToNat] at h ⊢
  omega

/-- A step finds a character exactly when the bytes begin with those of the character, all of
which it uses. -/
theorem step_eq_some_iff {byte : UInt8} {rest : List UInt8} {char : Char} {used : Nat} :
    step byte rest = (some char, used) ↔
      ∃ front back, byte :: rest = front ++ back ∧ front.length = used + 1 ∧
        Character front char := by
  constructor
  · intro h
    unfold step at h
    split at h
    · rename_i hbyte
      simp only [Prod.mk.injEq, Option.some.injEq] at h
      obtain ⟨rfl, rfl⟩ := h
      exact ⟨[byte], rest, rfl, rfl, .single hbyte⟩
    · split at h
      · rename_i hkatakana
        simp only [Prod.mk.injEq, Option.some.injEq] at h
        obtain ⟨rfl, rfl⟩ := h
        rw [Bool.and_eq_true, decide_eq_true_eq, decide_eq_true_eq] at hkatakana
        exact ⟨[byte], rest, rfl, rfl, .katakana hkatakana.1 hkatakana.2⟩
      · split at h
        · rename_i hlead
          cases rest with
          | nil => simp at h
          | cons trail back =>
            -- A lead byte uses its trail byte only if the two are a character.
            cases hpair : pair? byte trail with
            | none => simp [hpair] at h
            | some found =>
              simp only [hpair, Prod.mk.injEq, Option.some.injEq] at h
              obtain ⟨rfl, rfl⟩ := h
              exact ⟨[byte, trail], back, rfl, rfl, .pair hlead hpair⟩
        · simp at h
  · intro hexists
    obtain ⟨front, back, hsplit, hlength, hchar⟩ := hexists
    unfold step
    cases hchar with
    | single hbyte =>
      obtain ⟨rfl, rfl⟩ := List.cons.inj hsplit
      obtain rfl : used = 0 := by simpa using hlength.symm
      rw [if_pos hbyte]
    | katakana hlow hhigh =>
      obtain ⟨rfl, rfl⟩ := List.cons.inj hsplit
      obtain rfl : used = 0 := by simpa using hlength.symm
      -- The three forms begin with different bytes, so that the first test that is passed is its
      -- own.
      have habove : ¬byte ≤ 0x80 := by
        intro hle
        exact absurd (UInt8.le_trans hlow hle) (by decide)
      rw [if_neg habove, if_pos (by simpa using ⟨hlow, hhigh⟩)]
    | pair hlead hpair =>
      obtain ⟨rfl, rfl⟩ := List.cons.inj hsplit
      obtain rfl : used = 1 := by simpa using hlength.symm
      obtain ⟨habove, hkatakana, -⟩ := of_isLead hlead
      rw [if_neg (UInt8.not_le.2 habove), if_neg (by simpa using hkatakana), if_pos hlead]
      simp [hpair]

/-- A byte below 0x40 is the only one with its character, and makes no other. -/
theorem Character.eq_ofNat_iff {front : List UInt8} {char : Char} (h : Character front char)
    {byte : UInt8} (hbyte : byte < 0x40) : Char.ofNat byte.toNat = char ↔ byte ∈ front := by
  have hsmall : byte.toNat < 0x40 := hbyte
  have hnumber : (Char.ofNat byte.toNat).toNat = byte.toNat := toNat_ofNat (Or.inl (by omega))
  cases h with
  | single hsingle =>
    rename_i other
    have hle : other.toNat ≤ 0x80 := hsingle
    rw [List.mem_singleton]
    constructor
    · intro heq
      rw [heq, toNat_ofNat (Or.inl (by omega))] at hnumber
      exact (UInt8.toNat_inj.1 hnumber).symm
    · intro heq
      rw [heq]
  | katakana hlow hhigh =>
    rename_i other
    -- The half-width characters are numbered from U+FF61 on.
    have hge : 0xA1 ≤ other.toNat := hlow
    have hle : other.toNat ≤ 0xDF := hhigh
    constructor
    · intro heq
      rw [heq, toNat_ofNat (Or.inr ⟨by omega, by omega⟩)] at hnumber
      omega
    · intro hmem
      rw [List.mem_singleton.1 hmem] at hsmall
      omega
  | pair hlead hpair =>
    -- Neither byte of a pair is below 0x40, and its character is none of ASCII.
    have hchar := le_toNat_of_pair? hpair
    rename_i lead trail
    have htrail : 0x40 ≤ trail.toNat := le_of_pair? hpair
    have habove : 0x80 < lead.toNat := (of_isLead hlead).1
    constructor
    · intro heq
      rw [← heq] at hchar
      omega
    · intro hmem
      simp only [List.mem_cons, List.not_mem_nil, or_false] at hmem
      rcases hmem with rfl | rfl
      · omega
      · omega

/-- No character begins with the first byte of a byte order mark. -/
theorem Character.head_ne {byte : UInt8} {rest : List UInt8} {char : Char}
    (h : Character (byte :: rest) char) : byte ≠ 0xEF ∧ byte ≠ 0xFE ∧ byte ≠ 0xFF := by
  have hbelow : ∀ bound mark : UInt8, byte ≤ bound → bound < mark → byte ≠ mark := by
    intro bound mark hle hlt
    exact UInt8.ne_of_lt (UInt8.lt_of_le_of_lt hle hlt)
  cases h with
  | single hsingle =>
    exact ⟨hbelow _ _ hsingle (by decide), hbelow _ _ hsingle (by decide),
      hbelow _ _ hsingle (by decide)⟩
  | katakana hlow hhigh =>
    exact ⟨hbelow _ _ hhigh (by decide), hbelow _ _ hhigh (by decide),
      hbelow _ _ hhigh (by decide)⟩
  | pair hlead hpair =>
    obtain ⟨-, -, hle⟩ := of_isLead hlead
    refine ⟨?_, hbelow _ _ hle (by decide), hbelow _ _ hle (by decide)⟩
    intro heq
    rw [heq, pair?_mark] at hpair
    simp at hpair

/-- Bytes that begin with none of the marks have no byte order mark. -/
theorem ofMark?_cons {byte : UInt8} (rest : List UInt8)
    (h : byte ≠ 0xEF ∧ byte ≠ 0xFE ∧ byte ≠ 0xFF) : Encoding.ofMark? (byte :: rest) = none := by
  unfold Encoding.ofMark?
  split <;> simp_all

/-! ## Texts -/

/-- The bytes of characters one after the other. -/
inductive WellFormed : List UInt8 → List Char → Prop
  /-- No bytes. -/
  | nil : WellFormed [] []
  /-- The bytes of a character, and of those behind it. -/
  | cons {front back : List UInt8} {char : Char} {chars : List Char} (hchar : Character front char)
    (hrest : WellFormed back chars) : WellFormed (front ++ back) (char :: chars)

/-- Each step finds a character exactly when the bytes are those of characters. -/
theorem decodes_iff_wellFormed {bytes : List UInt8} {chars : List Char} :
    Decodes step bytes chars ↔ WellFormed bytes chars := by
  constructor
  · intro h
    induction h with
    | nil => exact .nil
    | @cons byte rest char used chars hstep hrest ih =>
      obtain ⟨front, back, hsplit, hlength, hchar⟩ := step_eq_some_iff.1 hstep
      -- A step uses the bytes of its character, and the next one starts behind them.
      have hback : rest.drop used = back := by
        rw [← List.drop_succ_cons (a := byte), hsplit, ← hlength, List.drop_left]
      rw [hsplit]
      rw [hback] at ih
      exact .cons hchar ih
  · intro h
    induction h with
    | nil => exact .nil
    | @cons front back char chars hchar hrest ih =>
      cases front with
      | nil => cases hchar
      | cons byte rest =>
        have hstep := step_eq_some_iff.2 ⟨byte :: rest, back, rfl, List.length_cons, hchar⟩
        apply Decodes.cons hstep
        show Decodes step ((rest ++ back).drop rest.length) chars
        rw [List.drop_left]
        exact ih

namespace WellFormed

variable {bytes : List UInt8} {chars : List Char}

/-- A byte below 0x40 is among the bytes exactly when its character is among the characters. -/
theorem ofNat_mem_iff (h : WellFormed bytes chars) {byte : UInt8} (hbyte : byte < 0x40) :
    Char.ofNat byte.toNat ∈ chars ↔ byte ∈ bytes := by
  induction h with
  | nil => simp
  | cons hchar hrest ih => rw [List.mem_cons, List.mem_append, ih, hchar.eq_ofNat_iff hbyte]

/-- Texts one after the other are a text. -/
theorem append {others : List UInt8} {behind : List Char} (h : WellFormed bytes chars)
    (hothers : WellFormed others behind) : WellFormed (bytes ++ others) (chars ++ behind) := by
  induction h with
  | nil => exact hothers
  | cons hchar hrest ih =>
    rw [List.append_assoc, List.cons_append]
    exact .cons hchar ih

/-- A text has no byte order mark. -/
theorem ofMark?_eq_none (h : WellFormed bytes chars) : Encoding.ofMark? bytes = none := by
  cases h with
  | nil => rfl
  | @cons front back char chars hchar hrest =>
    cases front with
    | nil => cases hchar
    | cons byte rest => exact ofMark?_cons _ hchar.head_ne

/-- A text is decoded to its characters, whether malformed bytes would be replaced or refused. -/
theorem decode_eq (h : WellFormed bytes chars) :
    Encoding.shiftJis.decode bytes = String.ofList chars := by
  unfold Encoding.decode Encoding.characters
  rw [h.ofMark?_eq_none]
  have hdecodes : (decodeWith Encoding.shiftJis.step bytes).toList = chars.map some :=
    decodes_iff.1 (decodes_iff_wellFormed.2 h)
  rw [hdecodes, List.map_map]
  congr 1
  exact List.map_id _

end WellFormed

/-- The texts that are accepted are the well-formed ones. -/
theorem decodeStrict_eq_some_iff {bytes : List UInt8} {text : String} :
    Encoding.shiftJis.decodeStrict bytes = some text ↔ WellFormed bytes text.toList :=
  Encoding.decodeStrict_eq_some_iff.trans decodes_iff_wellFormed

end PacScript.Text.ShiftJis
