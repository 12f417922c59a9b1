import Mathlib.Data.Bool.AllAny
import Mathlib.Data.List.Forall2
import Mathlib.Data.Nat.Digits.Defs
import PacScript.Text.Blank
import PacScript.Text.Numeral

/-!
# Hexadecimal numerals

How a number may be written in hexadecimal: digits in either case, any number of zeros before them,
and with or without a mark of the base. However it is written, it is read as the number
(`Hexadecimal.hexNumeral?_eq`). Besides these only numerals with a plus sign before the digits are
read (`hexNumeral?_eq_some_iff`).
-/

namespace PacScript.Text

/-- A character is the hexadecimal digit of a value, as a small letter or a capital one. -/
def IsHexDigit (value : Nat) (c : Char) : Prop :=
  value < 16 ∧ (c = Nat.digitChar value ∨ c = (Nat.digitChar value).toUpper)

instance (value : Nat) (c : Char) : Decidable (IsHexDigit value c) :=
  inferInstanceAs (Decidable (_ ∧ _))

/-- Hexadecimal digits of a number, the most significant one first. -/
def HexDigits (n : Nat) (text : List Char) : Prop :=
  ∃ values, List.Forall₂ IsHexDigit values text ∧ text ≠ [] ∧ Nat.ofDigits 16 values.reverse = n

/-- A hexadecimal numeral of a number, with or without a mark of the base. -/
inductive Hexadecimal (n : Nat) : List Char → Prop
  /-- Digits alone. -/
  | bare {text : List Char} (hdigits : HexDigits n text) : Hexadecimal n text
  /-- Digits behind `0x` or `0X`. -/
  | marked {x : Char} {text : List Char} (hx : x = 'x' ∨ x = 'X') (hdigits : HexDigits n text) :
    Hexadecimal n ('0' :: x :: text)

/-- A hexadecimal numeral of a number, before whose digits a plus sign may stand. -/
inductive SignedHexadecimal (n : Nat) : List Char → Prop
  /-- A mark of the base, a sign, or neither, and digits. -/
  | digits {mark sign text : List Char} (hmark : mark = [] ∨ mark = ['0', 'x'] ∨ mark = ['0', 'X'])
    (hsign : sign = [] ∨ sign = ['+']) (hdigits : HexDigits n text) :
    SignedHexadecimal n (mark ++ (sign ++ text))

/-- The characters of a numeral: digits in either case, and the mark of the base. -/
def hexCharacters : List Char :=
  ['0', '1', '2', '3', '4', '5', '6', '7', '8', '9', 'a', 'b', 'c', 'd', 'e', 'f',
    'A', 'B', 'C', 'D', 'E', 'F', 'x', 'X']

/-! ## Digits -/

/-- What is said of a digit, small or capital, checked for the sixteen values. -/
theorem forall_hexDigit : ∀ value < 16, [Nat.digitChar value, (Nat.digitChar value).toUpper].all
    fun c => digit? 16 c = some value ∧ c ∈ hexCharacters ∧ c ≠ 'x' ∧ c ≠ 'X' := by
  decide

namespace IsHexDigit

variable {value : Nat} {c : Char}

/-- A digit is read as its value, and is a character of a numeral other than the mark. -/
theorem digit?_eq_and_mem (h : IsHexDigit value c) :
    digit? 16 c = some value ∧ c ∈ hexCharacters ∧ c ≠ 'x' ∧ c ≠ 'X' := by
  obtain ⟨hvalue, hc⟩ := h
  exact List.all_iff_forall_prop.1 (forall_hexDigit value hvalue) c (by simpa using hc)

/-- A digit is read as its value. -/
theorem digit?_eq (h : IsHexDigit value c) : digit? 16 c = some value :=
  h.digit?_eq_and_mem.1

end IsHexDigit

/-- Only a digit is read as one. -/
theorem isHexDigit_of_digit?_eq_some {value : Nat} {c : Char} (h : digit? 16 c = some value) :
    IsHexDigit value c := by
  -- The code of `f` is 102, and all other digits stand in front of it.
  have hall : ∀ n < 103, (digit? 16 (Char.ofNat n)).all fun value =>
      IsHexDigit value (Char.ofNat n) := by decide
  have hlt : c.toNat < 103 := by
    by_contra hge
    have hgt : ∀ last : Char, last.toNat < 103 → ¬ c ≤ last := by
      intro last hlast hle
      exact hge (Nat.lt_of_le_of_lt (show c.toNat ≤ last.toNat from hle) hlast)
    simp only [digit?] at h
    rw [if_neg fun hdigit => hgt '9' (by decide) hdigit.2,
      if_neg fun hsmall => hgt 'f' (by decide) hsmall.2,
      if_neg fun hcapital => hgt 'F' (by decide) hcapital.2] at h
    cases h
  have hdigit := hall c.toNat hlt
  rw [Char.ofNat_toNat, h] at hdigit
  simpa using hdigit

namespace HexDigits

variable {n bound : Nat} {text : List Char}

/-- The digits of a number are characters of a numeral other than the mark. -/
theorem mem_hexCharacters (h : HexDigits n text) {c : Char} (hc : c ∈ text) :
    c ∈ hexCharacters ∧ c ≠ 'x' ∧ c ≠ 'X' := by
  obtain ⟨values, hvalues, -, -⟩ := h
  induction hvalues with
  | nil => simp at hc
  | cons hdigit _ ih =>
    obtain rfl | hc := List.mem_cons.1 hc
    · exact hdigit.digit?_eq_and_mem.2
    · exact ih hc

/-- The digits are read from the most significant one on. -/
theorem foldlM_digit? {values : List Nat} (h : List.Forall₂ IsHexDigit values text) (start : Nat) :
    text.foldlM (fun value c => (digit? 16 c).map (value * 16 + ·)) start =
      some (values.foldl (fun value digit => digit + 16 * value) start) := by
  induction h generalizing start with
  | nil => rfl
  | cons hdigit _ ih =>
    simp only [List.foldlM_cons, List.foldl_cons, hdigit.digit?_eq, Option.map_some,
      Option.bind_eq_bind, Option.bind_some, ih]
    rw [Nat.add_comm, Nat.mul_comm]

/-- Digits are read as their number. -/
theorem ofDigits?_eq (h : HexDigits n text) : ofDigits? 16 text = some n := by
  obtain ⟨values, hvalues, hne, rfl⟩ := h
  have hread : ofDigits? 16 text =
      text.foldlM (fun value c => (digit? 16 c).map (value * 16 + ·)) 0 := by
    cases text with
    | nil => exact absurd rfl hne
    | cons c rest => rfl
  rw [hread, foldlM_digit? hvalues, Nat.ofDigits_eq_foldr, List.foldr_reverse]
  simp

/-- Digits below the bound are a numeral. -/
theorem numeral?_eq (h : HexDigits n text) (hn : n < bound) : numeral? 16 bound text = some n := by
  unfold numeral?
  split
  · rename_i rest
    exact absurd (h.mem_hexCharacters List.mem_cons_self).1 (by decide)
  · show (ofDigits? 16 text).filter (· < bound) = some n
    rw [h.ofDigits?_eq, Option.filter_some, decide_eq_true hn, if_pos rfl]

end HexDigits

/-- The digits of a number, without needless zeros, are digits of it. -/
theorem hexDigits_toDigits (n : Nat) : HexDigits n (Nat.toDigits 16 n) := by
  induction n using Nat.strongRecOn with
  | ind n ih =>
    by_cases hn : n < 16
    · rw [Nat.toDigits_of_lt_base hn]
      exact ⟨[n], .cons ⟨hn, .inl rfl⟩ .nil, by simp, by simp⟩
    · obtain ⟨values, hvalues, -, hvalue⟩ := ih (n / 16) (by omega)
      have hdigit : IsHexDigit (n % 16) (Nat.digitChar (n % 16)) :=
        ⟨Nat.mod_lt _ (by decide), .inl rfl⟩
      rw [Nat.toDigits_of_base_le (by decide) (Nat.not_lt.1 hn)]
      refine ⟨values ++ [n % 16], List.rel_append hvalues (.cons hdigit .nil), by simp, ?_⟩
      rw [List.reverse_append, List.reverse_singleton, List.singleton_append, Nat.ofDigits_cons,
        hvalue]
      exact Nat.mod_add_div n 16

namespace Hexadecimal

variable {n bound : Nat} {text : List Char}

/-- A numeral of a number below the bound is read as the number. -/
theorem hexNumeral?_eq (h : Hexadecimal n text) (hn : n < bound) :
    hexNumeral? bound text = some n := by
  cases h with
  | bare hdigits =>
    -- Digits alone are not taken for a mark of the base, as `x` is no digit.
    unfold hexNumeral?
    split
    · exact absurd rfl (hdigits.mem_hexCharacters (c := 'x') (by simp)).2.1
    · exact absurd rfl (hdigits.mem_hexCharacters (c := 'X') (by simp)).2.2
    · exact hdigits.numeral?_eq hn
  | marked hx hdigits =>
    obtain rfl | rfl := hx
    · exact hdigits.numeral?_eq hn
    · exact hdigits.numeral?_eq hn

/-- A numeral has only the characters of numerals. -/
theorem mem_hexCharacters (h : Hexadecimal n text) {c : Char} (hc : c ∈ text) :
    c ∈ hexCharacters := by
  cases h with
  | bare hdigits => exact (hdigits.mem_hexCharacters hc).1
  | marked hx hdigits =>
    simp only [List.mem_cons] at hc
    obtain rfl | rfl | hc := hc
    · decide
    · obtain rfl | rfl := hx <;> decide
    · exact (hdigits.mem_hexCharacters hc).1

/-- A numeral has a character. -/
theorem ne_nil (h : Hexadecimal n text) : text ≠ [] := by
  cases h with
  | bare hdigits =>
    obtain ⟨values, -, hne, -⟩ := hdigits
    exact hne
  | marked hx hdigits => exact List.cons_ne_nil _ _

end Hexadecimal

/-! ## What is read as a number -/

section Read

variable {n bound : Nat} {text : List Char}

/-- What is read digit by digit consists of digits. -/
theorem exists_values_of_foldlM_digit? {start : Nat}
    (h : text.foldlM (fun value c => (digit? 16 c).map (value * 16 + ·)) start = some n) :
    ∃ values, List.Forall₂ IsHexDigit values text ∧
      values.foldl (fun value digit => digit + 16 * value) start = n := by
  induction text generalizing start with
  | nil => exact ⟨[], .nil, Option.some.inj h⟩
  | cons c text ih =>
    rw [List.foldlM_cons, Option.bind_eq_bind, Option.bind_eq_some_iff] at h
    obtain ⟨next, hnext, hrest⟩ := h
    obtain ⟨value, hvalue, rfl⟩ := Option.map_eq_some_iff.1 hnext
    obtain ⟨values, hvalues, heq⟩ := ih hrest
    refine ⟨value :: values, .cons (isHexDigit_of_digit?_eq_some hvalue) hvalues, ?_⟩
    rw [List.foldl_cons, Nat.add_comm, Nat.mul_comm]
    exact heq

/-- Digits are read as their number, and nothing else is. -/
theorem ofDigits?_eq_some_iff : ofDigits? 16 text = some n ↔ HexDigits n text := by
  refine ⟨fun h => ?_, fun h => h.ofDigits?_eq⟩
  cases text with
  | nil => cases h
  | cons c rest =>
    obtain ⟨values, hvalues, heq⟩ := exists_values_of_foldlM_digit? h
    refine ⟨values, hvalues, List.cons_ne_nil _ _, ?_⟩
    rw [Nat.ofDigits_eq_foldr, List.foldr_reverse]
    exact heq

/-- Digits are read as a numeral if their number is below the bound, with or without a plus sign in
front of them, and nothing else is. -/
theorem numeral?_eq_some_iff : numeral? 16 bound text = some n ↔
    n < bound ∧ ∃ sign digits, (sign = [] ∨ sign = ['+']) ∧ HexDigits n digits ∧
      text = sign ++ digits := by
  constructor
  · intro h
    unfold numeral? at h
    split at h
    · rename_i rest
      obtain ⟨hread, hlt⟩ := Option.filter_eq_some_iff.1 h
      exact ⟨of_decide_eq_true hlt, ['+'], rest, .inr rfl, ofDigits?_eq_some_iff.1 hread, rfl⟩
    · obtain ⟨hread, hlt⟩ := Option.filter_eq_some_iff.1 h
      exact ⟨of_decide_eq_true hlt, [], text, .inl rfl, ofDigits?_eq_some_iff.1 hread, rfl⟩
  · rintro ⟨hn, sign, digits, rfl | rfl, hdigits, rfl⟩
    · exact hdigits.numeral?_eq hn
    · show (ofDigits? 16 digits).filter (· < bound) = some n
      rw [hdigits.ofDigits?_eq, Option.filter_some, decide_eq_true hn, if_pos rfl]

/-- A hexadecimal numeral is read as its number if this is below the bound, and nothing else is
read. -/
theorem hexNumeral?_eq_some_iff :
    hexNumeral? bound text = some n ↔ n < bound ∧ SignedHexadecimal n text := by
  constructor
  · intro h
    unfold hexNumeral? at h
    split at h
    · obtain ⟨hn, sign, digits, hsign, hdigits, rfl⟩ := numeral?_eq_some_iff.1 h
      exact ⟨hn, .digits (.inr (.inl rfl)) hsign hdigits⟩
    · obtain ⟨hn, sign, digits, hsign, hdigits, rfl⟩ := numeral?_eq_some_iff.1 h
      exact ⟨hn, .digits (.inr (.inr rfl)) hsign hdigits⟩
    · obtain ⟨hn, sign, digits, hsign, hdigits, rfl⟩ := numeral?_eq_some_iff.1 h
      exact ⟨hn, .digits (.inl rfl) hsign hdigits⟩
  · rintro ⟨hn, @⟨mark, sign, digits, hmark, hsign, hdigits⟩⟩
    -- Behind a mark the numeral is what is left. Without one, digits cannot be taken for a mark.
    have hread : numeral? 16 bound (sign ++ digits) = some n :=
      numeral?_eq_some_iff.2 ⟨hn, sign, digits, hsign, hdigits, rfl⟩
    obtain rfl | rfl | rfl := hmark
    · obtain rfl | rfl := hsign
      · exact (Hexadecimal.bare hdigits).hexNumeral?_eq hn
      · exact hread
    · exact hread
    · exact hread

end Read

end PacScript.Text
