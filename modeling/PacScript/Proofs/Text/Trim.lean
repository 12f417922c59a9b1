import Mathlib.Data.List.DropRight
import PacScript.Text.Blank

/-!
# Trimming and splitting

What `trim` leaves of a text is the text without blanks at its ends (`exists_trim`), and blanks that
are put around it are taken away again (`trim_blanks`). A separator that is no blank is not touched,
so that it does not matter for the trimmed parts of a text whether the text is trimmed before it is
split (`map_trim_splitOn_trim`).
-/

namespace PacScript.Text

/-- A text of blanks only. -/
def AllBlank (text : List Char) : Prop :=
  ∀ c ∈ text, isBlank c = true

instance (text : List Char) : Decidable (AllBlank text) :=
  List.decidableBAll (isBlank · = true) text

variable {text before after : List Char}

/-- Characters that are no blanks are not among blanks. -/
theorem AllBlank.notMem (h : AllBlank text) {c : Char} (hc : isBlank c = false) : c ∉ text := by
  intro hmem
  rw [h c hmem] at hc
  simp at hc

/-- Trimming drops the blanks in front and then those behind. -/
theorem trim_eq_rdropWhile (text : List Char) :
    trim text = (text.dropWhile isBlank).rdropWhile isBlank := rfl

/-- Blanks in front of a text are taken away. -/
theorem trim_append_left (hbefore : AllBlank before) : trim (before ++ text) = trim text := by
  rw [trim, trim, List.dropWhile_append_of_pos hbefore]

/-- Blanks behind a text are taken away. -/
theorem trim_append_right (hafter : AllBlank after) : trim (text ++ after) = trim text := by
  have hnone : after.dropWhile isBlank = [] := List.dropWhile_eq_nil_iff.2 hafter
  have hreverse : AllBlank after.reverse := fun c hc => hafter c (List.mem_reverse.1 hc)
  rw [trim, trim, List.dropWhile_append]
  by_cases hblank : (text.dropWhile isBlank).isEmpty
  · rw [if_pos hblank, hnone, List.isEmpty_iff.1 hblank]
  · rw [if_neg hblank, List.reverse_append, List.dropWhile_append_of_pos hreverse]

/-- Blanks around a text are taken away. -/
theorem trim_blanks (hbefore : AllBlank before) (hafter : AllBlank after) :
    trim (before ++ text ++ after) = trim text := by
  rw [trim_append_right hafter, trim_append_left hbefore]

/-- A text is what trimming leaves of it, with blanks around. -/
theorem exists_trim (text : List Char) :
    ∃ before after, AllBlank before ∧ AllBlank after ∧ text = before ++ trim text ++ after := by
  refine ⟨text.takeWhile isBlank, (text.dropWhile isBlank).rtakeWhile isBlank, ?_, ?_, ?_⟩
  · intro c hc
    exact List.mem_takeWhile_imp hc
  · intro c hc
    exact List.mem_rtakeWhile_imp hc
  · rw [trim_eq_rdropWhile, List.append_assoc, List.rdropWhile_append_rtakeWhile,
      List.takeWhile_append_dropWhile]

/-- A text that begins and ends with something else than a blank is left as it is. -/
theorem trim_eq_self (hhead : ∀ c ∈ text.head?, isBlank c = false)
    (hlast : ∀ c ∈ text.getLast?, isBlank c = false) : trim text = text := by
  have hfront : text.dropWhile isBlank = text := by
    cases text with
    | nil => rfl
    | cons c rest => rw [List.dropWhile_cons, hhead c rfl, if_neg Bool.false_ne_true]
  rw [trim_eq_rdropWhile, hfront, List.rdropWhile_eq_self_iff]
  intro hne
  rw [hlast _ (List.getLast?_eq_getLast_of_ne_nil hne)]
  exact Bool.false_ne_true

/-- What is left of a text begins with its first character that is no blank. -/
theorem head?_trim {c : Char} (hbefore : AllBlank before) (hc : isBlank c = false)
    (rest : List Char) : (trim (before ++ c :: rest)).head? = some c := by
  have hfront : (c :: rest).dropWhile isBlank = c :: rest := by
    rw [List.dropWhile_cons, hc, if_neg Bool.false_ne_true]
  rw [trim_append_left hbefore, trim_eq_rdropWhile, hfront]
  obtain ⟨dropped, hdropped⟩ := List.rdropWhile_prefix isBlank (c :: rest)
  cases hleft : (c :: rest).rdropWhile isBlank with
  | nil =>
    have hblank := List.rdropWhile_eq_nil_iff.1 hleft c List.mem_cons_self
    rw [hc] at hblank
    simp at hblank
  | cons first left =>
    rw [hleft, List.cons_append] at hdropped
    rw [List.head?_cons, (List.cons.inj hdropped).1]

/-! ## Parts of a text -/

section Parts

variable {separator : Char} (hseparator : isBlank separator = false)
include hseparator

/-- No blank is the separator. -/
theorem ne_separator {c : Char} (hc : isBlank c = true) : (c == separator) = false := by
  rw [beq_eq_false_iff_ne]
  rintro rfl
  rw [hc] at hseparator
  simp at hseparator

/-- Blanks in front of a text are part of its first part. -/
theorem map_trim_splitOn_append_left (hbefore : AllBlank before) :
    ((before ++ text).splitOn separator).map trim = (text.splitOn separator).map trim := by
  induction before with
  | nil => rfl
  | cons c before ih =>
    have hc : isBlank c = true := hbefore c List.mem_cons_self
    have hrest : AllBlank before := fun other hmem => hbefore other (List.mem_cons_of_mem _ hmem)
    rw [← ih hrest, List.cons_append, List.splitOn_cons_eq_if_modifyHead,
      ne_separator hseparator hc, if_neg Bool.false_ne_true]
    cases (before ++ text).splitOn separator with
    | nil => rfl
    | cons first parts =>
      have hone : AllBlank [c] := by simpa [AllBlank] using hc
      rw [List.modifyHead_cons, List.map_cons, List.map_cons,
        show c :: first = [c] ++ first from rfl, trim_append_left hone]

/-- Blanks behind a text are part of its last part. -/
theorem exists_splitOn_append_right (text : List Char) (hafter : AllBlank after) :
    ∃ parts last, text.splitOn separator = parts ++ [last] ∧
      (text ++ after).splitOn separator = parts ++ [last ++ after] := by
  induction text with
  | nil =>
    exact ⟨[], [], rfl, List.splitOn_eq_singleton (hafter.notMem hseparator)⟩
  | cons c text ih =>
    obtain ⟨parts, last, htext, happend⟩ := ih
    rw [List.cons_append, List.splitOn_cons_eq_if_modifyHead, List.splitOn_cons_eq_if_modifyHead,
      htext, happend]
    by_cases hc : (c == separator) = true
    · rw [if_pos hc, if_pos hc]
      exact ⟨[] :: parts, last, rfl, rfl⟩
    · rw [if_neg hc, if_neg hc]
      cases parts with
      | nil => exact ⟨[], c :: last, rfl, rfl⟩
      | cons first parts => exact ⟨(c :: first) :: parts, last, rfl, rfl⟩

/-- The trimmed parts of a text are those of the trimmed text. -/
theorem map_trim_splitOn_trim (text : List Char) :
    ((trim text).splitOn separator).map trim = (text.splitOn separator).map trim := by
  obtain ⟨before, after, hbefore, hafter, htext⟩ := exists_trim text
  obtain ⟨parts, last, hparts, happend⟩ :=
    exists_splitOn_append_right hseparator (trim text) hafter
  conv_rhs => rw [htext, List.append_assoc, map_trim_splitOn_append_left hseparator hbefore]
  rw [hparts, happend, List.map_append, List.map_append, List.map_singleton, List.map_singleton,
    trim_append_right hafter]

end Parts

end PacScript.Text
