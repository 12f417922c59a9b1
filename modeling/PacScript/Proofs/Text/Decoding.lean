import PacScript.Text.Encoding

/-!
# What a sequence of steps decodes

Repeating a step produces its results one after the other (`toList_decodeWith_cons`). `Decodes` is
the case in which every step finds a character, and a text is decoded strictly exactly in this case
(`Encoding.decodeStrict_eq_some_iff`).
-/

namespace PacScript

namespace Text

variable {step : Step}

/-- The characters that were found stand in front of those that are found later. -/
theorem toList_decodeFrom (found : Array (Option Char)) (bytes : List UInt8) :
    (decodeFrom step found bytes).toList = found.toList ++ (decodeWith step bytes).toList := by
  unfold decodeWith
  -- A step says itself how many bytes it uses, so only the number of those that are left falls.
  induction hlength : bytes.length using Nat.strongRecOn generalizing found bytes with
  | ind length ih =>
    cases bytes with
    | nil => simp [decodeFrom]
    | cons byte rest =>
      have hshorter : (rest.drop (step byte rest).2).length < length := by
        rw [← hlength, List.length_drop, List.length_cons]
        omega
      have hrest := fun found => ih _ hshorter found _ rfl
      rw [decodeFrom, decodeFrom]
      dsimp only
      rw [hrest, hrest (#[].push _), Array.toList_push, List.append_assoc]
      rfl

/-- No bytes decode to no text. -/
@[simp] theorem toList_decodeWith_nil : (decodeWith step []).toList = [] := by
  simp [decodeWith, decodeFrom]

/-- The first step, and those after the bytes that it uses. -/
theorem toList_decodeWith_cons (byte : UInt8) (rest : List UInt8) :
    (decodeWith step (byte :: rest)).toList =
      (step byte rest).1 :: (decodeWith step (rest.drop (step byte rest).2)).toList := by
  rw [decodeWith, decodeFrom, toList_decodeFrom]
  rfl

/-- The bytes are read as the characters, and each step finds one. -/
inductive Decodes (step : Step) : List UInt8 → List Char → Prop
  /-- No bytes are no characters. -/
  | nil : Decodes step [] []
  /-- A character, and those behind the bytes that it takes. -/
  | cons {byte : UInt8} {rest : List UInt8} {char : Char} {used : Nat} {chars : List Char}
    (hstep : step byte rest = (some char, used)) (hrest : Decodes step (rest.drop used) chars) :
    Decodes step (byte :: rest) (char :: chars)

/-- The bytes are read as the characters when nothing that is found is malformed. -/
theorem decodes_iff {bytes : List UInt8} {chars : List Char} :
    Decodes step bytes chars ↔ (decodeWith step bytes).toList = chars.map some := by
  constructor
  · intro h
    induction h with
    | nil => rw [toList_decodeWith_nil, List.map_nil]
    | cons hstep hrest ih => rw [toList_decodeWith_cons, hstep, ih, List.map_cons]
  · intro h
    induction chars generalizing bytes with
    | nil =>
      cases bytes with
      | nil => exact Decodes.nil
      | cons byte rest => simp [toList_decodeWith_cons] at h
    | cons char chars ih =>
      cases bytes with
      | nil => simp at h
      | cons byte rest =>
        rw [toList_decodeWith_cons, List.map_cons, List.cons.injEq] at h
        exact Decodes.cons (Prod.ext h.1 rfl) (ih h.2)

end Text

/-- A list without `none` is that of its values. -/
theorem mapM_id_eq_some_iff {found : List (Option Char)} {chars : List Char} :
    found.mapM id = some chars ↔ found = chars.map some := by
  induction found generalizing chars with
  | nil => cases chars <;> simp
  | cons first found ih =>
    rw [List.mapM_cons]
    cases first with
    | none => cases chars <;> simp
    | some char =>
      simp only [id_eq, Option.bind_eq_bind, Option.bind_some, Option.bind_eq_some_iff, ih,
        Option.pure_def, Option.some.injEq]
      -- The first of the values is that of the first element, and the others are those of the rest.
      cases chars with
      | nil => simp
      | cons other chars =>
        rw [List.map_cons, List.cons.injEq, Option.some.injEq]
        constructor
        · intro hexists
          obtain ⟨others, hothers, heq⟩ := hexists
          obtain ⟨rfl, rfl⟩ := List.cons.inj heq
          exact ⟨rfl, hothers⟩
        · intro h
          obtain ⟨rfl, hchars⟩ := h
          exact ⟨chars, hchars, rfl⟩

/-- A text is decoded strictly when each of its characters is found. -/
theorem Encoding.decodeStrict_eq_some_iff {encoding : Encoding} {bytes : List UInt8}
    {text : String} :
    encoding.decodeStrict bytes = some text ↔ Text.Decodes encoding.step bytes text.toList := by
  unfold decodeStrict
  rw [Text.decodes_iff, ← mapM_id_eq_some_iff, Option.map_eq_some_iff]
  constructor
  · intro hexists
    obtain ⟨chars, hchars, rfl⟩ := hexists
    rw [String.toList_ofList]
    exact hchars
  · intro h
    exact ⟨_, h, String.ofList_toList⟩

end PacScript
