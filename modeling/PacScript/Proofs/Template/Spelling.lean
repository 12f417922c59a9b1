import PacScript.Template.Kind

/-!
# How a kind may be spelled

A definition text names a kind by one of its tokens (`Kind.tokens`), in small letters or capitals
and with blanks around it. Exactly these texts are read as the kind (`Kind.ofToken_eq_ok_iff`).
-/

namespace PacScript

/-- The tokens of a word kind, in small letters. -/
def WordKind.tokens : WordKind → List String
  | integer => ["uint32", "u32", "int"]
  | float => ["float"]
  | jumpTarget => ["jump", "jump_target"]

/-- The tokens of a tagged variable. -/
def TagWidth.tokens : TagWidth → List String
  | word => ["variable", "var"]
  | half => ["variable2", "var2"]
  | compact => ["compact_variable", "varc"]

/-- The tokens of an element kind. -/
def ElementKind.tokens : ElementKind → List String
  | fixed word => word.tokens
  | tagged width => width.tokens

/-- The tokens of a kind. That of a count and one of an element kind are joined by a colon. -/
def Kind.tokens : Kind → List String
  | fixed word => word.tokens
  | tagged width => width.tokens
  | string => ["string"]
  | counted count element => element.tokens.map fun token => count.token ++ ":" ++ token
  | continuous => ["continuous"]
  | entityId => ["entity_id"]
  | equipId => ["equip_id"]
  | keybindId => ["keybind_id"]

/-- A text spells a kind if it is a token of it, whatever blanks are around it and which of its
letters are capitals. -/
def Kind.Spells (kind : Kind) (text : List Char) : Prop :=
  ∃ token ∈ kind.tokens, (Text.trim text).map Char.toLower = token.toList

/-! ## Tokens in small letters -/

section Tokens

variable {token : String}

/-- A word kind is read from its tokens. -/
theorem WordKind.ofToken?_eq_some_iff {word : WordKind} :
    ofToken? token = some word ↔ token ∈ word.tokens := by
  constructor
  · intro h
    unfold ofToken? at h
    split at h <;> simp at h <;> subst h <;> decide
  · intro h
    cases word <;> simp only [tokens, List.mem_cons, List.not_mem_nil, or_false] at h
    · obtain rfl | rfl | rfl := h <;> rfl
    · obtain rfl := h
      rfl
    · obtain rfl | rfl := h <;> rfl

/-- The layout of a tagged variable is read from its tokens. -/
theorem TagWidth.ofToken?_eq_some_iff {width : TagWidth} :
    ofToken? token = some width ↔ token ∈ width.tokens := by
  constructor
  · intro h
    unfold ofToken? at h
    split at h <;> simp at h <;> subst h <;> decide
  · intro h
    cases width <;> simp only [tokens, List.mem_cons, List.not_mem_nil, or_false] at h <;>
      obtain rfl | rfl := h <;> rfl

/-- A count is read from its token. -/
theorem CountForm.ofToken?_eq_some_iff {form : CountForm} :
    ofToken? token = some form ↔ token = form.token := by
  constructor
  · intro h
    unfold ofToken? at h
    split at h <;> simp at h <;> subst h <;> rfl
  · rintro rfl
    cases form <;> rfl

/-- No token of a tagged variable names a word kind. -/
theorem WordKind.ofToken?_eq_none {width : TagWidth} (h : token ∈ width.tokens) :
    ofToken? token = none := by
  cases width <;> simp only [TagWidth.tokens, List.mem_cons, List.not_mem_nil, or_false] at h <;>
    obtain rfl | rfl := h <;> rfl

/-- An element kind is read from its tokens. -/
theorem ElementKind.ofToken?_eq_some_iff {element : ElementKind} :
    ofToken? token = some element ↔ token ∈ element.tokens := by
  unfold ofToken?
  constructor
  · intro h
    split at h
    case h_1 word hword =>
      obtain rfl := Option.some.inj h
      exact WordKind.ofToken?_eq_some_iff.1 hword
    case h_2 =>
      obtain ⟨width, hwidth, rfl⟩ := Option.map_eq_some_iff.1 h
      exact TagWidth.ofToken?_eq_some_iff.1 hwidth
  · intro h
    cases element with
    | fixed word => rw [WordKind.ofToken?_eq_some_iff.2 h]
    | tagged width =>
      rw [WordKind.ofToken?_eq_none h, TagWidth.ofToken?_eq_some_iff.2 h, Option.map_some]

/-- A kind that is not counted is read from its tokens. -/
theorem Kind.ofSimpleToken?_eq_some_iff {kind : Kind} (hsimple : ':' ∉ token.toList) :
    ofSimpleToken? token = some kind ↔ token ∈ kind.tokens := by
  unfold ofSimpleToken?
  constructor
  · intro h
    split at h
    case h_1 word _ hword =>
      obtain rfl := Option.some.inj h
      exact WordKind.ofToken?_eq_some_iff.1 hword
    case h_2 width _ hwidth =>
      obtain rfl := Option.some.inj h
      exact TagWidth.ofToken?_eq_some_iff.1 hwidth
    case h_3 =>
      split at h <;> simp at h <;> subst h <;> decide
  · intro h
    cases kind with
    | fixed word => rw [WordKind.ofToken?_eq_some_iff.2 h]
    -- The words are tried first, and no token of a width is one of a word.
    | tagged width => rw [WordKind.ofToken?_eq_none h, TagWidth.ofToken?_eq_some_iff.2 h]
    | counted form element =>
      obtain ⟨rest, -, rfl⟩ := List.mem_map.1 h
      simp at hsimple
    | string | continuous | entityId | equipId | keybindId =>
      obtain rfl := List.mem_singleton.1 h
      rfl

end Tokens

/-! ## Kinds -/

/-- There is no colon in the token of a count. -/
theorem CountForm.colon_notMem_token (form : CountForm) : ':' ∉ form.token.toList := by
  cases form <;> decide

/-- A colon in a token parts a count from an element kind. -/
theorem Kind.exists_counted_of_colon_mem {kind : Kind} {token : String} (h : token ∈ kind.tokens)
    (hcolon : ':' ∈ token.toList) : ∃ form element name, kind = .counted form element ∧
      name ∈ element.tokens ∧ token.toList = form.token.toList ++ ':' :: name.toList := by
  cases kind with
  | counted form element =>
    obtain ⟨name, hname, rfl⟩ := List.mem_map.1 h
    exact ⟨form, element, name, rfl, hname, by simp⟩
  | fixed word =>
    have hnone : ∀ token ∈ word.tokens, ':' ∉ token.toList := by cases word <;> decide
    exact absurd hcolon (hnone token h)
  | tagged width =>
    have hnone : ∀ token ∈ width.tokens, ':' ∉ token.toList := by cases width <;> decide
    exact absurd hcolon (hnone token h)
  | string | continuous | entityId | equipId | keybindId =>
    obtain rfl := List.mem_singleton.1 h
    exact absurd hcolon (by decide)

/-- A text is split at its first colon. -/
theorem split_at_colon {before after : List Char} (h : ':' ∉ before) :
    (before ++ ':' :: after).takeWhile (· != ':') = before ∧
      (before ++ ':' :: after).dropWhile (· != ':') = ':' :: after := by
  have hbefore : ∀ c ∈ before, (c != ':') = true := by
    intro c hc
    rw [bne_iff_ne]
    rintro rfl
    exact h hc
  rw [List.takeWhile_append_of_pos hbefore, List.dropWhile_append_of_pos hbefore]
  simp

/-- A kind is read from the texts that spell it. -/
theorem Kind.ofToken_eq_ok_iff {kind : Kind} {text : List Char} :
    ofToken text = .ok kind ↔ kind.Spells text := by
  unfold ofToken Spells
  dsimp only
  generalize (Text.trim text).map Char.toLower = token
  split
  case isTrue hcolon =>
    obtain ⟨before, after, rfl, hbefore⟩ := List.eq_append_cons_of_mem hcolon
    rw [(split_at_colon hbefore).1, (split_at_colon hbefore).2, List.drop_one, List.tail_cons]
    constructor
    · intro h
      split at h
      case h_3 form element hform helement =>
        obtain rfl := Except.ok.inj h
        refine ⟨form.token ++ ":" ++ String.ofList after,
          List.mem_map_of_mem (ElementKind.ofToken?_eq_some_iff.1 helement), ?_⟩
        rw [← CountForm.ofToken?_eq_some_iff.1 hform]
        simp
      all_goals cases h
    · rintro ⟨token, htoken, heq⟩
      obtain ⟨form, element, name, rfl, hname, hsplit⟩ :=
        exists_counted_of_colon_mem htoken (heq ▸ hcolon)
      -- The first colon is the only place where both texts can be split.
      rw [hsplit] at heq
      have hfront := congrArg (List.takeWhile (· != ':')) heq
      have hback := congrArg (List.dropWhile (· != ':')) heq
      rw [(split_at_colon hbefore).1, (split_at_colon form.colon_notMem_token).1] at hfront
      rw [(split_at_colon hbefore).2, (split_at_colon form.colon_notMem_token).2] at hback
      rw [hfront, (List.cons.inj hback).2, String.ofList_toList, String.ofList_toList,
        CountForm.ofToken?_eq_some_iff.2 rfl, ElementKind.ofToken?_eq_some_iff.2 hname]
  case isFalse hsimple =>
    have hread : ofSimpleToken? (String.ofList token) = some kind ↔ _ :=
      ofSimpleToken?_eq_some_iff (by rwa [String.toList_ofList])
    constructor
    · intro h
      split at h
      case h_1 found hfound =>
        obtain rfl := Except.ok.inj h
        exact ⟨_, hread.1 hfound, String.toList_ofList.symm⟩
      case h_2 => cases h
    · rintro ⟨name, hname, rfl⟩
      rw [String.ofList_toList] at hread
      rw [String.ofList_toList, hread.2 hname]

end PacScript
