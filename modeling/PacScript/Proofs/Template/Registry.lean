import Mathlib.Data.List.Induction
import PacScript.Template.Registry

/-!
# What a registry finds

Of the templates that a registry is made of, the last one with a signature is found under it
(`Registry.get?_ofList`), and those that are found are the ones the registry lists
(`Registry.mem_toList_iff`).
-/

namespace PacScript.Registry

/-- An empty registry has no templates. -/
@[simp] theorem get?_empty (signature : UInt32) : empty.get? signature = none := by
  simp [empty, get?]

/-- A signature is known when it has a template. -/
theorem contains_eq_isSome_get? (registry : Registry) (signature : UInt32) :
    registry.contains signature = (registry.get? signature).isSome :=
  Std.TreeMap.contains_eq_isSome_getElem?

/-- A template takes the place of the one with its signature and of no other. -/
theorem get?_insert (registry : Registry) (template : Template) (signature : UInt32) :
    (registry.insert template).get? signature =
      if template.signature = signature then some template else registry.get? signature := by
  have hinsert : (registry.insert template).get? signature =
      (registry.templates.insert template.signature template)[signature]? := rfl
  rw [hinsert, Std.TreeMap.getElem?_insert]
  by_cases heq : template.signature = signature
  · rw [if_pos heq, if_pos (Std.LawfulEqCmp.compare_eq_iff_eq.2 heq)]
  · rw [if_neg heq, if_neg (mt Std.LawfulEqCmp.compare_eq_iff_eq.1 heq)]
    rfl

/-- Of the templates with a signature the last one is found. -/
theorem get?_ofList (templates : List Template) (signature : UInt32) :
    (ofList templates).get? signature =
      templates.reverse.find? fun template => template.signature == signature := by
  -- The templates are registered from front to back, so the induction is from the back.
  induction templates using List.reverseRecOn with
  | nil => exact get?_empty signature
  | append_singleton templates template ih =>
    have hlast : ofList (templates ++ [template]) = (ofList templates).insert template :=
      List.foldl_append
    rw [hlast, get?_insert, ih, List.reverse_concat, List.find?_cons]
    by_cases heq : template.signature = signature
    · rw [if_pos heq, beq_iff_eq.2 heq]
    · rw [if_neg heq, beq_eq_false_iff_ne.2 heq]

/-- Templates of other signatures do not matter for what is found. -/
theorem get?_ofList_append_append {front extra back : List Template} {signature : UInt32}
    (h : ∀ template ∈ extra, template.signature ≠ signature) :
    (ofList (front ++ extra ++ back)).get? signature =
      (ofList (front ++ back)).get? signature := by
  have hextra : (extra.reverse.find? fun template => template.signature == signature) = none := by
    rw [List.find?_eq_none]
    intro template hmem
    rw [beq_iff_eq]
    exact h template (List.mem_reverse.1 hmem)
  simp only [get?_ofList, List.reverse_append, List.find?_append, hextra, Option.none_or]

/-- The templates that are listed are those that are found. -/
theorem mem_toList_iff {registry : Registry} {template : Template} :
    template ∈ registry.toList ↔ registry.get? template.signature = some template := by
  unfold toList get?
  rw [List.mem_map]
  constructor
  · intro hexists
    obtain ⟨⟨signature, found⟩, hmem, rfl⟩ := hexists
    rw [Std.TreeMap.mem_toList_iff_getElem?_eq_some] at hmem
    rw [registry.signature_eq hmem]
    exact hmem
  · intro h
    exact ⟨(template.signature, template),
      Std.TreeMap.mem_toList_iff_getElem?_eq_some.2 h, rfl⟩

end PacScript.Registry
