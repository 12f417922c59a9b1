import Mathlib.Data.List.Dedup
import PacScript.Proofs.Template.Registry

/-!
# What a name leads to

A registry that is made from a list serves the list's last word: under a signature stands the last
template with this signature, and a name leads to the last template with this name, or nowhere
(`Registry.serves_ofList`). It leads nowhere when that template was replaced under another name
(`Registry.byName?_ofList_eq_some_iff`). An earlier template that has the name too may then still be
registered, and cannot be found by it (`Registry.isSome_byName?_ofList`).

The step behind all this is what registering one template does to the signature that a name leads
to (`Registry.getElem?_signatures_insert`).
-/

namespace PacScript

namespace Template

/-- A template is the last one of a list of which `P` holds. -/
def IsLast (template : Template) (templates : List Template) (P : Template → Prop) : Prop :=
  ∃ front back, templates = front ++ template :: back ∧ P template ∧ ∀ other ∈ back, ¬ P other

variable {template new : Template} {templates : List Template} {P : Template → Prop}

/-- The last one is the first that is found from the end of the list. -/
theorem isLast_iff_find? [DecidablePred P] :
    template.IsLast templates P ↔
      (templates.reverse.find? fun other => P other) = some template := by
  rw [List.find?_eq_some_iff_append]
  constructor
  · intro h
    obtain ⟨front, back, rfl, hholds, hback⟩ := h
    refine ⟨by simpa using hholds, back.reverse, front.reverse, by simp, ?_⟩
    intro other hmem
    simpa using hback other (List.mem_reverse.1 hmem)
  · intro h
    obtain ⟨hholds, after, before, hreverse, hafter⟩ := h
    refine ⟨before.reverse, after.reverse, ?_, by simpa using hholds, ?_⟩
    · rw [← List.reverse_reverse templates, hreverse]
      simp
    · intro other hmem
      simpa using hafter other (List.mem_reverse.1 hmem)

/-- Nothing is the last one in an empty list. -/
theorem not_isLast_nil : ¬ template.IsLast [] P := by
  intro h
  obtain ⟨front, back, hnil, -⟩ := h
  simp at hnil

/-- A template that is added at the end is the last one if it is in question at all. -/
theorem isLast_append_singleton :
    template.IsLast (templates ++ [new]) P ↔
      template = new ∧ P new ∨ ¬ P new ∧ template.IsLast templates P := by
  classical
  simp only [isLast_iff_find?, List.reverse_concat, List.find?_cons]
  by_cases hnew : P new
  · simp [hnew, eq_comm]
  · simp [hnew]

/-- The last template with a property has it. -/
theorem IsLast.holds (h : template.IsLast templates P) : P template := by
  obtain ⟨front, back, -, hholds, -⟩ := h
  exact hholds

/-- The last template with a property is one of the list. -/
theorem IsLast.mem (h : template.IsLast templates P) : template ∈ templates := by
  obtain ⟨front, back, rfl, -⟩ := h
  simp

/-- There is one last template. -/
theorem IsLast.eq {other : Template} (h : template.IsLast templates P)
    (hother : other.IsLast templates P) : template = other := by
  classical
  exact Option.some.inj ((isLast_iff_find?.1 h).symm.trans (isLast_iff_find?.1 hother))

/-- When something holds of a template of the list, there is a last one of which it holds. -/
theorem exists_isLast (hmem : template ∈ templates) (hholds : P template) :
    ∃ last : Template, last.IsLast templates P := by
  classical
  simp only [isLast_iff_find?, ← Option.isSome_iff_exists, List.find?_isSome]
  exact ⟨template, List.mem_reverse.2 hmem, by simpa using hholds⟩

end Template

namespace Registry

open Template (IsLast isLast_iff_find? isLast_append_singleton not_isLast_nil)

/-! ## Templates by signature -/

/-- The last template of a list is inserted last. -/
theorem ofList_append_singleton (templates : List Template) (template : Template) :
    ofList (templates ++ [template]) = (ofList templates).insert template :=
  List.foldl_append

/-- Under a signature stands the last template that has it. -/
theorem get?_ofList_eq_some_iff {templates : List Template} {signature : UInt32}
    {template : Template} :
    (ofList templates).get? signature = some template ↔
      template.IsLast templates (·.signature = signature) := by
  rw [get?_ofList, isLast_iff_find?]
  rfl

/-- A signature has no template when none of the list has it. -/
theorem get?_ofList_eq_none_iff {templates : List Template} {signature : UInt32} :
    (ofList templates).get? signature = none ↔
      ∀ template ∈ templates, template.signature ≠ signature := by
  rw [get?_ofList, List.find?_eq_none]
  simp

/-- The templates are listed under the signatures that have one. -/
theorem map_signature_toList (registry : Registry) :
    registry.toList.map Template.signature = registry.templates.keys := by
  rw [toList, List.map_map, ← Std.TreeMap.map_fst_toList_eq_keys]
  apply List.map_congr_left
  intro entry hmem
  exact registry.signature_eq (Std.TreeMap.mem_toList_iff_getElem?_eq_some.1 hmem)

/-- The templates are listed in the order of their signatures. -/
theorem pairwise_toList (registry : Registry) :
    (registry.toList.map Template.signature).Pairwise (· < ·) := by
  rw [map_signature_toList]
  exact Std.TreeMap.ordered_keys.imp Std.compare_eq_lt.1

/-- A signature is listed when a template of the list has it. -/
theorem mem_map_signature_toList_ofList {templates : List Template} {signature : UInt32} :
    signature ∈ (ofList templates).toList.map Template.signature ↔
      signature ∈ templates.map Template.signature := by
  have hnone : (ofList templates).get? signature = none ↔
      ∀ template ∈ templates, template.signature ≠ signature := get?_ofList_eq_none_iff
  have hsome := contains_eq_isSome_get? (ofList templates) signature
  rw [contains] at hsome
  rw [map_signature_toList, Std.TreeMap.mem_keys, ← Std.TreeMap.contains_iff_mem, hsome,
    Option.isSome_iff_ne_none, Ne, hnone]
  simp

/-- There are as many templates as there are signatures. -/
theorem size_ofList (templates : List Template) :
    (ofList templates).size = (templates.map Template.signature).dedup.length := by
  have hperm : ((ofList templates).toList.map Template.signature).Perm
      (templates.map Template.signature).dedup := by
    rw [List.perm_ext_iff_of_nodup _ (List.nodup_dedup _)]
    · intro signature
      rw [List.mem_dedup, mem_map_signature_toList_ofList]
    · exact (pairwise_toList _).imp fun hlt => UInt32.ne_of_lt hlt
  rw [← hperm.length_eq, List.length_map, toList, List.length_map, Std.TreeMap.length_toList]
  rfl

/-! ## Templates by name -/

/-- The name of a registered template leads to its signature from then on, and a name whose template
is replaced by it leads nowhere. -/
theorem getElem?_signatures_insert (registry : Registry) (template : Template) (name : String) :
    (registry.insert template).signatures[name]? =
      if template.name = name then some template.signature
      else if registry.signatures[name]? = some template.signature ∧
          (registry.get? template.signature).map Template.name = some name then none
      else registry.signatures[name]? := by
  have hinsert : ∀ other : String,
      (registry.signatures.insert template.name template.signature)[other]? =
        if template.name = other then some template.signature
        else registry.signatures[other]? := by
    intro other
    rw [Std.TreeMap.getElem?_insert]
    simp only [Std.LawfulEqCmp.compare_eq_iff_eq]
  unfold insert
  dsimp only
  -- Only a template that is replaced takes its name along, unless the name leads elsewhere by now.
  cases hreplaced : registry.get? template.signature with
  | none => simp [hinsert]
  | some replaced =>
    dsimp only
    split
    · rename_i herased
      rw [hinsert] at herased
      rw [Std.TreeMap.getElem?_erase, hinsert]
      simp only [Std.LawfulEqCmp.compare_eq_iff_eq]
      grind
    · rename_i hkept
      rw [hinsert] at hkept
      rw [hinsert]
      grind

/-- A name leads to the signature of the last template with the name while this one is
registered. -/
theorem getElem?_signatures_ofList {templates : List Template} {name : String}
    {signature : UInt32} :
    (ofList templates).signatures[name]? = some signature ↔
      ∃ template, template.IsLast templates (·.name = name) ∧
        template.signature = signature ∧ (ofList templates).get? signature = some template := by
  induction templates using List.reverseRecOn with
  | nil => simp [not_isLast_nil, ofList, empty]
  | append_singleton templates new ih =>
    rw [ofList_append_singleton, getElem?_signatures_insert]
    simp only [isLast_append_singleton, get?_insert]
    by_cases hname : new.name = name
    · simp only [hname, if_true]
      grind
    · rw [if_neg hname]
      constructor
      · intro h
        split at h
        · simp at h
        · rename_i hkept
          obtain ⟨template, hlast, hsignature, hget⟩ := ih.1 h
          -- Had the new template its signature, it would have replaced the one that is found.
          have hother : new.signature ≠ signature := by
            rintro rfl
            exact hkept ⟨h, by rw [hget, Option.map_some, hlast.holds]⟩
          exact ⟨template, .inr ⟨hname, hlast⟩, hsignature, by rw [if_neg hother, hget]⟩
      · intro h
        obtain ⟨template, ⟨-, hnew⟩ | ⟨-, hlast⟩, hsignature, hget⟩ := h
        · exact absurd hnew hname
        · split at hget
          · obtain rfl := Option.some.inj hget
            exact absurd hlast.holds hname
          · rename_i hother
            have hold := ih.2 ⟨template, hlast, hsignature, hget⟩
            rw [if_neg, hold]
            rw [hold]
            intro hreplaced
            exact hother (Option.some.inj hreplaced.1).symm

/-- By a name the last template that has it is found, while this one is registered. -/
theorem byName?_ofList_eq_some_iff {templates : List Template} {name : String}
    {template : Template} :
    (ofList templates).byName? name = some template ↔
      template.IsLast templates (·.name = name) ∧
        (ofList templates).get? template.signature = some template := by
  rw [byName?, Option.bind_eq_some_iff]
  simp only [getElem?_signatures_ofList]
  constructor
  · intro h
    obtain ⟨signature, ⟨last, hlast, rfl, hregistered⟩, hget⟩ := h
    obtain rfl := Option.some.inj (hregistered.symm.trans hget)
    exact ⟨hlast, hget⟩
  · intro h
    obtain ⟨hlast, hget⟩ := h
    exact ⟨template.signature, ⟨template, hlast, rfl, hget⟩, hget⟩

/-! ## What is served -/

/-- A registry serves the last word of a list of templates. -/
structure Serves (registry : Registry) (templates : List Template) : Prop where
  /-- Under a signature stands the last template with this signature. -/
  found : ∀ signature template, registry.get? signature = some template ↔
    template.IsLast templates (·.signature = signature)
  /-- Nothing stands under the other signatures. -/
  missing : ∀ signature, registry.get? signature = none ↔
    ∀ template ∈ templates, template.signature ≠ signature
  /-- The templates are listed in strictly ascending order of their signatures. -/
  ascending : (registry.toList.map Template.signature).Pairwise (· < ·)
  /-- The signatures of the list are those that are listed. -/
  listed : ∀ signature, signature ∈ registry.toList.map Template.signature ↔
    signature ∈ templates.map Template.signature
  /-- What is listed is what is found. -/
  current : ∀ template ∈ registry.toList, registry.get? template.signature = some template
  /-- There are as many templates as there are signatures in the list. -/
  size_eq : registry.size = (templates.map Template.signature).dedup.length
  /-- By a name the last template of the list with this name is found, which is then still the one
  that stands under its signature. -/
  named : ∀ name template, registry.byName? name = some template →
    template.name = name ∧ registry.get? template.signature = some template ∧
      template.IsLast templates (·.name = name)

/-- The registry of a list serves its last word. -/
theorem serves_ofList (templates : List Template) : (ofList templates).Serves templates where
  found _ _ := get?_ofList_eq_some_iff
  missing _ := get?_ofList_eq_none_iff
  ascending := pairwise_toList _
  listed _ := mem_map_signature_toList_ofList
  current _ hmem := mem_toList_iff.1 hmem
  size_eq := size_ofList templates
  named name template hfound := by
    obtain ⟨hlast, hget⟩ := byName?_ofList_eq_some_iff.1 hfound
    exact ⟨hlast.holds, hget, hlast⟩

/-- Some registered template has the name. -/
def Bears (registry : Registry) (name : String) : Prop :=
  ∃ signature template, registry.get? signature = some template ∧ template.name = name

/-- A name that leads to a template is one of a registered template. -/
theorem bears_of_byName? {templates : List Template} {name : String}
    (h : ((ofList templates).byName? name).isSome) : (ofList templates).Bears name := by
  obtain ⟨template, hfound⟩ := Option.isSome_iff_exists.1 h
  obtain ⟨hlast, hget⟩ := byName?_ofList_eq_some_iff.1 hfound
  exact ⟨template.signature, template, hget, hlast.holds⟩

/-- A name leads to a template exactly when the last template of the list that has the name is still
registered. So the names of registered templates that lead nowhere are those whose last template was
replaced, and all others lead to a template exactly when a registered one has them. -/
theorem isSome_byName?_ofList (templates : List Template) (name : String) :
    (((ofList templates).byName? name).isSome ↔
        ∃ last, last.IsLast templates (·.name = name) ∧
          (ofList templates).get? last.signature = some last) ∧
      ((((ofList templates).byName? name).isSome ↔ (ofList templates).Bears name) ↔
        ¬ ((ofList templates).Bears name ∧ ∃ last, last.IsLast templates (·.name = name) ∧
          (ofList templates).get? last.signature ≠ some last)) := by
  have hfound : ((ofList templates).byName? name).isSome ↔
      ∃ last, last.IsLast templates (·.name = name) ∧
        (ofList templates).get? last.signature = some last := by
    rw [Option.isSome_iff_exists]
    exact exists_congr fun template => byName?_ofList_eq_some_iff
  refine ⟨hfound, ?_⟩
  constructor
  · rintro hiff ⟨hbears, last, hlast, hreplaced⟩
    obtain ⟨found, hfoundLast, hget⟩ := hfound.1 (hiff.2 hbears)
    rw [hfoundLast.eq hlast] at hget
    exact hreplaced hget
  · intro hkept
    refine ⟨bears_of_byName?, fun hbears => ?_⟩
    obtain ⟨signature, template, hget, hname⟩ := hbears
    -- The name occurs in the list, so there is a last template that has it.
    obtain ⟨last, hlast⟩ := Template.exists_isLast (P := (·.name = name))
      (get?_ofList_eq_some_iff.1 hget).mem hname
    refine hfound.2 ⟨last, hlast, ?_⟩
    by_contra hreplaced
    exact hkept ⟨⟨signature, template, hget, hname⟩, last, hlast, hreplaced⟩

/-- Two opcodes that share a name, the second of which is then renamed. -/
def renamed : List Template :=
  [{ signature := 0x25010000, name := "cmd_a" }, { signature := 0x25010001, name := "cmd_a" },
    { signature := 0x25010001, name := "cmd_b" }]

/-- The renaming takes the shared name from the opcode that still has it. -/
theorem not_isSome_byName?_renamed :
    ¬ ∀ name, ((ofList renamed).byName? name).isSome ↔ (ofList renamed).Bears name := by
  intro hiff
  have hget : (ofList renamed).get? 0x25010000 =
      some { signature := 0x25010000, name := "cmd_a" } := by
    rw [get?_ofList]
    rfl
  have hnone : (ofList renamed).byName? "cmd_a" = none := by decide +kernel
  have hsome := (hiff "cmd_a").2 ⟨_, _, hget, rfl⟩
  rw [hnone] at hsome
  simp at hsome

end Registry

end PacScript
