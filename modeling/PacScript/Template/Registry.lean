import Std.Data.TreeMap
import PacScript.Template.Definition

/-!
# The registry of templates

A registry finds templates by signature and by name. Of several templates with one signature the
last one counts; a name leads to the signature under which it was registered last.
-/

namespace PacScript

/-- Templates by signature, and signatures by name. -/
structure Registry where
  /-- The template of each signature. -/
  templates : Std.TreeMap UInt32 Template := ∅
  /-- The signature that a name was last registered for. -/
  signatures : Std.TreeMap String UInt32 := ∅
  /-- A template stands under its own signature. -/
  signature_eq : ∀ {signature : UInt32} {template : Template},
    templates[signature]? = some template → template.signature = signature := by simp

namespace Registry

/-- The registry without templates. -/
def empty : Registry := {}

/-- The template of a signature. -/
def get? (registry : Registry) (signature : UInt32) : Option Template :=
  registry.templates[signature]?

/-- True when the signature has a template. -/
def contains (registry : Registry) (signature : UInt32) : Bool :=
  registry.templates.contains signature

/-- The template that a name leads to. -/
def byName? (registry : Registry) (name : String) : Option Template :=
  registry.signatures[name]?.bind registry.get?

/-- How many templates there are. -/
def size (registry : Registry) : Nat :=
  registry.templates.size

/-- True when there are no templates. -/
def isEmpty (registry : Registry) : Bool :=
  registry.templates.isEmpty

/-- The templates in the order of their signatures. -/
def toList (registry : Registry) : List Template :=
  registry.templates.toList.map Prod.snd

/-- A template that is found has the signature it was looked up by. -/
theorem signature_of_get? {registry : Registry} {signature : UInt32} {template : Template}
    (h : registry.get? signature = some template) : template.signature = signature :=
  registry.signature_eq h

/-- Registers a template in the place of one with the same signature. The name of a template that
is replaced under another name is forgotten if it leads to this signature. -/
def insert (registry : Registry) (template : Template) : Registry :=
  let signatures := registry.signatures.insert template.name template.signature
  { templates := registry.templates.insert template.signature template
    signatures :=
      match registry.get? template.signature with
      | none => signatures
      | some replaced =>
        if replaced.name ≠ template.name ∧ signatures[replaced.name]? = some template.signature
        then signatures.erase replaced.name
        else signatures
    signature_eq := by
      intro signature found h
      rw [Std.TreeMap.getElem?_insert] at h
      split at h
      · rename_i heq
        rw [← Option.some.inj h]
        exact Std.LawfulEqCmp.eq_of_compare heq
      · exact registry.signature_eq h }

/-- The registry of a list of templates, registered in order. -/
def ofList (templates : List Template) : Registry :=
  templates.foldl insert empty

/-- The registry of a definition text, with the notices about its rows. -/
def load (source : String) : Definition.Outcome Registry :=
  let outcome := Definition.read source
  ⟨outcome.notices, outcome.result.map ofList⟩

end Registry

end PacScript
