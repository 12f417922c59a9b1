import PacScript.Json
import PacScript.Json.Term
import PacScript.Template

/-!
# Templates as JSON

A template is written as an object of its fields. A kind is written as a string, or as an object
whose one member says what the kind is made of.
-/

namespace PacScript

/-- The word kinds by their keys. -/
def WordKind.key : WordKind → String
  | integer => "u_int32"
  | float => "float"
  | jumpTarget => "jump_target"

/-- The layouts of tagged variables by their keys. -/
def TagWidth.key : TagWidth → String
  | word => "word"
  | half => "half"
  | compact => "compact"

/-- The counts by their keys. -/
def CountForm.key : CountForm → String
  | byte => "byte"
  | taggedWord => "tagged_word"
  | word => "word"

/-- An element kind as JSON. -/
def ElementKind.toJson : ElementKind → Json
  | fixed word => .object [("fixed", .string word.key)]
  | tagged width => .object [("tagged", .string width.key)]

/-- A kind as JSON. -/
def Kind.toJson : Kind → Json
  | fixed word => .object [("fixed_word", .string word.key)]
  | tagged width => .object [("tagged_variable", .string width.key)]
  | string => .string "string"
  | counted count element =>
    .object [("count_prefixed", .object [("count", .string count.key),
      ("element", element.toJson)])]
  | continuous => .string "continuous"
  | entityId => .string "entity_id"
  | equipId => .string "equip_id"
  | keybindId => .string "keybind_id"

/-- A declaration as JSON. -/
def Declaration.toJson (declaration : Declaration) : Json :=
  .object [("kind", declaration.kind.toJson), ("name", .string declaration.name)]

/-- A template as JSON. -/
def Template.toJson (template : Template) : Json :=
  .object [
    ("signature", .nat template.signature.toNat),
    ("name", .string template.name),
    ("extended_name", .string template.extendedName),
    ("description", .string template.description),
    ("raw_size", template.rawSize.elim .null (.nat ·.toNat)),
    ("function_address", .nat template.address.toNat),
    ("parameters", .array (template.parameters.map Declaration.toJson))]

open Json (Term)

/-- The value with the given key among some values, for a variant that carries nothing. -/
def bareVariant? {α : Type} (values : List α) (key : α → String) (term : Term) : Option α :=
  match term.variant? with
  | some (name, carried) => if Term.isBare carried then values.find? (key · == name) else none
  | none => none

/-- Reads a word kind. -/
def WordKind.ofTerm? : Term → Option WordKind :=
  bareVariant? [integer, float, jumpTarget] key

/-- Reads the layout of a tagged variable. -/
def TagWidth.ofTerm? : Term → Option TagWidth :=
  bareVariant? [word, half, compact] key

/-- Reads a count. -/
def CountForm.ofTerm? : Term → Option CountForm :=
  bareVariant? [byte, taggedWord, word] key

/-- Reads an element kind. -/
def ElementKind.ofTerm? (term : Term) : Option ElementKind :=
  match term.variant? with
  | some ("fixed", some carried) => (WordKind.ofTerm? carried).map .fixed
  | some ("tagged", some carried) => (TagWidth.ofTerm? carried).map .tagged
  | _ => none

/-- Reads what a counted kind is made of. -/
def Kind.countedOfTerm? (term : Term) : Option Kind :=
  match term.record? ["count", "element"] with
  | some [some count, some element] => do
    pure (.counted (← CountForm.ofTerm? count) (← ElementKind.ofTerm? element))
  | _ => none

/-- Reads a kind. -/
def Kind.ofTerm? (term : Term) : Option Kind :=
  match term.variant? with
  | some ("fixed_word", some carried) => (WordKind.ofTerm? carried).map .fixed
  | some ("tagged_variable", some carried) => (TagWidth.ofTerm? carried).map .tagged
  | some ("count_prefixed", some carried) => Kind.countedOfTerm? carried
  | some (name, carried) =>
    if Term.isBare carried then
      match name with
      | "string" => some .string
      | "continuous" => some .continuous
      | "entity_id" => some .entityId
      | "equip_id" => some .equipId
      | "keybind_id" => some .keybindId
      | _ => none
    else none
  | none => none

/-- Reads a declaration. -/
def Declaration.ofTerm? (term : Term) : Option Declaration :=
  match term.record? ["kind", "name"] with
  | some [some kind, some name] => do pure ⟨← Kind.ofTerm? kind, ← name.text?⟩
  | _ => none

/-- Reads a number that may be null. -/
def optionalWord? : Term → Option (Option UInt32)
  | .null => some none
  | term => term.word?.map some

/-- Reads a template. All fields have to be there but the size. -/
def Template.ofTerm? (term : Term) : Option Template :=
  match term.record? ["signature", "name", "extended_name", "description", "raw_size",
    "function_address", "parameters"] with
  | some [some signature, some name, some extendedName, some description, rawSize, some address,
      some (.array parameters)] => do
    pure {
      signature := ← signature.word?
      name := ← name.text?
      extendedName := ← extendedName.text?
      description := ← description.text?
      rawSize := ← optionalWord? (rawSize.getD .null)
      address := ← address.word?
      parameters := ← parameters.mapM Declaration.ofTerm? }
  | _ => none

/-- Reads a template from a JSON text. -/
def Template.ofJson? (text : String) : Option Template :=
  (Term.parse? text).bind Template.ofTerm?

end PacScript
