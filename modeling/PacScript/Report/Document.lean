import PacScript.Json
import PacScript.Script

/-!
# Scripts as JSON

A script is written as an object with the name of its file, its entities and its counters. An entity
is an object that says first of which kind it is.
-/

namespace PacScript

/-- A kind of entity as a key. -/
def EntityKind.key : EntityKind → String
  | instruction => "instruction"
  | unknown => "unknown_instruction"
  | rawSpan => "raw_span"
  | padding => "padding"
  | messageTable => "message_table"
  | jumpTable => "jump_table"
  | leftOut => "left_out_arguments"

/-- A value as JSON, without a mark of what it is. -/
def Value.toJson : Value → Json
  | int value => .nat value.toNat
  | float bits => .single bits
  | text value => .string value

/-- A parameter as JSON. -/
def Parameter.toJson (parameter : Parameter) : Json :=
  .object [("label", .string parameter.label), ("name", .string parameter.name),
    ("value", parameter.value.toJson)]

/-- A set of parameters as JSON. -/
def ParameterSet.toJson (set : ParameterSet) : Json :=
  .array (set.ordered.map Parameter.toJson)

/-- A word as JSON. -/
def wordJson (word : UInt32) : Json :=
  .nat word.toNat

/-- An entity as JSON. -/
def Entity.toJson (entity : Entity) : Json :=
  let kind := ("kind", Json.string entity.kind.key)
  let offset := ("offset", Json.nat entity.offset)
  let raw := ("raw", Json.string (Text.hexBytes entity.raw))
  .object <| match entity.content with
    | .instruction template cutOff parameters =>
      [kind, offset, ("signature", wordJson template.signature), ("name", .string template.name),
        raw, ("cut_off", .bool cutOff), ("parameters", parameters.toJson)]
    | .unknown signature => [kind, offset, ("signature", wordJson signature), raw]
    | .rawSpan => [kind, offset, raw]
    | .padding =>
      [kind, offset, raw, ("zeroes_only", .bool entity.zeroesOnly),
        ("machine_word_length", .nat wordLength)]
    | .messageTable => [kind, offset, raw, ("count", .nat entity.messageCount)]
    | .jumpTable =>
      [kind, offset, raw, ("branches", .array (entity.branches.toList.map wordJson))]
    | .leftOut instructionOffset =>
      [kind, offset, raw, ("instruction_offset", .nat instructionOffset),
        ("supposed_size", .nat (entity.supposedSize instructionOffset)),
        ("pairs", .array (entity.pairs.toList.map fun (tag, value) =>
          .array [wordJson tag, wordJson value]))]

/-- A script as JSON, with the name of its file. -/
def Script.toJson (script : Script) (path : String) : Json :=
  .object [
    ("file", .string path),
    ("size", .nat script.size),
    ("entities", .array (script.entities.toList.map Entity.toJson)),
    ("instructions_count", .nat script.instructionCount),
    ("unknown_instructions_count", .nat script.unknownCount),
    ("cut_off_count", .nat script.cutOffCount)]

end PacScript
