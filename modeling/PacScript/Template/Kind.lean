import PacScript.Text.Blank

/-!
# Kinds of parameters

The kind of a parameter fixes its layout in the bytes of an instruction. A kind has a token, by
which a definition text refers to it; `Kind.token` writes the canonical one and `Kind.ofToken`
reads it and its abbreviations.
-/

namespace PacScript

/-- What a plain four-byte word means. -/
inductive WordKind where
  /-- An unsigned integer. -/
  | integer
  /-- A 32-bit float. -/
  | float
  /-- The offset of another instruction of the same script. -/
  | jumpTarget
  deriving DecidableEq, Repr

/-- The layouts of a tagged variable: a tag, whose first byte says what the value is, and a value
after it. -/
inductive TagWidth where
  /-- A tag word on a word boundary and a value word. -/
  | word
  /-- A tag half word and a value half word, wherever they stand. -/
  | half
  /-- A tag byte and a value word, wherever they stand. -/
  | compact
  deriving DecidableEq, Repr

/-- How many bytes a tag takes. -/
def TagWidth.tagSize : TagWidth → Nat
  | word => 4
  | half => 2
  | compact => 1

/-- How many bytes a tagged value takes. -/
def TagWidth.valueSize : TagWidth → Nat
  | word => 4
  | half => 2
  | compact => 4

/-- How the number of elements of a counted parameter is stored. -/
inductive CountForm where
  /-- In one byte. -/
  | byte
  /-- In a word after a tag byte. -/
  | taggedWord
  /-- In a word. -/
  | word
  deriving DecidableEq, Repr

/-- What the elements of a counted parameter are. -/
inductive ElementKind where
  /-- Plain words. -/
  | fixed (word : WordKind)
  /-- Tagged variables. -/
  | tagged (width : TagWidth)
  deriving DecidableEq, Repr

/-- The kind of a parameter. -/
inductive Kind where
  /-- A plain word. -/
  | fixed (word : WordKind)
  /-- A tagged variable. -/
  | tagged (width : TagWidth)
  /-- A Shift_JIS string up to a zero byte. -/
  | string
  /-- A count and as many elements. -/
  | counted (count : CountForm) (element : ElementKind)
  /-- All words up to the end of the buffer. -/
  | continuous
  /-- A category word and the identifier of an entity. -/
  | entityId
  /-- A category word and the identifier of a piece of equipment. -/
  | equipId
  /-- The identifier of a key binding. -/
  | keybindId
  deriving DecidableEq, Repr

/-- The canonical token of a word kind. -/
def WordKind.token : WordKind → String
  | integer => "uint32"
  | float => "float"
  | jumpTarget => "jump"

/-- The canonical token of a tagged variable. -/
def TagWidth.token : TagWidth → String
  | word => "variable"
  | half => "variable2"
  | compact => "compact_variable"

/-- The token of a count. -/
def CountForm.token : CountForm → String
  | byte => "count_byte"
  | taggedWord => "count_tagged"
  | word => "count_word"

/-- The canonical token of an element kind. -/
def ElementKind.token : ElementKind → String
  | fixed word => word.token
  | tagged width => width.token

/-- The canonical token of a kind. -/
def Kind.token : Kind → String
  | fixed word => word.token
  | tagged width => width.token
  | string => "string"
  | counted count element => count.token ++ ":" ++ element.token
  | continuous => "continuous"
  | entityId => "entity_id"
  | equipId => "equip_id"
  | keybindId => "keybind_id"

/-- The word kind of a token in lower case. -/
def WordKind.ofToken? (token : String) : Option WordKind :=
  match token with
  | "uint32" | "u32" | "int" => some .integer
  | "float" => some .float
  | "jump" | "jump_target" => some .jumpTarget
  | _ => none

/-- The layout of a tagged variable that a token in lower case names. -/
def TagWidth.ofToken? (token : String) : Option TagWidth :=
  match token with
  | "variable" | "var" => some .word
  | "variable2" | "var2" => some .half
  | "compact_variable" | "varc" => some .compact
  | _ => none

/-- The count that a token in lower case names. -/
def CountForm.ofToken? (token : String) : Option CountForm :=
  match token with
  | "count_byte" => some .byte
  | "count_tagged" => some .taggedWord
  | "count_word" => some .word
  | _ => none

/-- The element kind of a token in lower case. -/
def ElementKind.ofToken? (token : String) : Option ElementKind :=
  match WordKind.ofToken? token with
  | some word => some (.fixed word)
  | none => (TagWidth.ofToken? token).map .tagged

/-- Why a token names no kind. -/
inductive KindFault where
  /-- What stands before the colon names no count. -/
  | count (token : String)
  /-- What stands after the colon names no element kind. -/
  | element (token : String)
  /-- The token, which has no colon, names no kind. -/
  | kind (token : String)
  deriving DecidableEq, Repr

/-- The wording of a fault in a token. -/
def KindFault.message : KindFault → String
  | count token => "unknown count encoding `" ++ token ++ "`"
  | element token => "unknown element kind `" ++ token ++ "`"
  | kind token => "unknown parameter kind `" ++ token ++ "`"

/-- The kind of a token without a colon, in lower case. -/
def Kind.ofSimpleToken? (token : String) : Option Kind :=
  match WordKind.ofToken? token, TagWidth.ofToken? token with
  | some word, _ => some (.fixed word)
  | none, some width => some (.tagged width)
  | none, none =>
    match token with
    | "string" => some .string
    | "continuous" => some .continuous
    | "entity_id" => some .entityId
    | "equip_id" => some .equipId
    | "keybind_id" => some .keybindId
    | _ => none

/-- Reads a token. Blanks around it and the case of ASCII letters do not matter; the first colon
parts a count from its element kind. -/
def Kind.ofToken (text : List Char) : Except KindFault Kind :=
  let trimmed := Text.trim text
  let token := trimmed.map Char.toLower
  if ':' ∈ token then
    let before := String.ofList (token.takeWhile (· != ':'))
    let after := String.ofList ((token.dropWhile (· != ':')).drop 1)
    match CountForm.ofToken? before, ElementKind.ofToken? after with
    | none, _ => .error (.count before)
    | some _, none => .error (.element after)
    | some count, some element => .ok (.counted count element)
  else
    match Kind.ofSimpleToken? (String.ofList token) with
    | some kind => .ok kind
    | none => .error (.kind (String.ofList trimmed))

/-- The canonical token of a kind reads back as the kind. -/
theorem Kind.ofToken_token (kind : Kind) : Kind.ofToken kind.token.toList = .ok kind := by
  match kind with
  | .fixed word => cases word <;> rfl
  | .tagged width => cases width <;> rfl
  | .counted count (.fixed word) => cases count <;> cases word <;> rfl
  | .counted count (.tagged width) => cases count <;> cases width <;> rfl
  | .string | .continuous | .entityId | .equipId | .keybindId => rfl

end PacScript
