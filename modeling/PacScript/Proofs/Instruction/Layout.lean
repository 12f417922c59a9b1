import PacScript.Instruction.Arguments

/-!
# The layout of arguments

The arguments of an instruction are consecutive pieces, one for each declared parameter, and a piece
consists of *parts*: a word, a tagged variable, a string, a count, an identifier. `Part.Holds` gives
the bytes of a part and what they mean, without reference to a walk. It knows of the buffer only the
position at which the bytes stand, since the tag of a word-wide variable is aligned. `Elements`,
`Piece` and `Pieces` put the parts together; a continuous parameter takes what the buffer has left,
so these depend on the size of the buffer too.
-/

namespace PacScript

namespace Arguments

/-- What a walk takes at once, all of its bytes or none. -/
inductive Part where
  /-- A plain word. -/
  | fixed (word : WordKind)
  /-- A tagged variable. -/
  | tagged (width : TagWidth)
  /-- A string up to a zero byte. -/
  | string
  /-- The number of elements of a counted parameter. -/
  | count (form : CountForm)
  /-- An identifier behind bytes that say of which category it is. -/
  | identifier (label : String) (skipped : Nat)
  deriving DecidableEq, Repr

/-- The label of a tagged variable, by its tag and the byte behind the tag. A tag that is not known
must not be the marker before a known class, because the next instruction starts there. -/
inductive TagLabel : UInt8 → UInt8 → String → Prop where
  /-- A known tag has a label of its own. -/
  | known {tag second : UInt8} {label : String} (hlabel : tagLabel? tag = some label) :
      TagLabel tag second label
  /-- The others share one. -/
  | unknown {tag second : UInt8} (hlabel : tagLabel? tag = none)
      (hstart : ¬ (tag = 0x25 ∧ second ≤ 0x23)) : TagLabel tag second "Unknown"

/-- The labels of tagged variables. -/
def tagLabels : List String :=
  ["0x40 variable", "0x20 variable", "float", "0x8 variable", "0x4 variable", "uint32",
    "0x1 value", "Unknown"]

/-- Whatever the tag is, the label is one of these. -/
theorem TagLabel.mem_tagLabels {tag second : UInt8} {label : String}
    (h : TagLabel tag second label) : label ∈ tagLabels := by
  cases h with
  | known hlabel =>
    unfold tagLabel? at hlabel
    split at hlabel <;> cases hlabel <;> decide
  | unknown => decide

/-- The value of a variable: a float under the tag of floats, unless it is a half word. -/
def variableValue (width : TagWidth) (tag : UInt8) (word : UInt32) : Value :=
  if tag = 0x10 ∧ width ≠ .half then .float word else .int word

/-- `part.Holds position bytes label value` says that the bytes, standing at the position, are a
well-formed part with the given label and value. -/
inductive Part.Holds : Part → Nat → List UInt8 → String → Value → Prop where
  /-- Four bytes, least significant first. -/
  | integer {position : Nat} {a b c d : UInt8} :
      Holds (.fixed .integer) position [a, b, c, d] "uint32" (.int (littleWord a b c d))
  /-- The bits of a float. -/
  | float {position : Nat} {a b c d : UInt8} :
      Holds (.fixed .float) position [a, b, c, d] "float" (.float (littleWord a b c d))
  /-- The offset that a jump leads to. -/
  | jumpTarget {position : Nat} {a b c d : UInt8} :
      Holds (.fixed .jumpTarget) position [a, b, c, d] "jump target" (.int (littleWord a b c d))
  /-- Up to three bytes in front of the next multiple of four, a tag word and a value word. -/
  | taggedWord {position : Nat} {skipped : List UInt8} {tag second t u a b c d : UInt8}
      {label : String} (hskipped : skipped.length < 4)
      (haligned : (position + skipped.length) % 4 = 0) (hlabel : TagLabel tag second label) :
      Holds (.tagged .word) position (skipped ++ [tag, second, t, u, a, b, c, d]) label
        (variableValue .word tag (littleWord a b c d))
  /-- A tag half word and a value half word. -/
  | taggedHalf {position : Nat} {tag second a b : UInt8} {label : String}
      (hlabel : TagLabel tag second label) :
      Holds (.tagged .half) position [tag, second, a, b] label
        (variableValue .half tag (littleHalf a b).toUInt32)
  /-- A tag byte and a value word. -/
  | taggedCompact {position : Nat} {tag a b c d : UInt8} {label : String}
      (hlabel : TagLabel tag a label) :
      Holds (.tagged .compact) position [tag, a, b, c, d] label
        (variableValue .compact tag (littleWord a b c d))
  /-- The bytes up to the first zero byte, and this byte. -/
  | string {position : Nat} {text : List UInt8} (hzero : 0 ∉ text) :
      Holds .string position (text ++ [0]) "string"
        (.text (withoutNul (Encoding.shiftJis.decode (text ++ [0]))))
  /-- A count of one byte. -/
  | countByte {position : Nat} {n : UInt8} :
      Holds (.count .byte) position [n] "count" (.int n.toUInt32)
  /-- A count word behind a tag byte, which says nothing. -/
  | countTaggedWord {position : Nat} {tag a b c d : UInt8} :
      Holds (.count .taggedWord) position [tag, a, b, c, d] "count" (.int (littleWord a b c d))
  /-- A count word. -/
  | countWord {position : Nat} {a b c d : UInt8} :
      Holds (.count .word) position [a, b, c, d] "count" (.int (littleWord a b c d))
  /-- The bytes of the category, which say nothing, and a word. -/
  | identifier {position skipped : Nat} {category : List UInt8} {a b c d : UInt8} {label : String}
      (hcategory : category.length = skipped) :
      Holds (.identifier label skipped) position (category ++ [a, b, c, d]) label
        (.int (littleWord a b c d))

/-- `Elements part name position index count bytes parameters` says that the bytes, standing at the
position, are `count` consecutive parts, the first of which is the element of the given index of
the sequence `name`. -/
inductive Elements (part : Part) (name : String) :
    Nat → Nat → Nat → List UInt8 → List Parameter → Prop where
  /-- No elements take no bytes. -/
  | nil {position index : Nat} : Elements part name position index 0 [] []
  /-- An element and those behind it. -/
  | cons {position index count : Nat} {bytes rest : List UInt8} {label : String} {value : Value}
      {parameters : List Parameter} (hhead : part.Holds position bytes label value)
      (htail : Elements part name (position + bytes.length) (index + 1) count rest parameters) :
      Elements part name position index (count + 1) (bytes ++ rest)
        (⟨label, elementName name index, value⟩ :: parameters)

end Arguments

/-- The part that the elements of a kind are. -/
def ElementKind.part : ElementKind → Arguments.Part
  | fixed word => .fixed word
  | tagged width => .tagged width

/-- The part that a parameter of the kind is, if it is a single one. -/
def Kind.part? : Kind → Option Arguments.Part
  | fixed word => some (.fixed word)
  | tagged width => some (.tagged width)
  | string => some .string
  | entityId => some (.identifier "entity id" 4)
  | equipId => some (.identifier "equip id" 4)
  | keybindId => some (.identifier "keybind id" 0)
  | counted _ _ => none
  | continuous => none

/-- No element of a list is a count. -/
theorem ElementKind.part_ne_count (kind : ElementKind) (form : CountForm) :
    kind.part ≠ .count form := by
  cases kind <;> simp [ElementKind.part]

/-- A parameter that is a single part is no count; counts come with their elements. -/
theorem Kind.part?_ne_count (kind : Kind) (form : CountForm) :
    kind.part? ≠ some (.count form) := by
  cases kind <;> simp [Kind.part?]

namespace Arguments

/-- `Piece size declaration position bytes parameters` says that the bytes, standing at the position
of a buffer of the given size, are a well-formed piece of the declared parameter. -/
inductive Piece (size : Nat) : Declaration → Nat → List UInt8 → List Parameter → Prop where
  /-- A parameter of one part. -/
  | single {kind : Kind} {part : Part} {name label : String} {position : Nat} {bytes : List UInt8}
      {value : Value} (hpart : kind.part? = some part)
      (hholds : part.Holds position bytes label value) :
      Piece size ⟨kind, name⟩ position bytes [⟨label, name, value⟩]
  /-- A count, and exactly as many elements. -/
  | counted {form : CountForm} {kind : ElementKind} {name label : String} {position : Nat}
      {bytes rest : List UInt8} {count : UInt32} {parameters : List Parameter}
      (hcount : (Part.count form).Holds position bytes label (.int count))
      (helements : Elements kind.part name (position + bytes.length) 0 count.toNat rest
        parameters) :
      Piece size ⟨.counted form kind, name⟩ position (bytes ++ rest)
        (⟨label, name, .int count⟩ :: parameters)
  /-- As many words as there are bytes left for. -/
  | continuous {name : String} {position : Nat} {bytes : List UInt8} {parameters : List Parameter}
      (helements : Elements (.fixed .integer) name position 0 ((size - position) / 4) bytes
        parameters) :
      Piece size ⟨.continuous, name⟩ position bytes parameters

/-- Consecutive pieces, one for each declared parameter, in order. -/
inductive Pieces (size : Nat) :
    List Declaration → Nat → List (List UInt8) → List Parameter → Prop where
  /-- Nothing declared takes no bytes. -/
  | nil {position : Nat} : Pieces size [] position [] []
  /-- The piece of a parameter and those behind it. -/
  | cons {declaration : Declaration} {declarations : List Declaration} {position : Nat}
      {bytes : List UInt8} {pieces : List (List UInt8)} {parameters rest : List Parameter}
      (hhead : Piece size declaration position bytes parameters)
      (htail : Pieces size declarations (position + bytes.length) pieces rest) :
      Pieces size (declaration :: declarations) position (bytes :: pieces) (parameters ++ rest)

end Arguments

end PacScript
