import PacScript.Decimal.Layout
import PacScript.Text.Numeral

/-!
# JSON as it is written

The documents that the library writes, in a compact form and in a form with one member a line.
Members keep the order in which they are given. `Json/Term.lean` is about reading.
-/

namespace PacScript

/-- A JSON document. -/
inductive Json where
  /-- The null value. -/
  | null
  /-- A truth value. -/
  | bool (value : Bool)
  /-- A natural number. -/
  | nat (value : Nat)
  /-- A 32-bit float, given by its bits. -/
  | single (bits : UInt32)
  /-- A string. -/
  | string (value : String)
  /-- An array. -/
  | array (items : List Json)
  /-- An object: its members in order. -/
  | object (members : List (String × Json))

namespace Json

/-- Floats are written with the fewest digits that read back, ties to the even digit, with a point
in every number that has no exponent, and with an exponent outside of `10 ^ (-6)` to `10 ^ 13`. -/
def floats : Decimal.Layout where
  tie := .even
  positional := some (-6, 12)
  wholeMark := true

/-- A character of a string. Quotes, backslashes and control characters below the space are
escaped, and nothing else is. -/
def escape (c : Char) : String :=
  if c = '"' then "\\\""
  else if c = '\\' then "\\\\"
  else if c = '\x08' then "\\b"
  else if c = '\t' then "\\t"
  else if c = '\n' then "\\n"
  else if c = '\x0c' then "\\f"
  else if c = '\r' then "\\r"
  else if c < ' ' then
    "\\u00" ++ String.ofList (Nat.toDigits 16 (c.toNat / 16) ++ Nat.toDigits 16 (c.toNat % 16))
  else c.toString

/-- A string in quotes. -/
def quote (text : String) : String :=
  text.toList.foldl (fun written c => written ++ escape c) "\"" ++ "\""

/-- The text of a document that is neither an array nor an object. -/
def scalar : Json → String
  | null => "null"
  | bool value => if value then "true" else "false"
  | nat value => toString value
  | single bits => (floats.single? bits).getD "null"
  | string value => quote value
  | array _ => "[]"
  | object _ => "\x7b\x7d"

mutual

/-- A document without any space, written behind `written`. -/
def compactOnto (written : String) : Json → String
  | array items => compactItems (written ++ "[") true items ++ "]"
  | object members => compactMembers (written ++ "\x7b") true members ++ "\x7d"
  | value => written ++ value.scalar

/-- Items of an array, with a comma before each but the first. -/
def compactItems (written : String) (first : Bool) : List Json → String
  | [] => written
  | item :: items =>
    compactItems (compactOnto (if first then written else written ++ ",") item) false items

/-- Members of an object, with a comma before each but the first. -/
def compactMembers (written : String) (first : Bool) : List (String × Json) → String
  | [] => written
  | (key, item) :: members =>
    let separated := if first then written else written ++ ","
    compactMembers (compactOnto (separated ++ quote key ++ ":") item) false members

end

/-- A document without any space. -/
def compact (json : Json) : String :=
  compactOnto "" json

/-- A new line, indented by two spaces for each level. -/
def newline (level : Nat) : String :=
  String.ofList ('\n' :: List.replicate (2 * level) ' ')

mutual

/-- A document at a level of indentation, written behind `written`. An empty array or object stays
on its line. -/
def prettyOnto (written : String) (level : Nat) : Json → String
  | array (item :: items) =>
    prettyItems (written ++ "[") (level + 1) true (item :: items) ++ newline level ++ "]"
  | object (member :: members) =>
    prettyMembers (written ++ "\x7b") (level + 1) true (member :: members) ++ newline level ++
      "\x7d"
  | value => written ++ value.scalar

/-- Items of an array, each on a line of its own. -/
def prettyItems (written : String) (level : Nat) (first : Bool) : List Json → String
  | [] => written
  | item :: items =>
    let separated := (if first then written else written ++ ",") ++ newline level
    prettyItems (prettyOnto separated level item) level false items

/-- Members of an object, each on a line of its own. -/
def prettyMembers (written : String) (level : Nat) (first : Bool) : List (String × Json) → String
  | [] => written
  | (key, item) :: members =>
    let separated := (if first then written else written ++ ",") ++ newline level
    prettyMembers (prettyOnto (separated ++ quote key ++ ": ") level item) level false members

end

/-- A document with one item or member a line. -/
def pretty (json : Json) : String :=
  prettyOnto "" 0 json

end Json

end PacScript
