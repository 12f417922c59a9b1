import PacScript.Text.Numeral

/-!
# JSON as it is read

`Term.parse?` reads a JSON text into a `Term`, which keeps what the text says: the members of an
object in order, repetitions included, and numbers as they are written. An escape may name half of a
surrogate pair, which no text can hold; such a string is `none`, and it depends on where it stands
whether that matters.
-/

namespace PacScript.Json

/-- What a JSON text says. -/
inductive Term where
  /-- The null value. -/
  | null
  /-- A truth value. -/
  | bool (value : Bool)
  /-- A number, as it is written. -/
  | number (lexeme : List Char)
  /-- A string. -/
  | string (value : Option String)
  /-- An array. -/
  | array (items : List Term)
  /-- An object. -/
  | object (members : List (Option String × Term))

namespace Term

/-- Skips what may stand between the parts of a text. -/
def skipSpace (text : List Char) : List Char :=
  text.dropWhile fun c => c == ' ' || c == '\n' || c == '\t' || c == '\r'

/-- The digits at the start of a text, and the rest; at least one is needed. -/
def digits? (text : List Char) : Option (List Char × List Char) :=
  let digits := text.takeWhile Char.isDigit
  if digits.isEmpty then none else some (digits, text.dropWhile Char.isDigit)

/-- The whole part of a number: no zero stands before another digit. -/
def whole? (text : List Char) : Option (List Char × List Char) :=
  match text with
  | '0' :: rest => if rest.head?.any Char.isDigit then none else some (['0'], rest)
  | _ => digits? text

/-- The fraction of a number, if there is one. -/
def fraction? (text : List Char) : Option (List Char × List Char) :=
  match text with
  | '.' :: rest => (digits? rest).map fun (digits, rest) => ('.' :: digits, rest)
  | _ => some ([], text)

/-- The exponent of a number, if there is one. -/
def exponent? (text : List Char) : Option (List Char × List Char) :=
  let afterMark (mark : Char) (rest : List Char) :=
    match rest with
    | '+' :: rest => (digits? rest).map fun (digits, rest) => (mark :: '+' :: digits, rest)
    | '-' :: rest => (digits? rest).map fun (digits, rest) => (mark :: '-' :: digits, rest)
    | _ => (digits? rest).map fun (digits, rest) => (mark :: digits, rest)
  match text with
  | 'e' :: rest => afterMark 'e' rest
  | 'E' :: rest => afterMark 'E' rest
  | _ => some ([], text)

/-- A number without its sign. -/
def magnitude? (text : List Char) : Option (List Char × List Char) := do
  let (whole, text) ← whole? text
  let (fraction, text) ← fraction? text
  let (exponent, text) ← exponent? text
  pure (whole ++ fraction ++ exponent, text)

/-- A number. -/
def number? (text : List Char) : Option (List Char × List Char) :=
  match text with
  | '-' :: rest => (magnitude? rest).map fun (lexeme, rest) => ('-' :: lexeme, rest)
  | _ => magnitude? text

/-- The unit that four hexadecimal digits name, and the text behind them. -/
def unit? (text : List Char) : Option (Nat × List Char) :=
  match text with
  | a :: b :: c :: d :: rest => (Text.ofDigits? 16 [a, b, c, d]).map (·, rest)
  | _ => none

/-- The second half of a surrogate pair, if an escape that names one follows. -/
def lowSurrogate? (text : List Char) : Option (Nat × List Char) :=
  match text with
  | '\\' :: 'u' :: rest => (unit? rest).filter fun (unit, _) => 0xDC00 ≤ unit && unit ≤ 0xDFFF
  | _ => none

/-- The character that an escape names, behind its backslash: `none` for half of a surrogate
pair. -/
def escape? (text : List Char) : Option (Option Char × List Char) :=
  match text with
  | '"' :: rest => some (some '"', rest)
  | '\\' :: rest => some (some '\\', rest)
  | '/' :: rest => some (some '/', rest)
  | 'b' :: rest => some (some '\x08', rest)
  | 'f' :: rest => some (some '\x0c', rest)
  | 'n' :: rest => some (some '\n', rest)
  | 'r' :: rest => some (some '\r', rest)
  | 't' :: rest => some (some '\t', rest)
  | 'u' :: rest =>
    (unit? rest).map fun (unit, rest) =>
      if 0xD800 ≤ unit && unit ≤ 0xDBFF then
        match lowSurrogate? rest with
        | some (low, later) =>
          (some (Char.ofNat (0x10000 + (unit - 0xD800) * 0x400 + (low - 0xDC00))), later)
        | none => (none, rest)
      else if 0xDC00 ≤ unit && unit ≤ 0xDFFF then (none, rest)
      else (some (Char.ofNat unit), rest)
  | _ => none

/-- The rest of a string up to its closing quote, behind the characters in `read`, which is `none`
after half of a surrogate pair. Control characters have to be escaped. -/
def stringRest? (read : Option (Array Char)) : Nat → List Char → Option (Option String × List Char)
  | 0, _ => none
  | fuel + 1, text =>
    match text with
    | [] => none
    | '"' :: rest => some (read.map fun chars => String.ofList chars.toList, rest)
    | '\\' :: rest =>
      match escape? rest with
      | none => none
      | some (none, rest) => stringRest? none fuel rest
      | some (some c, rest) => stringRest? (read.map (·.push c)) fuel rest
    | c :: rest => if c < ' ' then none else stringRest? (read.map (·.push c)) fuel rest

/-- A string, behind its opening quote. -/
def string? (text : List Char) : Option (Option String × List Char) :=
  stringRest? (some #[]) (text.length + 1) text

mutual

/-- A value, and the text behind it. -/
def value? : Nat → List Char → Option (Term × List Char)
  | 0, _ => none
  | fuel + 1, text =>
    match skipSpace text with
    | 'n' :: 'u' :: 'l' :: 'l' :: rest => some (null, rest)
    | 't' :: 'r' :: 'u' :: 'e' :: rest => some (bool true, rest)
    | 'f' :: 'a' :: 'l' :: 's' :: 'e' :: rest => some (bool false, rest)
    | '"' :: rest => (string? rest).map fun (value, rest) => (string value, rest)
    | '[' :: rest =>
      match skipSpace rest with
      | ']' :: rest => some (array [], rest)
      | rest => (items? fuel rest).map fun (items, rest) => (array items, rest)
    | '\x7b' :: rest =>
      match skipSpace rest with
      | '\x7d' :: rest => some (object [], rest)
      | rest => (members? fuel rest).map fun (members, rest) => (object members, rest)
    | rest => (number? rest).map fun (lexeme, rest) => (number lexeme, rest)

/-- The items of an array, up to its closing bracket. -/
def items? : Nat → List Char → Option (List Term × List Char)
  | 0, _ => none
  | fuel + 1, text =>
    match value? fuel text with
    | none => none
    | some (item, rest) =>
      match skipSpace rest with
      | ',' :: rest => (items? fuel rest).map fun (items, rest) => (item :: items, rest)
      | ']' :: rest => some ([item], rest)
      | _ => none

/-- The members of an object, up to its closing brace. -/
def members? : Nat → List Char → Option (List (Option String × Term) × List Char)
  | 0, _ => none
  | fuel + 1, text =>
    match member? fuel (skipSpace text) with
    | none => none
    | some (member, rest) =>
      match skipSpace rest with
      | ',' :: rest => (members? fuel rest).map fun (members, rest) => (member :: members, rest)
      | '\x7d' :: rest => some ([member], rest)
      | _ => none

/-- A member of an object: a string, a colon and a value. -/
def member? : Nat → List Char → Option ((Option String × Term) × List Char)
  | 0, _ => none
  | fuel + 1, text =>
    match text with
    | '"' :: rest =>
      match string? rest with
      | none => none
      | some (key, rest) =>
        match skipSpace rest with
        | ':' :: rest => (value? fuel rest).map fun (value, rest) => ((key, value), rest)
        | _ => none
    | _ => none

end

/-- Reads a JSON text. Each step of the reading takes a character or is followed by one that does,
so that three steps for every character are enough. -/
def parse? (text : String) : Option Term :=
  let chars := text.toList
  match value? (3 * chars.length + 3) chars with
  | some (term, rest) => if (skipSpace rest).isEmpty then some term else none
  | none => none

/-- The text of a string. -/
def text? : Term → Option String
  | string value => value
  | _ => none

/-- The number of a term below 2^32, written without a fraction or an exponent. -/
def word? : Term → Option UInt32
  | number lexeme => (Text.ofDigits? 10 lexeme).filter (· < 0x100000000) |>.map UInt32.ofNat
  | _ => none

/-- The fields of a record by their names: from an object, in which other members are ignored and a
field may be missing but not repeated, or from an array of all the fields in order. -/
def record? (names : List String) : Term → Option (List (Option Term))
  | object members =>
    let repeats (name : String) : Bool := 1 < members.countP fun (key, _) => key == some name
    if members.any (·.1.isNone) || names.any repeats then none
    else some (names.map fun name => members.lookup (some name))
  | array items => if items.length = names.length then some (items.map some) else none
  | _ => none

/-- The name of a variant and what it carries: a string is a variant that carries nothing, an
object with one member a variant that carries the value. -/
def variant? : Term → Option (String × Option Term)
  | string (some name) => some (name, none)
  | object [(some name, value)] => some (name, some value)
  | _ => none

/-- True when a variant carries nothing, which null says too. -/
def isBare : Option Term → Bool
  | none | some null => true
  | _ => false

end Term

end PacScript.Json
