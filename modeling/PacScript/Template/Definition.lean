import PacScript.Event
import PacScript.Failure
import PacScript.Template

/-!
# Definition texts

A definition text declares a template in each of its rows. The fields of a row are parted by
semicolons and trimmed:

```text
A;B;C;D;raw size;name;extended name;description;count;kind;name;…;address
```

`A` to `D` are the bytes of the signature, and they, the size and the address are hexadecimal.
Empty lines and lines that begin with `#` are skipped. A row is refused for a fault of its
signature, its address or its parameters; a size or a count that is not a number gives a notice
only.
-/

namespace PacScript.Definition

/-- The fields of a row that has enough of them, as they are written. -/
structure Fields where
  /-- The four bytes of the signature. -/
  signature : List (List Char)
  /-- The size. -/
  rawSize : List Char
  /-- The short name. -/
  name : List Char
  /-- The long name. -/
  extendedName : List Char
  /-- The description. -/
  description : List Char
  /-- The number of parameters. -/
  count : List Char
  /-- Kinds and names of the parameters in turn. -/
  parameters : List (List Char)
  /-- The address, the last field of the row. -/
  address : List Char

/-- Splits a row at its semicolons and trims the fields. An empty field after the last semicolon
of a longer row is no field. -/
def splitRow (row : List Char) : List (List Char) :=
  let fields := (row.splitOn ';').map Text.trim
  if minimumFields < fields.length ∧ fields.getLast? = some [] then fields.dropLast else fields

/-- Tells the fields of a row apart. -/
def Fields.ofRow (row : List Char) : Except RowFault Fields :=
  match splitRow row with
  | a :: b :: c :: d :: rawSize :: name :: extendedName :: description :: count :: first :: rest =>
    .ok {
      signature := [a, b, c, d]
      rawSize, name, extendedName, description, count
      parameters := (first :: rest).dropLast
      address := (first :: rest).getLast (by simp) }
  | fields => .error (.tooFewFields fields.length)

/-- The bytes of a signature, the first of which has the given index. -/
def signatureBytes (index : Nat) : List (List Char) → Except RowFault (List UInt8)
  | [] => .ok []
  | field :: fields =>
    match Text.hexNumeral? 0x100 field with
    | none => .error (.signatureByte index (String.ofList field))
    | some byte => (signatureBytes (index + 1) fields).map (UInt8.ofNat byte :: ·)

/-- The word of the bytes of a signature, the first of them the most significant. -/
def signatureWord (bytes : List UInt8) : UInt32 :=
  UInt32.ofNat (bytes.foldl (fun value byte => value * 0x100 + byte.toNat) 0)

/-- A hexadecimal word. -/
def hexWord? (field : List Char) : Option UInt32 :=
  (Text.hexNumeral? 0x100000000 field).map UInt32.ofNat

/-- The declarations of kinds and names in turn. -/
def declarations : List (List Char) → Except RowFault (List Declaration)
  | [] => .ok []
  | [_] => .error .unpairedParameter
  | kind :: name :: rest =>
    match Kind.ofToken kind with
    | .error fault => .error (.kind fault)
    | .ok kind => (declarations rest).map (⟨kind, String.ofList name⟩ :: ·)

/-- The parameters of a row. That the fields are in pairs is looked at before any kind is. -/
def parameters (fields : List (List Char)) : Except RowFault (List Declaration) :=
  if fields.length % 2 = 0 then declarations fields else .error .unpairedParameter

/-- The notice about the size of a row. -/
def sizeNotices (line : Nat) (field : List Char) : List Notice :=
  match hexWord? field with
  | some _ => []
  | none => [.rawSize line (String.ofList field)]

/-- The notice about the number of parameters of a row that has `found` of them. -/
def countNotices (line : Nat) (field : List Char) (found : Nat) : List Notice :=
  match Text.numeral? 10 0x10000000000000000 field with
  | none => [.parameterCountUnreadable line (String.ofList field)]
  | some declared => if declared = found then [] else [.parameterCount line declared found]

/-- What a definition text or a part of it gives: the notices up to its end or its first fault,
and the templates or the failure. -/
structure Outcome (α : Type) where
  /-- The notices in order. -/
  notices : List Notice
  /-- The result. -/
  result : Except Failure α

/-- The template of a row, which stands in the given line. -/
def readRow (row : List Char) (line : Nat) : Outcome Template :=
  let fail (notices : List Notice) (fault : RowFault) : Outcome Template :=
    ⟨notices, .error (.row line fault)⟩
  match Fields.ofRow row with
  | .error fault => fail [] fault
  | .ok fields =>
    match signatureBytes 0 fields.signature with
    | .error fault => fail [] fault
    | .ok bytes =>
      match hexWord? fields.address with
      | none => fail [] (.address (String.ofList fields.address))
      | some address =>
        let sizes := sizeNotices line fields.rawSize
        match parameters fields.parameters with
        | .error fault => fail sizes fault
        | .ok parameters =>
          { notices := sizes ++ countNotices line fields.count parameters.length
            result := .ok {
              signature := signatureWord bytes
              name := String.ofList fields.name
              extendedName := String.ofList fields.extendedName
              description := String.ofList fields.description
              rawSize := hexWord? fields.rawSize
              address, parameters } }

/-- True for the lines that hold no row: blank ones and comments. -/
def isSkipped (line : List Char) : Bool :=
  match line with
  | [] => true
  | c :: _ => c == '#'

/-- The templates of the given lines, the first of which has the number `line`, behind the notices
and templates of the lines before them. The first malformed row ends the reading. -/
def readLines (line : Nat) (notices : Array Notice) (templates : Array Template) :
    List (List Char) → Outcome (List Template)
  | [] => ⟨notices.toList, .ok templates.toList⟩
  | text :: rest =>
    let row := Text.trim text
    if isSkipped row then
      readLines (line + 1) notices templates rest
    else
      let outcome := readRow row line
      let notices := notices ++ outcome.notices
      match outcome.result with
      | .error failure => ⟨notices.toList, .error failure⟩
      | .ok template => readLines (line + 1) notices (templates.push template) rest

/-- The templates of a definition text, in the order of its rows. Lines are numbered from one. -/
def read (source : String) : Outcome (List Template) :=
  readLines 1 #[] #[] (source.toList.splitOn '\n')

end PacScript.Definition
