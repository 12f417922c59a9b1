import PacScript.Bytes
import PacScript.Template.Kind
import PacScript.Text.Numeral

/-!
# Failures

Only what must end an operation is a failure. Unknown opcodes, instructions that stop early and
empty buffers are described by the entities of a script instead.
-/

namespace PacScript

/-- Why a file could not be read. -/
inductive FileFault where
  /-- There is no such file. -/
  | missing
  /-- A directory where a file was expected. -/
  | isDirectory
  /-- A file where a directory was expected. -/
  | notDirectory
  /-- A path or a name in it is longer than those of files can be. -/
  | tooLong
  /-- A path has a NUL character in it, which names of files cannot have. -/
  | nulInPath
  /-- The bytes of a text file are not UTF-8. -/
  | notUnicode
  /-- Any other cause, in the words of the system. -/
  | other (text : String)
  deriving DecidableEq, Repr

/-- The wording of a file fault. Faults that the system reports come with their number there. -/
def FileFault.message : FileFault → String
  | missing => "No such file or directory (os error 2)"
  | isDirectory => "Is a directory (os error 21)"
  | notDirectory => "Not a directory (os error 20)"
  | tooLong => "File name too long (os error 36)"
  | nulInPath => "file name contained an unexpected NUL byte"
  | notUnicode => "stream did not contain valid UTF-8"
  | other text => text

/-- Why a definition row declares no template. -/
inductive RowFault where
  /-- The row has too few fields. -/
  | tooFewFields (found : Nat)
  /-- A byte of the signature is not a hexadecimal byte. -/
  | signatureByte (index : Nat) (field : String)
  /-- The address is not a hexadecimal word. -/
  | address (field : String)
  /-- A parameter kind stands without a name. -/
  | unpairedParameter
  /-- A parameter kind is not known. -/
  | kind (fault : KindFault)
  deriving DecidableEq, Repr

/-- The number of fields of a row without parameters. -/
def minimumFields : Nat := 10

/-- The wording of a fault in a row. -/
def RowFault.message : RowFault → String
  | tooFewFields found =>
    "expected at least " ++ toString minimumFields ++ " fields, found " ++ toString found
  | signatureByte index field =>
    "signature byte " ++ toString index ++ " `" ++ field ++ "` is not hex"
  | address field => "address `" ++ field ++ "` is not hex"
  | unpairedParameter => "parameter fields must come in kind;name pairs"
  | kind fault => fault.message

/-- Why an operation failed. -/
inductive Failure where
  /-- A file could not be read. -/
  | file (fault : FileFault)
  /-- A directory could not be listed. -/
  | listing (path : String) (fault : FileFault)
  /-- A row of a definition text is malformed. -/
  | row (line : Nat) (fault : RowFault)
  /-- Two parameters of the instruction at `offset` have the same label and name. -/
  | duplicateKey (offset : Nat) (label name : String)
  /-- A read ran past the end of the buffer. -/
  | truncated (truncation : Truncation)
  deriving DecidableEq, Repr

namespace Failure

/-- What went wrong with a file or a directory, from the outermost account of it to the innermost
one; empty for the other failures. -/
def systemCauses : Failure → List String
  | file fault => [fault.message]
  | listing path fault =>
    ["IO error for operation on " ++ path ++ ": " ++ fault.message, fault.message]
  | _ => []

/-- The wording of a failure. -/
def message : Failure → String
  | file fault => "IO error: " ++ fault.message
  | listing path fault => "IO error: IO error for operation on " ++ path ++ ": " ++ fault.message
  | row line fault =>
    "Malformed definition row at line " ++ toString line ++ ": " ++ fault.message
  | duplicateKey offset label name =>
    "Duplicate parameter key (" ++ label ++ "; " ++ name ++ ") in instruction at offset 0x" ++
      Text.hex 8 offset
  | truncated ⟨offset, expected, actual⟩ =>
    "Truncated data at offset " ++ toString offset ++ ": expected " ++ toString expected ++
      " bytes, got " ++ toString actual

/-- The failure with each of its causes after it, as a diagnostic prints it. -/
def chain (failure : Failure) : String :=
  ": ".intercalate (failure.message :: failure.systemCauses)

end Failure

end PacScript
