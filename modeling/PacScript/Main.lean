import PacScript.CommandLine.Run

/-!
# The command

Runs the command line on the files and the environment of the system.
-/

namespace PacScript.CommandLine

/-- What a failure of the system to read a file says. -/
def systemFault (error : IO.Error) : FileFault :=
  match error with
  | .noFileOrDirectory _ _ _ => .missing
  | .inappropriateType _ 20 _ => .notDirectory
  | .inappropriateType _ 21 _ => .isDirectory
  | .invalidArgument _ 36 _ => .tooLong
  | other => .other (toString other)

/-- Access to the files of the system. Directories are not listed. -/
def systemFiles : Files IO where
  read path := do
    try
      return .ok (← IO.FS.readBinFile path)
    catch error =>
      return .error (systemFault error)
  list? := none

/-- Carries out a command on the files and the environment of the system. -/
def runSystem (arguments : List String) : IO UInt32 := do
  let environment : Environment := {
    definitions := ← IO.getEnv "PAC_DEFINITIONS"
    indexedJump := ← IO.getEnv "PAC_INDEXED_JUMP" }
  let outcome ← run systemFiles environment arguments
  IO.print outcome.output
  for error in outcome.errors do
    IO.eprintln error
  return outcome.code

end PacScript.CommandLine

/-- Runs the command. -/
def main (arguments : List String) : IO UInt32 :=
  PacScript.CommandLine.runSystem arguments
