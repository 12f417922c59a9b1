import PacScript.Batch
import PacScript.CommandLine
import PacScript.Flow.Build
import PacScript.Report

/-!
# Carrying out a command

A command reads the definitions, then each file, and reports on it. Files are reached through a
`Files`, so that a command runs on the files of a system as well as on a file tree. A file that
cannot be read or scanned is reported as an error, and the others are still reported on; without
definitions or without files nothing is.
-/

namespace PacScript.CommandLine

/-- The name of the command. -/
def commandName : String := "pac-disasm"

/-- The version of the library. -/
def version : String := "0.1.0"

/-- The help. -/
def usage : String :=
  "Usage: " ++ commandName ++ " [OPTIONS] --definitions <DEFINITIONS> [FILES]...\n"

/-- Access to files. -/
structure Files (m : Type → Type) where
  /-- Reads a file. -/
  read : String → m (Except FileFault ByteArray)
  /-- Lists the names of the files in a directory, where directories can be listed. -/
  list? : Option (String → m (Except FileFault (List String)))

/-- Access to the files of a file tree. -/
def Files.ofTree (tree : FileTree) (directories : Bool) : Files Id where
  read path := tree.read path
  list? :=
    if directories then
      some fun path => (tree.find path).map fun found => (found.files false).map ("/".intercalate ·)
    else none

/-- What a command leaves behind. -/
structure Outcome where
  /-- The exit code. -/
  code : UInt32
  /-- What was printed. -/
  output : String := ""
  /-- The errors that were reported, in order. -/
  errors : List String := []

/-- The format of the reports. -/
def Invocation.reportFormat (invocation : Invocation) : Format :=
  match invocation.format with
  | .listing => .listing invocation.verbose
  | .json => .document true
  | .summary => .summary

/-- The scanner of a command. -/
def Invocation.scanner (invocation : Invocation) (registry : Registry) : Scanner where
  registry
  policy := match invocation.policy with
    | .permissive => .permissive
    | .conservative => .shipped
    | .knownOnly => .knownOnly
  indexedJump := invocation.indexedJump
  captureJumpTables := invocation.captureJumpTables

/-- The summary of a graph: its counts, and a line for each unresolved jump. -/
def flowSummary (graph : Flow.Graph) : String :=
  let counts := "; flow: " ++ toString graph.blocks.size ++ " blocks, " ++
    toString graph.edges.size ++ " edges, " ++ toString graph.sources.length ++ " sources, " ++
    toString graph.unresolved.size ++ " unresolved\n"
  graph.unresolved.foldl
    (fun text jump => text ++ ";   unresolved jump to " ++ Text.hex 8 jump.target ++ "\n") counts

/-- The report on a script, with the summary of its control flow if that is asked for. -/
def Invocation.report (invocation : Invocation) (path : String) (script : Script) : String :=
  let roles : Flow.Roles := { terminators := invocation.terminators, calls := invocation.calls }
  invocation.reportFormat.render path script ++
    (if invocation.flow then flowSummary (Flow.Graph.ofScript script roles) else "")

/-- The registry of a definition file. -/
def readRegistry (content : Except FileFault ByteArray) : Except Failure Registry :=
  match content with
  | .error fault => .error (.file fault)
  | .ok bytes =>
    match String.fromUTF8? bytes with
    | none => .error (.file .notUnicode)
    | some source => (Registry.load source).result

/-- The wording of a file that could not be read. Where directories can be listed, the fault is
reported as that of a batch. -/
def readError (batch : Bool) (path : String) (fault : FileFault) : String :=
  if batch then (Failure.file fault).chain else "Failed to read " ++ path ++ ": " ++ fault.message

variable {m : Type → Type} [Monad m]

/-- The files of a command: those that are named, and those of the directory. -/
def Invocation.inputs (files : Files m) (invocation : Invocation) :
    m (Except String (List String)) := do
  match invocation.directory, files.list? with
  | some root, some list =>
    match ← list root with
    | .error fault =>
      pure (.error ("Failed to list " ++ root ++ ": " ++ (Failure.listing root fault).chain))
    | .ok names => pure (.ok (invocation.files ++ Batch.scriptPaths root (names.map ([·]))))
  | _, _ => pure (.ok invocation.files)

/-- Reads and scans a file, and adds the report on it or the error. -/
def Invocation.process (files : Files m) (invocation : Invocation) (scanner : Scanner)
    (outcome : Outcome) (path : String) : m Outcome := do
  let fail (message : String) : Outcome :=
    { outcome with
      code := 1
      errors := outcome.errors ++ ["Error scanning " ++ path ++ ": " ++ message] }
  match ← files.read path with
  | .error fault => pure (fail (readError files.list?.isSome path fault))
  | .ok data =>
    match scanner.scan data with
    | .error failure => pure (fail failure.chain)
    | .ok script =>
      pure { outcome with output := outcome.output ++ invocation.report path script }

/-- Carries out an order to scan files. -/
def Invocation.run (files : Files m) (invocation : Invocation) : m Outcome := do
  let abort (message : String) : Outcome := { code := 1, errors := ["Error: " ++ message] }
  match readRegistry (← files.read invocation.definitions) with
  | .error failure =>
    pure (abort ("Failed to load definitions from " ++ invocation.definitions ++ ": " ++
      failure.chain))
  | .ok registry =>
    if registry.isEmpty then
      pure (abort (invocation.definitions ++ " contains no instruction templates"))
    else
      match ← invocation.inputs files with
      | .error message => pure (abort message)
      | .ok [] => pure (abort "No input files given")
      | .ok paths => paths.foldlM (invocation.process files (invocation.scanner registry)) { code := 0 }

/-- Carries out a command. -/
def run (files : Files m) (environment : Environment) (arguments : List String) : m Outcome :=
  match parse files.list?.isSome environment arguments with
  | .error .rejected => pure { code := 2 }
  | .error .version => pure { code := 0, output := commandName ++ " " ++ version ++ "\n" }
  | .error .help => pure { code := 0, output := usage }
  | .ok invocation => invocation.run files

end PacScript.CommandLine
