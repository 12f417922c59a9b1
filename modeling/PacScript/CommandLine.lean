import PacScript.Text.Numeral

/-!
# The command line

The arguments are files and options, in any order, and `--` ends the options. A long option has its
value behind an equals sign or in the next argument; short options may be joined, and one with a
value takes the rest of its argument or the next one. A value in an argument of its own does not
begin with `-`, but may be a single `-`. Options other than the two lists of signatures are given
once at most.

Arguments are looked at one after the other. The first fault rejects them all, unless the version or
the help was asked for before it.
-/

namespace PacScript.CommandLine

/-- The reports that can be asked for. -/
inductive FormatName where
  /-- A listing. -/
  | listing
  /-- A JSON document. -/
  | json
  /-- A line of counts. -/
  | summary
  deriving DecidableEq, Repr

/-- The policies that can be asked for. -/
inductive PolicyName where
  /-- Every marker is a candidate. -/
  | permissive
  /-- Markers with a class of shipped scripts are. -/
  | conservative
  /-- Markers with the signature of a template are. -/
  | knownOnly
  deriving DecidableEq, Repr

/-- The options without a value. -/
inductive Switch where
  /-- Do not capture jump tables. -/
  | noJumpTables
  /-- Print a summary of the control flow. -/
  | flow
  /-- Print more. -/
  | verbose
  /-- Print the version. -/
  | version
  /-- Print the help. -/
  | help
  deriving DecidableEq, Repr

/-- The options with a value. -/
inductive Setting where
  /-- The definition file. -/
  | definitions
  /-- The format of the reports. -/
  | format
  /-- The policy for markers. -/
  | policy
  /-- The signature of the indexed jump. -/
  | indexedJump
  /-- Signatures of terminators. -/
  | terminators
  /-- Signatures of calls. -/
  | calls
  /-- A directory of script files. -/
  | directory
  deriving DecidableEq, Repr

/-- An option. -/
inductive Flag where
  /-- One without a value. -/
  | switch (switch : Switch)
  /-- One with a value. -/
  | setting (setting : Setting)
  deriving DecidableEq, Repr

/-- The option of a long name. Directories are an option only where they can be listed. -/
def Flag.ofLong? (directories : Bool) (name : List Char) : Option Flag :=
  match String.ofList name with
  | "definitions" => some (.setting .definitions)
  | "format" => some (.setting .format)
  | "policy" => some (.setting .policy)
  | "indexed-jump" => some (.setting .indexedJump)
  | "no-jump-tables" => some (.switch .noJumpTables)
  | "terminators" => some (.setting .terminators)
  | "calls" => some (.setting .calls)
  | "flow" => some (.switch .flow)
  | "directory" => if directories then some (.setting .directory) else none
  | "verbose" => some (.switch .verbose)
  | "version" => some (.switch .version)
  | "help" => some (.switch .help)
  | _ => none

/-- The option of a short name. -/
def Flag.ofShort? (name : Char) : Option Flag :=
  match name with
  | 'd' => some (.setting .definitions)
  | 'f' => some (.setting .format)
  | 'p' => some (.setting .policy)
  | 'v' => some (.switch .verbose)
  | 'V' => some (.switch .version)
  | 'h' => some (.switch .help)
  | _ => none

/-- The format of a name. -/
def FormatName.ofName? (name : String) : Option FormatName :=
  match name with
  | "listing" => some .listing
  | "json" => some .json
  | "summary" => some .summary
  | _ => none

/-- The policy of a name. -/
def PolicyName.ofName? (name : String) : Option PolicyName :=
  match name with
  | "permissive" => some .permissive
  | "conservative" => some .conservative
  | "known-only" => some .knownOnly
  | _ => none

/-- A signature in hexadecimal. -/
def signature? (text : List Char) : Option UInt32 :=
  (Text.hexNumeral? 0x100000000 text).map UInt32.ofNat

/-- Signatures in hexadecimal with commas between them. -/
def signatures? (text : List Char) : Option (List UInt32) :=
  (text.splitOn ',').mapM signature?

/-- What has been given so far. -/
structure Given where
  /-- The files. -/
  files : Array String := #[]
  /-- The definition file. -/
  definitions : Option String := none
  /-- The format of the reports. -/
  format : Option FormatName := none
  /-- The policy for markers. -/
  policy : Option PolicyName := none
  /-- The signature of the indexed jump. -/
  indexedJump : Option UInt32 := none
  /-- Do not capture jump tables. -/
  noJumpTables : Bool := false
  /-- Signatures of terminators. -/
  terminators : List UInt32 := []
  /-- Signatures of calls. -/
  calls : List UInt32 := []
  /-- Print a summary of the control flow. -/
  flow : Bool := false
  /-- A directory of script files. -/
  directory : Option String := none
  /-- Print more. -/
  verbose : Bool := false

/-- Why the arguments are no order to scan files. -/
inductive Halt where
  /-- They are rejected. -/
  | rejected
  /-- The version was asked for. -/
  | version
  /-- The help was asked for. -/
  | help
  deriving DecidableEq, Repr

/-- The value of an option that may be given once. -/
def once {α : Type} (before : Option α) (value : Option α) : Except Halt (Option α) :=
  match before, value with
  | none, some value => .ok (some value)
  | _, _ => .error .rejected

/-- A path, which is not empty. -/
def path? (text : List Char) : Option String :=
  if text.isEmpty then none else some (String.ofList text)

namespace Given

/-- Takes a file. -/
def addFile (given : Given) (text : List Char) : Except Halt Given :=
  match path? text with
  | some path => .ok { given with files := given.files.push path }
  | none => .error .rejected

/-- Takes an option without a value. -/
def setSwitch (given : Given) : Switch → Except Halt Given
  | .noJumpTables =>
    if given.noJumpTables then .error .rejected else .ok { given with noJumpTables := true }
  | .flow => if given.flow then .error .rejected else .ok { given with flow := true }
  | .verbose => if given.verbose then .error .rejected else .ok { given with verbose := true }
  | .version => .error .version
  | .help => .error .help

/-- Takes the value of an option. -/
def set (given : Given) (setting : Setting) (text : List Char) : Except Halt Given :=
  match setting with
  | .definitions => (once given.definitions (path? text)).map ({ given with definitions := · })
  | .format =>
    (once given.format (FormatName.ofName? (String.ofList text))).map ({ given with format := · })
  | .policy =>
    (once given.policy (PolicyName.ofName? (String.ofList text))).map ({ given with policy := · })
  | .indexedJump => (once given.indexedJump (signature? text)).map ({ given with indexedJump := · })
  | .terminators =>
    match signatures? text with
    | some more => .ok { given with terminators := given.terminators ++ more }
    | none => .error .rejected
  | .calls =>
    match signatures? text with
    | some more => .ok { given with calls := given.calls ++ more }
    | none => .error .rejected
  | .directory => (once given.directory (path? text)).map ({ given with directory := · })

/-- Takes joined short options. An option with a value takes what follows it, without an equals
sign; if nothing does, it is returned to be given the next argument. -/
def addShort (given : Given) : List Char → Except Halt (Given × Option Setting)
  | [] => .ok (given, none)
  | name :: rest =>
    match Flag.ofShort? name with
    | none => .error .rejected
    | some (.switch switch) =>
      match given.setSwitch switch with
      | .error halt => .error halt
      | .ok given => given.addShort rest
    | some (.setting setting) =>
      match rest with
      | [] => .ok (given, some setting)
      | '=' :: value => (given.set setting value).map (·, none)
      | value => (given.set setting value).map (·, none)

/-- Takes a long option, with its value if it is behind an equals sign; an option that still needs
its value is returned. -/
def addLong (directories : Bool) (given : Given) (text : List Char) :
    Except Halt (Given × Option Setting) :=
  let name := text.takeWhile (· != '=')
  let value := match text.dropWhile (· != '=') with
    | [] => none
    | _ :: value => some value
  match Flag.ofLong? directories name, value with
  | some (.switch switch), none => (given.setSwitch switch).map (·, none)
  | some (.setting setting), some value => (given.set setting value).map (·, none)
  | some (.setting setting), none => .ok (given, some setting)
  | _, _ => .error .rejected

/-- True for an argument that is an option or ends the options. -/
def isOption (text : List Char) : Bool :=
  match text with
  | '-' :: _ :: _ => true
  | _ => false

/-- Takes the arguments in order; `pending` is an option that still needs its value. -/
def addAll (directories : Bool) (given : Given) (pending : Option Setting) :
    List (List Char) → Except Halt Given
  | [] => if pending.isSome then .error .rejected else .ok given
  | text :: rest =>
    match pending with
    | some setting =>
      if isOption text then .error .rejected
      else match given.set setting text with
        | .error halt => .error halt
        | .ok given => given.addAll directories none rest
    | none =>
      match text with
      | ['-', '-'] => rest.foldlM addFile given
      | '-' :: '-' :: long =>
        match given.addLong directories long with
        | .error halt => .error halt
        | .ok (given, pending) => given.addAll directories pending rest
      | '-' :: c :: short =>
        match given.addShort (c :: short) with
        | .error halt => .error halt
        | .ok (given, pending) => given.addAll directories pending rest
      | file =>
        match given.addFile file with
        | .error halt => .error halt
        | .ok given => given.addAll directories none rest

end Given

/-- An order to scan files. -/
structure Invocation where
  /-- The files. -/
  files : List String
  /-- The definition file. -/
  definitions : String
  /-- The format of the reports. -/
  format : FormatName
  /-- The policy for markers. -/
  policy : PolicyName
  /-- The signature of the indexed jump. -/
  indexedJump : Option UInt32
  /-- Whether jump tables are captured. -/
  captureJumpTables : Bool
  /-- Signatures of terminators. -/
  terminators : List UInt32
  /-- Signatures of calls. -/
  calls : List UInt32
  /-- Whether a summary of the control flow is printed. -/
  flow : Bool
  /-- A directory of script files. -/
  directory : Option String
  /-- Whether listings are verbose. -/
  verbose : Bool

/-- What the environment gives for options that are not among the arguments. -/
structure Environment where
  /-- The definition file. -/
  definitions : Option String := none
  /-- The signature of the indexed jump. -/
  indexedJump : Option String := none

/-- A value from the arguments, or else from the environment, where it has to be well-formed. -/
def fromEnvironment {α : Type} (given : Option α) (text : Option String)
    (read : List Char → Option α) : Except Halt (Option α) :=
  match given, text with
  | some value, _ => .ok (some value)
  | none, none => .ok none
  | none, some text => once none (read text.toList)

/-- Reads arguments. Formats are listings and the policy is permissive if nothing else is given. -/
def parse (directories : Bool) (environment : Environment) (arguments : List String) :
    Except Halt Invocation := do
  let given ← Given.addAll directories {} none (arguments.map String.toList)
  let definitions ← fromEnvironment given.definitions environment.definitions path?
  let indexedJump ← fromEnvironment given.indexedJump environment.indexedJump signature?
  match definitions with
  | none => .error .rejected
  | some definitions =>
    .ok {
      files := given.files.toList
      definitions, indexedJump
      format := given.format.getD .listing
      policy := given.policy.getD .permissive
      captureJumpTables := !given.noJumpTables
      terminators := given.terminators
      calls := given.calls
      flow := given.flow
      directory := given.directory
      verbose := given.verbose }

end PacScript.CommandLine
