import PacScript.Report.Document
import PacScript.Report.Listing

/-!
# Reports on a script

A script is reported as a listing, as a JSON document, or as one line of counts. A listing is put
together from a header, a line for each entity and a footer; the other formats have no such parts.
-/

namespace PacScript

/-- The formats of a report. -/
inductive Format where
  /-- A line for each entity. -/
  | listing (verbose : Bool)
  /-- A JSON document, with one member a line if it is pretty. -/
  | document (pretty : Bool)
  /-- A line of counts. -/
  | summary
  deriving DecidableEq, Repr

/-- The line of counts: the file, its size, and how many entities, known, unknown and cut-off
instructions and tables it has. -/
def Script.summary (script : Script) (path : String) : String :=
  let tables := (script.ofKind .messageTable).length + (script.ofKind .jumpTable).length
  "\t".intercalate (path :: [script.size, script.length, script.instructionCount,
    script.unknownCount, script.cutOffCount, tables].map toString) ++ "\n"

namespace Format

/-- What stands before the entities. -/
def header? (format : Format) (path : String) (script : Script) : Option String :=
  match format with
  | listing true => some (Listing.header path script)
  | _ => none

/-- The line of an entity, without its end. -/
def entity? (format : Format) (entity : Entity) : Option String :=
  match format with
  | listing verbose => some (Listing.line verbose entity)
  | _ => none

/-- What stands behind the entities. -/
def footer? (format : Format) (script : Script) : Option String :=
  match format with
  | listing true => some (Listing.footer script)
  | _ => none

/-- The report on a script that was read from the file of the given name. -/
def render (format : Format) (path : String) (script : Script) : String :=
  match format with
  | listing verbose =>
    let lines := script.entities.foldl
      (fun text entity => text ++ Listing.line verbose entity ++ "\n")
      ((format.header? path script).getD "")
    lines ++ (format.footer? script).getD ""
  | document pretty =>
    let json := script.toJson path
    (if pretty then json.pretty else json.compact) ++ "\n"
  | summary => script.summary path

end Format

end PacScript
