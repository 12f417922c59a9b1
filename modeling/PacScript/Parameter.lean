import Std.Data.TreeMap
import Std.Data.TreeSet
import PacScript.Decimal.Layout
import PacScript.Failure
import PacScript.Text.Numeral

/-!
# Decoded parameters

A parameter that was found in the bytes of an instruction has a label, which says what it turned
out to be, the name under which the template declares it, and a value. The parameters of an
instruction form a `ParameterSet`: a list in which no two have the same label and name.
-/

namespace PacScript

/-- The value of a parameter. A float is its bits, so that values are equal exactly when the bytes
they were read from are. -/
inductive Value where
  /-- An integer. -/
  | int (value : UInt32)
  /-- A 32-bit float. -/
  | float (bits : UInt32)
  /-- A text. -/
  | text (value : String)
  deriving DecidableEq, Repr

/-- Floats are printed without an exponent and with the fewest digits that read back, the larger
decimal in a tie; a whole number has no point. -/
def Value.floats : Decimal.Layout where
  tie := .up
  positional := none
  wholeMark := false

/-- A float as it is printed. -/
def Value.displayFloat (bits : UInt32) : String :=
  match Decimal.Single.ofBits bits with
  | .nan => "NaN"
  | .infinite negative => Decimal.sign negative ++ "inf"
  | _ => (floats.single? bits).getD ""

/-- A value as it is printed: integers in hexadecimal, texts in quotes. -/
def Value.display : Value → String
  | int value => Text.hex 1 value.toNat
  | float bits => displayFloat bits
  | text value => "\"" ++ value ++ "\""

/-- A parameter that was found in the bytes of an instruction. -/
structure Parameter where
  /-- What it turned out to be. -/
  label : String
  /-- The name that the template gives it, with an index for the elements of a sequence. -/
  name : String
  /-- Its value. -/
  value : Value
  deriving DecidableEq, Repr

/-- What tells the parameters of an instruction apart. -/
def Parameter.key (parameter : Parameter) : String × String :=
  (parameter.label, parameter.name)

/-- The parameters of an instruction in the order in which they were found. -/
structure ParameterSet where
  /-- The parameters. -/
  ordered : List Parameter
  /-- No two parameters have the same label and name. -/
  nodup_keys : (ordered.map Parameter.key).Nodup
  deriving DecidableEq

namespace ParameterSet

/-- A set of the keys that were met. -/
abbrev Keys := Std.TreeSet (String × String) lexOrd.compare

/-- The first parameter whose key was met before, `seen` being the keys of the parameters before
these. -/
def repeated? (seen : Keys) : List Parameter → Option Parameter
  | [] => none
  | parameter :: rest =>
    if seen.contains parameter.key then some parameter
    else repeated? (seen.insert parameter.key) rest

/-- A list in which no key repeats, and none is in `seen`, has no first repetition. -/
theorem repeated?_eq_none {parameters : List Parameter} {seen : Keys}
    (h : repeated? seen parameters = none) :
    (parameters.map Parameter.key).Nodup ∧ ∀ p ∈ parameters, seen.contains p.key = false := by
  induction parameters generalizing seen with
  | nil => simp
  | cons parameter rest ih =>
    simp only [repeated?] at h
    split at h
    · simp at h
    · rename_i hnew
      obtain ⟨hnodup, hfresh⟩ := ih h
      simp only [Std.TreeSet.contains_insert, Bool.or_eq_false_iff] at hfresh
      refine ⟨?_, ?_⟩
      · simp only [List.map_cons, List.nodup_cons, List.mem_map, not_exists, not_and]
        refine ⟨fun p hp heq => ?_, hnodup⟩
        have := (hfresh p hp).1
        rw [heq] at this
        simp [Std.ReflCmp.compare_self] at this
      · intro p hp
        rcases List.mem_cons.1 hp with rfl | hp
        · exact Bool.eq_false_iff.2 hnew
        · exact (hfresh p hp).2

/-- The set of a list of parameters of the instruction at `offset`. It fails with the first
parameter that repeats the key of one before it. -/
def ofList (parameters : List Parameter) (offset : Nat) : Except Failure ParameterSet :=
  match h : repeated? ∅ parameters with
  | some parameter => .error (.duplicateKey offset parameter.label parameter.name)
  | none => .ok ⟨parameters, (repeated?_eq_none h).1⟩

/-- The set without parameters. -/
def empty : ParameterSet := ⟨[], by simp⟩

/-- The places of parameters in a list, by label and then by name. -/
abbrev Places := Std.TreeMap String (Std.TreeMap String Nat)

/-- The places with that of one more parameter. -/
def Places.add (places : Places) (parameter : Parameter) (place : Nat) : Places :=
  places.alter parameter.label fun names => some ((names.getD ∅).insert parameter.name place)

/-- The place of a label and a name. -/
def Places.find? (places : Places) (label name : String) : Option Nat :=
  places[label]?.bind (·[name]?)

/-- The places of the parameters of a list. -/
def Places.ofList (parameters : List Parameter) : Places :=
  parameters.zipIdx.foldl (fun places (parameter, place) => places.add parameter place) ∅

/-- The parameter with the given label and name. -/
def get? (set : ParameterSet) (label name : String) : Option Parameter :=
  ((Places.ofList set.ordered).find? label name).bind (set.ordered[·]?)

/-- The first parameter with the given name, whatever its label. -/
def byName? (set : ParameterSet) (name : String) : Option Parameter :=
  set.ordered.find? (·.name == name)

/-- How many parameters there are. -/
def size (set : ParameterSet) : Nat :=
  set.ordered.length

/-- True when there are no parameters. -/
def isEmpty (set : ParameterSet) : Bool :=
  set.ordered.isEmpty

end ParameterSet

end PacScript
