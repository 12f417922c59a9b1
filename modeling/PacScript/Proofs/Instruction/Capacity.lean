import PacScript.Proofs.Instruction.Bounds
import PacScript.Proofs.Instruction.Steps

/-!
# How many parameters an instruction has room for

A count in the bytes may be any number up to the largest word, but what it announces has to stand
in the buffer. Every part takes bytes, and each kind of part a least number of them (`Part.least`),
so a walk has gone over a byte at least for every parameter that it has found (`Walk.HasRoom`), and
an instruction has no more parameters than bytes behind its signature
(`Instruction.size_parameters_le`).

A count that `Announces` more elements than there are words left behind it leaves the instruction
cut off, because one of its elements is due and does not stand (`Due.exists_element`). That a count
is announced is said of the buffer, not of the instruction; but the counts that an instruction shows
are among those that are (`Instruction.isAnnounced_of_decode`).
-/

namespace PacScript

namespace Arguments

open Bytes (At)

/-! ## The bytes of a part -/

/-- How many bytes a part takes at least. In front of the tag of a variable there may be others, and
in front of the end of a string there is its text. -/
def Part.least : Part → Nat
  | .fixed _ => 4
  | .tagged width => width.tagSize + width.valueSize
  | .string => 1
  | .count form => form.size
  | .identifier _ skipped => skipped + 4

/-- No part is without bytes. -/
theorem Part.least_pos (part : Part) : 0 < part.least := by
  cases part with
  | fixed | string | identifier => exact Nat.succ_pos _
  | tagged width => cases width <;> decide
  | count form => cases form <;> decide

/-- Whatever the elements of a list are, each takes four bytes at least. -/
theorem four_le_least (kind : ElementKind) : 4 ≤ kind.part.least := by
  cases kind with
  | fixed word => exact Nat.le_refl _
  | tagged width => cases width <;> decide

/-- A part takes the bytes that its kind takes at least. -/
theorem Part.Holds.least_le_length {part : Part} {position : Nat} {bytes : List UInt8}
    {label : String} {value : Value} (h : part.Holds position bytes label value) :
    part.least ≤ bytes.length := by
  cases h with
  | integer | float | jumpTarget | taggedHalf | taggedCompact | countByte | countTaggedWord |
    countWord => exact Nat.le_refl _
  | taggedWord =>
    rw [List.length_append]
    exact Nat.le_add_left _ _
  | string =>
    rw [List.length_append]
    exact Nat.le_add_left _ _
  | identifier hcategory =>
    rw [List.length_append, hcategory]
    exact Nat.le_refl _

/-- Elements take the bytes of each of them. -/
theorem Elements.least_mul_le_length {part : Part} {name : String} {position index count : Nat}
    {bytes : List UInt8} {parameters : List Parameter}
    (h : Elements part name position index count bytes parameters) :
    part.least * count ≤ bytes.length := by
  induction h with
  | nil => exact Nat.le_refl _
  | @cons position index count bytes rest label value parameters hhead htail ih =>
    calc part.least * (count + 1) = part.least + part.least * count := by
          rw [Nat.mul_succ, Nat.add_comm]
      _ ≤ bytes.length + rest.length := Nat.add_le_add hhead.least_le_length ih
      _ = (bytes ++ rest).length := List.length_append.symm

/-! ## The parameters of a walk -/

/-- A walk from `start` has room for what it has found: it is in the buffer, and has gone over a
byte at least for every parameter. -/
structure Walk.HasRoom (data : ByteArray) (start : Nat) (walk : Walk) : Prop where
  /-- Every parameter has taken a byte. -/
  parameters_le : start + walk.parameters.size ≤ walk.position
  /-- The walk is in the buffer. -/
  le_size : walk.position ≤ data.size

/-- Reading a part takes the room for its parameter. -/
theorem Walk.HasRoom.take {data : ByteArray} {start : Nat} {walk : Walk}
    (h : walk.HasRoom data start) (name : String) (part : Part) :
    (walk.take name (part.read data walk.position)).HasRoom data start := by
  have hsize := h.le_size
  have hle : walk.position ≤ (part.read data walk.position).position := part.le_position_read _
  have hbound : (part.read data walk.position).position ≤ max walk.position data.size :=
    part.position_read_le _
  cases hread : part.read data walk.position with
  | stopped stop =>
    rw [hread] at hle hbound
    exact ⟨Nat.le_trans h.parameters_le hle, by rwa [Nat.max_eq_right hsize] at hbound⟩
  | complete label value next =>
    rw [hread] at hbound
    obtain ⟨bytes, -, hholds, rfl⟩ := Part.read_eq_complete_iff.1 hread
    have htaken : 1 ≤ bytes.length := Nat.le_trans part.least_pos hholds.least_le_length
    refine ⟨?_, by rwa [Nat.max_eq_right hsize] at hbound⟩
    calc start + (walk.parameters.push ⟨label, name, value⟩).size
        = start + walk.parameters.size + 1 := by rw [Array.size_push, Nat.add_assoc]
      _ ≤ walk.position + bytes.length := Nat.add_le_add h.parameters_le htaken

/-- A walk over arguments has room for its parameters, wherever it is stopped. -/
theorem Walk.HasRoom.arguments {data : ByteArray} {start : Nat} {walk : Walk}
    (h : walk.HasRoom data start) (declarations : List Declaration) :
    (walk.arguments data declarations).HasRoom data start :=
  arguments_induction (fun _ _ part _ _ name hwalk => hwalk.take name part) h

/-! ## Announced elements -/

/-- `Announces data declarations position count remaining` says that from the position on there is
all that is declared up to a count, which is `count`, and that the buffer has `remaining` bytes
behind it. -/
def Announces (data : ByteArray) (declarations : List Declaration) (position : Nat)
    (count : UInt32) (remaining : Nat) : Prop :=
  ∃ form place bytes label parameters,
    Due data declarations position (.count form) place parameters ∧ At data place bytes ∧
      (Part.count form).Holds place bytes label (.int count) ∧
      place + bytes.length + remaining = data.size

variable {data : ByteArray} {declarations rest : List Declaration} {position place : Nat}
  {part : Part} {parameters : List Parameter}

/-- When there is no room for the elements behind a count, one of them does not stand. -/
theorem Due.exists_element {form : CountForm} {bytes : List UInt8} {label : String}
    {count : UInt32} (h : Due data declarations position (.count form) place parameters)
    (hat : At data place bytes)
    (hcount : (Part.count form).Holds place bytes label (.int count))
    (hend : place + bytes.length ≤ data.size)
    (hroom : data.size < place + bytes.length + 4 * count.toNat) :
    ∃ (kind : ElementKind) (stop : Nat) (found : List Parameter),
      Due data declarations position kind.part stop found ∧ ¬ kind.part.Stands data stop := by
  generalize hpart : Part.count form = part at h
  induction h with
  | @single kind part name rest position hsingle =>
    subst hpart
    exact absurd hsingle (kind.part?_ne_count form)
  | @count form' kind name rest position =>
    obtain rfl := Part.count.inj hpart
    have hstands :=
      exists_elements_or_stops data kind.part name count.toNat (position + bytes.length) 0
    obtain ⟨elements, found, helements, hall⟩ |
      ⟨index, hindex, elements, found, helements, hfront, hstops⟩ := hstands
    · -- All elements stand, and take more bytes than there are.
      have hstop := helements.length_le hend
      have htaken : 4 * count.toNat ≤ elements.length :=
        Nat.le_trans (Nat.mul_le_mul_right _ (four_le_least kind)) hall.least_mul_le_length
      omega
    · exact ⟨kind, _, _,
        .element ((Bytes.at_append _ _ _ _).2 ⟨hat, helements⟩) hcount hfront hindex, hstops⟩
  | @element form' kind => exact absurd hpart.symm (kind.part_ne_count form)
  | behind hpiece hwhole hrest ih =>
    obtain ⟨kind, stop, found, hdue, hstops⟩ := ih hat hcount hend hroom hpart
    exact ⟨kind, stop, _, .behind hpiece hwhole hdue, hstops⟩

/-! ## Counts that are found -/

/-- No part but a count has the label of counts. -/
theorem Part.Holds.label_ne_countLabel {kind : Kind} {bytes : List UInt8} {label : String}
    {value : Value} (h : part.Holds position bytes label value) (hreads : Reads kind part)
    (hpart : ∀ form, part ≠ .count form) : label ≠ countLabel := by
  cases h with
  | integer | float | jumpTarget | string => decide
  | taggedWord _ _ hlabel | taggedHalf hlabel | taggedCompact hlabel =>
    rintro rfl
    exact absurd hlabel.mem_tagLabels (by decide)
  | countByte | countTaggedWord | countWord => exact absurd rfl (hpart _)
  | identifier =>
    rintro rfl
    exact absurd hreads.mem_identifierLabels (by decide)

/-- Elements are labelled as what they are, and never as counts. -/
theorem Elements.label_ne_countLabel {kind : Kind} {name : String} {index count : Nat}
    {bytes : List UInt8} (h : Elements part name position index count bytes parameters)
    (hreads : Reads kind part) (hpart : ∀ form, part ≠ .count form) :
    ∀ parameter ∈ parameters, parameter.label ≠ countLabel := by
  induction h with
  | nil => exact List.forall_mem_nil _
  | cons hhead htail ih =>
    exact List.forall_mem_cons.2 ⟨hhead.label_ne_countLabel hreads hpart, ih⟩

/-- A parameter that is labelled as a count is a number that has been announced. -/
def IsAnnounced (data : ByteArray) (declarations : List Declaration) (position : Nat)
    (parameter : Parameter) : Prop :=
  parameter.label = countLabel →
    ∃ count remaining, parameter.value = .int count ∧
      Announces data declarations position count remaining

/-- What is announced behind the piece of a parameter is announced in front of it. -/
theorem IsAnnounced.behind {declaration : Declaration} {bytes : List UInt8} {parameter : Parameter}
    (hat : At data position bytes)
    (hpiece : Piece data.size declaration position bytes parameters)
    (h : IsAnnounced data rest (position + bytes.length) parameter) :
    IsAnnounced data (declaration :: rest) position parameter := by
  intro hlabel
  obtain ⟨count, remaining, hvalue, form, place, other, label, found, hdue, hannounces⟩ := h hlabel
  exact ⟨count, remaining, hvalue, form, place, other, label, _, .behind hat hpiece hdue,
    hannounces⟩

/-- Of a counted parameter the count is announced, and no element is a count. -/
theorem isAnnounced_counted {form : CountForm} {kind : ElementKind} {name label : String}
    {index : Nat} {bytes elements : List UInt8} {count : UInt32}
    (hposition : position ≤ data.size) (hat : At data position bytes)
    (hcount : (Part.count form).Holds position bytes label (.int count))
    (helements : Elements kind.part name (position + bytes.length) 0 index elements parameters) :
    ∀ parameter ∈ (⟨label, name, .int count⟩ : Parameter) :: parameters,
      IsAnnounced data (⟨.counted form kind, name⟩ :: rest) position parameter := by
  have hend := hat.length_le hposition
  refine List.forall_mem_cons.2 ⟨fun _ => ?_, fun parameter hmem hlabel => ?_⟩
  · exact ⟨count, data.size - (position + bytes.length), rfl, form, position, bytes, label, [],
      .count, hat, hcount, Nat.add_sub_cancel' hend⟩
  · have hne := helements.label_ne_countLabel (.element form kind) kind.part_ne_count
    exact absurd hlabel (hne parameter hmem)

/-- The counts in a piece are announced. -/
theorem Piece.isAnnounced {declaration : Declaration} {bytes : List UInt8}
    (h : Piece data.size declaration position bytes parameters) (hposition : position ≤ data.size)
    (hat : At data position bytes) :
    ∀ parameter ∈ parameters, IsAnnounced data (declaration :: rest) position parameter := by
  cases h with
  | @single kind part name label _ _ value hpart hholds =>
    refine List.forall_mem_singleton.2 fun hlabel => absurd hlabel ?_
    apply hholds.label_ne_countLabel (.single hpart)
    rintro form rfl
    exact kind.part?_ne_count form hpart
  | counted hcount helements =>
    exact isAnnounced_counted hposition ((Bytes.at_append _ _ _ _).1 hat).1 hcount helements
  | continuous helements =>
    intro parameter hmem hlabel
    exact absurd hlabel (helements.label_ne_countLabel .word (by simp) parameter hmem)

/-- The counts in consecutive pieces are announced. -/
theorem Pieces.isAnnounced {pieces : List (List UInt8)}
    (h : Pieces data.size declarations position pieces parameters)
    (hposition : position ≤ data.size) (hat : At data position pieces.flatten) :
    ∀ parameter ∈ parameters, IsAnnounced data declarations position parameter := by
  induction h with
  | nil => exact List.forall_mem_nil _
  | cons hhead htail ih =>
    rw [List.flatten_cons, Bytes.at_append] at hat
    refine List.forall_mem_append.2 ⟨hhead.isAnnounced hposition hat.1, fun parameter hmem => ?_⟩
    exact .behind hat.1 hhead (ih (hat.1.length_le hposition) hat.2 parameter hmem)

/-- The counts in front of a due part are announced. -/
theorem Due.isAnnounced (h : Due data declarations position part place parameters)
    (hposition : position ≤ data.size) :
    ∀ parameter ∈ parameters, IsAnnounced data declarations position parameter := by
  induction h with
  | single | count => exact List.forall_mem_nil _
  | element hat hcount helements hindex =>
    exact isAnnounced_counted hposition ((Bytes.at_append _ _ _ _).1 hat).1 hcount helements
  | behind hat hpiece hrest ih =>
    refine List.forall_mem_append.2 ⟨hpiece.isAnnounced hposition hat, fun parameter hmem => ?_⟩
    exact .behind hat hpiece (ih (hat.length_le hposition) parameter hmem)

end Arguments

open Arguments (Announces IsAnnounced Walk)

namespace Instruction

variable {data : ByteArray} {offset : Nat} {template : Template} {instruction : Instruction}

/-- An instruction has a byte at least for every parameter, and those of its signature. -/
theorem size_parameters_le (hoffset : offset + 4 ≤ data.size)
    (h : decode data offset template = .ok instruction) :
    instruction.parameters.size + 4 ≤ instruction.size := by
  have hstart : (Walk.start (offset + 4)).HasRoom data (offset + 4) := ⟨Nat.le_refl _, hoffset⟩
  have hroom : (template.walk data offset).HasRoom data (offset + 4) := hstart.arguments _
  obtain ⟨-, -, -, hraw, hset⟩ := eq_of_decode h
  have hparameters : instruction.parameters.size = (template.walk data offset).parameters.size := by
    rw [ParameterSet.size, ParameterSet.ordered_of_ofList hset, Array.length_toList]
  have hsize : instruction.size = (template.walk data offset).position - offset := by
    rw [size, hraw, Nat.min_eq_left hroom.le_size, ByteArray.size_extract,
      Nat.min_eq_left hroom.le_size]
  have htaken := hroom.parameters_le
  omega

/-- An instruction is cut off when it announces more elements than there are words left. -/
theorem cutOff_of_announces (hoffset : offset + 4 ≤ data.size)
    (h : decode data offset template = .ok instruction) {count : UInt32} {remaining : Nat}
    (hannounces : Announces data template.parameters (offset + 4) count remaining)
    (hmany : remaining / 4 < count.toNat) : instruction.cutOff = true := by
  obtain ⟨form, place, bytes, label, parameters, hdue, hat, hcount, hremaining⟩ := hannounces
  obtain ⟨kind, stop, found, helement, hstops⟩ :=
    hdue.exists_element hat hcount (by omega) (by omega)
  exact (stopsAt_of_breaks hoffset h ⟨helement, hstops⟩).cutOff

/-- The counts that an instruction shows have been announced, whether it is cut off or not. -/
theorem isAnnounced_of_decode (hoffset : offset + 4 ≤ data.size)
    (h : decode data offset template = .ok instruction) :
    ∀ parameter ∈ instruction.parameters.ordered,
      IsAnnounced data template.parameters (offset + 4) parameter := by
  cases hcutOff : instruction.cutOff with
  | false =>
    obtain ⟨pieces, hat, hpieces, -⟩ := exists_pieces_of_decode hoffset h hcutOff
    exact hpieces.isAnnounced hoffset hat
  | true =>
    obtain hcomplete | ⟨part, place, parameters, hbreaks⟩ :=
      template.completes_or_breaks data offset
    · rw [cutOff_eq_false_of_completes h hcomplete] at hcutOff
      simp at hcutOff
    · rw [(stopsAt_of_breaks hoffset h hbreaks).ordered]
      exact hbreaks.due.isAnnounced hoffset

/-- What the buffer leaves of the counts in it: an instruction has only the parameters that it has
bytes for, and it is cut off when it announces more. -/
structure HasRoom (instruction : Instruction) (data : ByteArray) (offset : Nat)
    (template : Template) : Prop where
  /-- There is a byte at least for every parameter, apart from the signature. -/
  parameters_le : instruction.parameters.size + 4 ≤ instruction.size
  /-- The counts among the parameters have been announced. -/
  announced : ∀ parameter ∈ instruction.parameters.ordered,
    IsAnnounced data template.parameters (offset + 4) parameter
  /-- A count of more elements than there are words behind it is not satisfied. -/
  cutOff_of_many : ∀ count remaining,
    Announces data template.parameters (offset + 4) count remaining →
      remaining / 4 < count.toNat → instruction.cutOff = true

end Instruction

end PacScript
