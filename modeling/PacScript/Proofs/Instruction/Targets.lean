import PacScript.Proofs.Instruction.CutOff

/-!
# The jump targets of an instruction

The jump targets of an instruction are found among its parameters by their label, which in part the
bytes choose: the label of a variable is that of its tag. Still the jump targets are the words of
the parameters that are declared as such, and of the elements of the lists that are
(`Kind.targets`), since no other part can have this label
(`Arguments.Part.Holds.jumpTarget?_eq_none`). When the instruction is cut off, they are the words
that stand in front of the place where it is (`Arguments.Taken`).
-/

namespace PacScript

/-- The words of consecutive bytes. -/
def littleWords : List UInt8 → List UInt32
  | a :: b :: c :: d :: rest => littleWord a b c d :: littleWords rest
  | _ => []

/-- The jump targets that the bytes of some elements are declared to be. -/
def ElementKind.targets : ElementKind → List UInt8 → List UInt32
  | fixed .jumpTarget, bytes => littleWords bytes
  | _, _ => []

/-- The jump targets that the bytes of a parameter are declared to be. -/
def Kind.targets : Kind → List UInt8 → List UInt32
  | fixed .jumpTarget, bytes => littleWords bytes
  | counted form kind, bytes => kind.targets (bytes.drop form.size)
  | _, _ => []

/-- The jump targets among pieces, one for each of the first declared parameters. -/
def declaredTargets (declarations : List Declaration) (pieces : List (List UInt8)) : List UInt32 :=
  (declarations.zip pieces).flatMap fun (declaration, bytes) => declaration.kind.targets bytes

namespace Arguments

open Bytes (At)
open Instruction (jumpTarget?)

/-- `Taken data declarations position pieces` says that the pieces are what a walk from the position
on takes for the declared parameters: their whole pieces, up to the first part that does not stand.
Of the parameter of this part the count and the elements in front of it are taken. -/
inductive Taken (data : ByteArray) : List Declaration → Nat → List (List UInt8) → Prop
  /-- Nothing is declared. -/
  | nil {position : Nat} : Taken data [] position []
  /-- The piece of the first declared parameter is whole. -/
  | whole {declaration : Declaration} {rest : List Declaration} {position : Nat}
      {bytes : List UInt8} {parameters : List Parameter} {pieces : List (List UInt8)}
      (hat : At data position bytes)
      (hpiece : Piece data.size declaration position bytes parameters)
      (hrest : Taken data rest (position + bytes.length) pieces) :
      Taken data (declaration :: rest) position (bytes :: pieces)
  /-- The first declared parameter is a part that does not stand. -/
  | single {kind : Kind} {part : Part} {name : String} {rest : List Declaration} {position : Nat}
      (hpart : kind.part? = some part) (hstops : ¬ part.Stands data position) :
      Taken data (⟨kind, name⟩ :: rest) position []
  /-- The count of the first declared parameter does not stand. -/
  | count {form : CountForm} {kind : ElementKind} {name : String} {rest : List Declaration}
      {position : Nat} (hstops : ¬ (Part.count form).Stands data position) :
      Taken data (⟨.counted form kind, name⟩ :: rest) position []
  /-- An element of the first declared parameter does not stand behind those in front of it. -/
  | elements {form : CountForm} {kind : ElementKind} {name label : String}
      {rest : List Declaration} {position index : Nat} {bytes elements : List UInt8}
      {count : UInt32} {parameters : List Parameter} (hat : At data position (bytes ++ elements))
      (hcount : (Part.count form).Holds position bytes label (.int count))
      (helements : Elements kind.part name (position + bytes.length) 0 index elements parameters)
      (hindex : index < count.toNat)
      (hstops : ¬ kind.part.Stands data (position + bytes.length + elements.length)) :
      Taken data (⟨.counted form kind, name⟩ :: rest) position [bytes ++ elements]

/-! ## The label of a jump target -/

/-- No tag gives a variable the label of a jump target. -/
theorem TagLabel.ne_jumpTarget {tag second : UInt8} {label : String}
    (h : TagLabel tag second label) : label ≠ WordKind.jumpTarget.label := by
  rintro rfl
  exact absurd h.mem_tagLabels (by decide)

/-- A part that is not a word for jump targets is no jump target, unless it is an identifier of this
label. -/
theorem Part.Holds.jumpTarget?_eq_none {part : Part} {position : Nat} {bytes : List UInt8}
    {label : String} {value : Value} (h : part.Holds position bytes label value)
    (hpart : part ≠ .fixed .jumpTarget)
    (hlabel : ∀ skipped, part ≠ .identifier WordKind.jumpTarget.label skipped) (name : String) :
    jumpTarget? ⟨label, name, value⟩ = none := by
  -- It is enough that the label is another one, whatever the value.
  have hnone : label ≠ WordKind.jumpTarget.label → jumpTarget? ⟨label, name, value⟩ = none := by
    intro hne
    cases value <;> simp [jumpTarget?, hne]
  apply hnone
  cases h with
  | integer | float | string | countByte | countTaggedWord | countWord => decide
  | jumpTarget => exact absurd rfl hpart
  | taggedWord _ _ hlabel | taggedHalf hlabel | taggedCompact hlabel => exact hlabel.ne_jumpTarget
  | identifier =>
    rintro rfl
    exact hlabel _ rfl

/-- Elements that are words for jump targets are the jump targets that their bytes make. -/
theorem Elements.filterMap_jumpTarget? {name : String} {position index count : Nat}
    {bytes : List UInt8} {parameters : List Parameter}
    (h : Elements (.fixed .jumpTarget) name position index count bytes parameters) :
    parameters.filterMap jumpTarget? = littleWords bytes := by
  induction h with
  | nil => rfl
  | cons hhead htail ih =>
    cases hhead
    rw [List.filterMap_cons, ih]
    rfl

/-- Elements that are something else are no jump targets. -/
theorem Elements.filterMap_jumpTarget?_eq_nil {part : Part} {name : String}
    {position index count : Nat} {bytes : List UInt8} {parameters : List Parameter}
    (h : Elements part name position index count bytes parameters)
    (hpart : part ≠ .fixed .jumpTarget)
    (hlabel : ∀ label skipped, part ≠ .identifier label skipped) :
    parameters.filterMap jumpTarget? = [] := by
  induction h with
  | nil => rfl
  | cons hhead htail ih =>
    rw [List.filterMap_cons_none (hhead.jumpTarget?_eq_none hpart (hlabel _) _), ih]

/-- The elements of a list are the jump targets that they are declared to be. -/
theorem Elements.filterMap_targets {kind : ElementKind} {name : String}
    {position index count : Nat} {bytes : List UInt8} {parameters : List Parameter}
    (h : Elements kind.part name position index count bytes parameters) :
    parameters.filterMap jumpTarget? = kind.targets bytes := by
  cases kind with
  | fixed word =>
    cases word with
    | jumpTarget => exact h.filterMap_jumpTarget?
    | integer | float => exact h.filterMap_jumpTarget?_eq_nil nofun nofun
  | tagged width => exact h.filterMap_jumpTarget?_eq_nil nofun nofun

/-- A count has as many bytes as its form says. -/
theorem Part.Holds.length_count {form : CountForm} {position : Nat} {bytes : List UInt8}
    {label : String} {value : Value} (h : (Part.count form).Holds position bytes label value) :
    bytes.length = form.size := by
  cases h <;> rfl

/-- A count is no jump target, and its elements are those that they are declared to be. -/
theorem Part.Holds.filterMap_counted {form : CountForm} {kind : ElementKind} {position : Nat}
    {bytes elements : List UInt8} {label name : String} {value : Value}
    {parameters : List Parameter} (hcount : (Part.count form).Holds position bytes label value)
    (hparameters : parameters.filterMap jumpTarget? = kind.targets elements) :
    (⟨label, name, value⟩ :: parameters).filterMap jumpTarget? =
      (Kind.counted form kind).targets (bytes ++ elements) := by
  rw [List.filterMap_cons_none (hcount.jumpTarget?_eq_none nofun nofun name), hparameters,
    Kind.targets, ← hcount.length_count, List.drop_left]

/-- A single part is a jump target if it is declared to be one. -/
theorem Part.Holds.filterMap_single {kind : Kind} {part : Part} {position : Nat}
    {bytes : List UInt8} {label name : String} {value : Value} (hpart : kind.part? = some part)
    (h : part.Holds position bytes label value) :
    [⟨label, name, value⟩].filterMap jumpTarget? = kind.targets bytes := by
  -- Any other part has another label, whatever its bytes are.
  have hnone : part ≠ .fixed .jumpTarget →
      (∀ skipped, part ≠ .identifier WordKind.jumpTarget.label skipped) →
      [⟨label, name, value⟩].filterMap jumpTarget? = [] := by
    intro hother hlabel
    rw [List.filterMap_cons_none (h.jumpTarget?_eq_none hother hlabel name), List.filterMap_nil]
  cases kind with
  | fixed word =>
    obtain rfl := Option.some.inj hpart
    cases word with
    | jumpTarget =>
      cases h
      rfl
    | integer | float => exact hnone nofun nofun
  | tagged | string =>
    obtain rfl := Option.some.inj hpart
    exact hnone nofun nofun
  | entityId | equipId | keybindId =>
    obtain rfl := Option.some.inj hpart
    exact hnone nofun (by simp [WordKind.label])
  | counted | continuous => cases hpart

/-- The jump targets of a piece are those that it is declared to have. -/
theorem Piece.filterMap_jumpTarget? {size position : Nat} {declaration : Declaration}
    {bytes : List UInt8} {parameters : List Parameter}
    (h : Piece size declaration position bytes parameters) :
    parameters.filterMap jumpTarget? = declaration.kind.targets bytes := by
  cases h with
  | single hpart hholds => exact hholds.filterMap_single hpart
  | counted hcount helements => exact hcount.filterMap_counted helements.filterMap_targets
  | continuous helements => exact helements.filterMap_jumpTarget?_eq_nil nofun nofun

/-! ## What a walk takes -/

section Taken

variable {data : ByteArray} {declarations : List Declaration} {position : Nat}

/-- Pieces that are all whole are what a walk takes. -/
theorem Pieces.taken {pieces : List (List UInt8)} {parameters : List Parameter}
    (h : Pieces data.size declarations position pieces parameters)
    (hat : At data position pieces.flatten) : Taken data declarations position pieces := by
  induction h with
  | nil => exact .nil
  | cons hhead htail ih =>
    rw [List.flatten_cons, Bytes.at_append] at hat
    exact .whole hat.1 hhead (ih hat.2)

/-- What stands in front of a due part that does not stand is what a walk takes. -/
theorem Due.exists_taken {place : Nat} {part : Part} {parameters : List Parameter}
    (h : Due data declarations position part place parameters)
    (hstops : ¬ part.Stands data place) : ∃ pieces, Taken data declarations position pieces := by
  induction h with
  | single hpart => exact ⟨[], .single hpart hstops⟩
  | count => exact ⟨[], .count hstops⟩
  | element hat hcount helements hindex =>
    exact ⟨_, .elements hat hcount helements hindex hstops⟩
  | behind hat hpiece hrest ih =>
    obtain ⟨pieces, htaken⟩ := ih hstops
    exact ⟨_ :: pieces, .whole hat hpiece htaken⟩

/-- A walk takes something. -/
theorem exists_taken (data : ByteArray) (declarations : List Declaration) (position : Nat) :
    ∃ pieces, Taken data declarations position pieces := by
  obtain ⟨pieces, parameters, hat, hpieces⟩ | ⟨part, place, parameters, hdue, hstops⟩ :=
    exists_pieces_or_due data declarations position
  · exact ⟨pieces, hpieces.taken hat⟩
  · exact hdue.exists_taken hstops

/-- What a walk takes is all that is declared, or what stands in front of a due part that does not
stand. -/
theorem Taken.pieces_or_due {pieces : List (List UInt8)}
    (h : Taken data declarations position pieces) :
    ∃ parameters, ((At data position pieces.flatten ∧
        Pieces data.size declarations position pieces parameters) ∨
      ∃ part place, Due data declarations position part place parameters ∧
        ¬ part.Stands data place) ∧
      parameters.filterMap jumpTarget? = declaredTargets declarations pieces := by
  induction h with
  | nil => exact ⟨[], .inl ⟨trivial, .nil⟩, rfl⟩
  | @whole declaration rest position bytes parameters pieces hat hpiece hrest ih =>
    -- Whatever stops the walk behind the piece, the piece is in front of it.
    obtain ⟨found, hwalk, htargets⟩ := ih
    refine ⟨parameters ++ found, ?_, ?_⟩
    · obtain ⟨hats, hpieces⟩ | ⟨part, place, hdue, hstops⟩ := hwalk
      · refine .inl ⟨?_, .cons hpiece hpieces⟩
        rw [List.flatten_cons, Bytes.at_append]
        exact ⟨hat, hats⟩
      · exact .inr ⟨part, place, .behind hat hpiece hdue, hstops⟩
    · rw [List.filterMap_append, hpiece.filterMap_jumpTarget?, htargets]
      rfl
  | single hpart hstops => exact ⟨[], .inr ⟨_, _, .single hpart, hstops⟩, rfl⟩
  | count hstops => exact ⟨[], .inr ⟨_, _, .count, hstops⟩, rfl⟩
  | elements hat hcount helements hindex hstops =>
    refine ⟨_, .inr ⟨_, _, .element hat hcount helements hindex, hstops⟩, ?_⟩
    rw [hcount.filterMap_counted helements.filterMap_targets]
    simp [declaredTargets]

end Taken

end Arguments

open Arguments (Taken)

/-- The jump targets of an instruction are the words that are declared to be jump targets, among
what has been taken for its declared parameters. -/
theorem Instruction.jumpTargets_of_decode {data : ByteArray} {offset : Nat} {template : Template}
    {instruction : Instruction} (h : decode data offset template = .ok instruction) :
    (∃ pieces, Taken data template.parameters (offset + 4) pieces) ∧
      ∀ pieces, Taken data template.parameters (offset + 4) pieces →
        instruction.jumpTargets = declaredTargets template.parameters pieces := by
  refine ⟨Arguments.exists_taken _ _ _, fun pieces htaken => ?_⟩
  obtain ⟨parameters, hwalk, htargets⟩ := htaken.pieces_or_due
  -- Stopped or not, the walk over the arguments has found the parameters of what it took.
  have hlist : (template.walk data offset).parameters.toList = parameters := by
    obtain ⟨hat, hpieces⟩ | ⟨part, place, hdue, hstops⟩ := hwalk
    · rw [Template.walk_of_pieces (List.append_nil _).symm hat hpieces, Arguments.Walk.arguments]
    · obtain ⟨stop, -, hstopped⟩ := (Template.Breaks.mk hdue hstops).exists_walk
      rw [hstopped, Arguments.Walk.toList_parameters_stop]
      rfl
  obtain ⟨-, -, -, -, hset⟩ := eq_of_decode h
  rw [jumpTargets, ParameterSet.ordered_of_ofList hset, hlist, htargets]

/-- A variable, a jump target and a list of jump targets. -/
def Template.branches : Template where
  signature := 0x25040002
  name := "cmd_test"
  parameters := [⟨.tagged .half, "on"⟩, ⟨.fixed .jumpTarget, "otherwise"⟩,
    ⟨.counted .byte (.fixed .jumpTarget), "to"⟩]

/-- These in their bytes: the list announces three targets, and the second one breaks off. -/
def Template.branchesBytes : ByteArray :=
  ⟨#[0x25, 4, 0, 2, 2, 0, 7, 0, 8, 0, 0, 0, 3, 16, 0, 0, 0, 24, 0]⟩

/-- The jump target in front of the list is found, and the first one of the list. -/
theorem Instruction.jumpTargets_branches :
    ∃ instruction, decode Template.branchesBytes 0 .branches = .ok instruction ∧
      instruction.jumpTargets = [8, 16] ∧
      ∀ pieces, Taken Template.branchesBytes Template.branches.parameters 4 pieces →
        instruction.jumpTargets = declaredTargets Template.branches.parameters pieces := by
  have hseen : (decode Template.branchesBytes 0 .branches).toOption.map jumpTargets =
      some [8, 16] := by decide +kernel
  cases hdecode : decode Template.branchesBytes 0 .branches with
  | error failure => simp [hdecode, Except.toOption] at hseen
  | ok instruction =>
    rw [hdecode] at hseen
    exact ⟨instruction, rfl, Option.some.inj hseen, (jumpTargets_of_decode hdecode).2⟩

end PacScript
