import PacScript.Proofs.Instruction.Decoding

/-!
# What the steps of a walk keep

A walk over arguments takes one part after another, and a declared parameter allows only parts of
its own (`Kind.Reads`). So what each reading of such a part keeps, the whole walk keeps
(`Walk.arguments_induction`), whatever the counts in the bytes are and wherever the walk is stopped.

The labels are a first example: every parameter has one of fourteen
(`Instruction.label_mem_labels`).
-/

namespace PacScript

namespace Arguments

/-- The parts as which a parameter of the kind may be read. -/
inductive Reads : Kind → Part → Prop
  /-- The part that it is. -/
  | single {kind : Kind} {part : Part} (hpart : kind.part? = some part) : Reads kind part
  /-- The count of a counted parameter. -/
  | count (form : CountForm) (kind : ElementKind) : Reads (.counted form kind) (.count form)
  /-- An element of it. -/
  | element (form : CountForm) (kind : ElementKind) : Reads (.counted form kind) kind.part
  /-- A word of a continuous parameter. -/
  | word : Reads .continuous (.fixed .integer)

namespace Walk

variable {data : ByteArray} {motive : Walk → Prop}

/-- What each reading of a part keeps, a sequence of readings keeps. -/
theorem sequence_induction {part : Part}
    (hstep : ∀ walk name, motive walk → motive (walk.take name (part.read data walk.position)))
    (name : String) {walk : Walk} (h : motive walk) (index remaining : Nat) :
    motive (walk.sequence (part.read data) name index remaining) := by
  induction remaining generalizing walk index with
  | zero => exact h
  | succ remaining ih =>
    have hnext := hstep walk (elementName name index) h
    simp only [sequence]
    split
    · exact hnext
    · exact ih hnext (index + 1)

/-- What each reading of the parts of a parameter keeps, the walk over it keeps. -/
theorem argument_induction {declaration : Declaration}
    (hstep : ∀ part, Reads declaration.kind part → ∀ walk name, motive walk →
      motive (walk.take name (part.read data walk.position)))
    {walk : Walk} (h : motive walk) : motive (walk.argument data declaration) := by
  obtain ⟨kind, name⟩ := declaration
  cases hpart : kind.part? with
  | some part =>
    rw [argument_single data walk name hpart]
    exact hstep part (.single hpart) walk name h
  | none =>
    cases kind with
    | counted form kind =>
      -- The count is a reading like any other, and the elements start behind it.
      have hcount := hstep _ (.count form kind) walk name h
      simp only [argument]
      cases hnumber : count? data form walk.position with
      | none =>
        simp only [Part.read, hnumber] at hcount
        exact hcount
      | some found =>
        simp only [Part.read, hnumber] at hcount
        dsimp only
        rw [element_eq_read]
        exact sequence_induction (hstep _ (.element form kind)) name hcount 0 found.1.toNat
    | continuous => exact sequence_induction (hstep _ .word) name h 0 _
    | fixed | tagged | string | entityId | equipId | keybindId => simp [Kind.part?] at hpart

/-- What each reading of the declared parts keeps, the walk over the arguments keeps. -/
theorem arguments_induction {declarations : List Declaration}
    (hstep : ∀ declaration ∈ declarations, ∀ part, Reads declaration.kind part →
      ∀ walk name, motive walk → motive (walk.take name (part.read data walk.position)))
    {walk : Walk} (h : motive walk) : motive (walk.arguments data declarations) := by
  induction declarations generalizing walk with
  | nil => exact h
  | cons declaration rest ih =>
    have hnext := argument_induction (hstep declaration List.mem_cons_self) h
    simp only [arguments]
    split
    · exact hnext
    · exact ih (fun other hmem => hstep other (List.mem_cons_of_mem _ hmem)) hnext

end Walk

/-! ## Labels -/

/-- The labels that parameters may have. -/
def labels : List String :=
  ["uint32", "float", "jump target", "0x40 variable", "0x20 variable", "0x8 variable",
    "0x4 variable", "0x1 value", "Unknown", "string", "count", "entity id", "equip id",
    "keybind id"]

/-- The labels of identifiers. -/
def identifierLabels : List String :=
  ["entity id", "equip id", "keybind id"]

/-- An identifier has the label of one of the three kinds. -/
theorem Reads.mem_identifierLabels {kind : Kind} {label : String} {skipped : Nat}
    (h : Reads kind (.identifier label skipped)) : label ∈ identifierLabels := by
  generalize hidentifier : Part.identifier label skipped = part at h
  cases h with
  | single hpart =>
    subst hidentifier
    cases kind <;> cases hpart <;> decide
  | count form kind => simp at hidentifier
  | element form kind => cases kind <;> simp [ElementKind.part] at hidentifier
  | word => simp at hidentifier

/-- A part of a declared parameter has one of the labels. -/
theorem mem_labels_of_holds {kind : Kind} {part : Part} {position : Nat} {bytes : List UInt8}
    {label : String} {value : Value} (hreads : Reads kind part)
    (h : part.Holds position bytes label value) : label ∈ labels := by
  have htag : tagLabels ⊆ labels := by decide
  have hidentifier : identifierLabels ⊆ labels := by decide
  cases h with
  | taggedWord _ _ hlabel | taggedHalf hlabel | taggedCompact hlabel =>
    exact htag hlabel.mem_tagLabels
  | identifier => exact hidentifier hreads.mem_identifierLabels
  | integer | float | jumpTarget | string | countByte | countTaggedWord | countWord => decide

/-- What a walk finds has one of the labels. -/
theorem Walk.mem_labels {data : ByteArray} {declarations : List Declaration} {walk : Walk}
    (h : ∀ parameter ∈ walk.parameters, parameter.label ∈ labels) :
    ∀ parameter ∈ (walk.arguments data declarations).parameters, parameter.label ∈ labels := by
  apply arguments_induction (motive := fun walk => ∀ p ∈ walk.parameters, p.label ∈ labels) _ h
  intro declaration _ part hreads walk name hwalk
  cases hread : part.read data walk.position with
  | stopped position => exact hwalk
  | complete label value next =>
    obtain ⟨bytes, -, hholds, -⟩ := Part.read_eq_complete_iff.1 hread
    intro parameter hmem
    rcases Array.mem_push.1 hmem with hbefore | rfl
    · exact hwalk parameter hbefore
    · exact mem_labels_of_holds hreads hholds

end Arguments

/-- A parameter of an instruction has one of the labels. -/
theorem Instruction.label_mem_labels {data : ByteArray} {offset : Nat} {template : Template}
    {instruction : Instruction} (h : decode data offset template = .ok instruction) :
    ∀ parameter ∈ instruction.parameters.ordered, parameter.label ∈ Arguments.labels := by
  obtain ⟨-, -, -, -, hset⟩ := eq_of_decode h
  rw [ParameterSet.ordered_of_ofList hset]
  intro parameter hmem
  apply Arguments.Walk.mem_labels _ parameter (Array.mem_toList_iff.1 hmem)
  intro other hother
  exact absurd hother (Array.not_mem_empty other)

end PacScript
