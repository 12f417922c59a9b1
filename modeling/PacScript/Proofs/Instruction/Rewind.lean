import PacScript.Proofs.Instruction.CutOff

/-!
# Arguments cut off by the next instruction

Where the tag of a variable should stand, the next instruction may start instead. The walk then
stops at its marker, so that the instruction ends where the next one begins. `Rewinds` says when
this happens in terms of the layout: pieces and elements stand up to a tagged variable, and a marker
with a known class stands in the place of its tag. `Rewinds.decode` gives what is decoded then.
-/

namespace PacScript.Arguments

open Bytes (At)

/-- `Reaches data declarations position width place` says that from the position on there are the
pieces of the declared parameters up to a tagged variable of the given width, which would stand at
`place`. -/
inductive Reaches (data : ByteArray) : List Declaration → Nat → TagWidth → Nat → Prop where
  /-- The first declared parameter is the variable. -/
  | here {width : TagWidth} {name : String} {rest : List Declaration} {position : Nat} :
      Reaches data (⟨.tagged width, name⟩ :: rest) position width position
  /-- The variable is an element of the first declared parameter, behind the count and other
  elements. -/
  | element {form : CountForm} {width : TagWidth} {name label : String} {rest : List Declaration}
      {position index : Nat} {bytes elements : List UInt8} {count : UInt32}
      {parameters : List Parameter} (hat : At data position (bytes ++ elements))
      (hcount : (Part.count form).Holds position bytes label (.int count))
      (helements : Elements (.tagged width) name (position + bytes.length) 0 index elements
        parameters) (hindex : index < count.toNat) :
      Reaches data (⟨.counted form (.tagged width), name⟩ :: rest) position width
        (position + bytes.length + elements.length)
  /-- The variable is behind the piece of the first declared parameter. -/
  | behind {declaration : Declaration} {rest : List Declaration} {position place : Nat}
      {width : TagWidth} {bytes : List UInt8} {parameters : List Parameter}
      (hat : At data position bytes)
      (hpiece : Piece data.size declaration position bytes parameters)
      (hrest : Reaches data rest (position + bytes.length) width place) :
      Reaches data (declaration :: rest) position width place

/-- A variable that is reached is due. -/
theorem Reaches.exists_due {data : ByteArray} {declarations : List Declaration}
    {position place : Nat} {width : TagWidth} (h : Reaches data declarations position width place) :
    ∃ parameters, Due data declarations position (.tagged width) place parameters := by
  induction h with
  | here => exact ⟨[], .single rfl⟩
  | @element form width name label rest position index bytes elements count parameters hat hcount
      helements hindex =>
    exact ⟨_, @Due.element data form (.tagged width) name label rest position index bytes elements
      count parameters hat hcount helements hindex⟩
  | behind hat hpiece hrest ih =>
    obtain ⟨found, hdue⟩ := ih
    exact ⟨_, .behind hat hpiece hdue⟩

namespace Walk

/-- A walk that reaches a variable at which reading stops is stopped there. -/
theorem arguments_of_reaches {data : ByteArray} {declarations : List Declaration}
    {position place stop : Nat} {width : TagWidth}
    (h : Reaches data declarations position width place)
    (hstopped : taggedVariable data width place = .stopped stop) {walk : Walk}
    (hcutOff : walk.cutOff = false) (hposition : walk.position = position) :
    (walk.arguments data declarations).cutOff = true ∧
      (walk.arguments data declarations).position = stop := by
  obtain ⟨parameters, hdue⟩ := h.exists_due
  rw [arguments_of_due hdue hstopped hcutOff hposition]
  exact ⟨rfl, rfl⟩

end Walk

end PacScript.Arguments

namespace PacScript

open Arguments (Reaches tagPosition)

/-- The arguments of an occurrence are cut off by the next instruction: at `stop`, where the tag of
a variable should stand, there is the marker with a known class behind it. -/
def Template.Rewinds (template : Template) (data : ByteArray) (offset stop : Nat) : Prop :=
  ∃ width place second, Reaches data template.parameters (offset + 4) width place ∧
    stop = tagPosition width place ∧ stop + width.tagSize + width.valueSize ≤ data.size ∧
    data[stop]? = some 0x25 ∧ data[stop + 1]? = some second ∧ second ≤ 0x23

namespace Template.Rewinds

variable {template : Template} {data : ByteArray} {offset stop : Nat}

/-- The four bytes of a signature exist where the arguments are cut off. -/
theorem size (h : template.Rewinds data offset stop) : stop + 4 ≤ data.size := by
  obtain ⟨width, place, second, hreaches, hstop, hsize, hmarker, hsecond, hclass⟩ := h
  cases width <;> simp only [TagWidth.tagSize, TagWidth.valueSize] at hsize <;> omega

/-- The marker stands where the arguments are cut off. -/
theorem marker (h : template.Rewinds data offset stop) : data[stop]? = some 0x25 := by
  obtain ⟨width, place, second, hreaches, hstop, hsize, hmarker, hsecond, hclass⟩ := h
  exact hmarker

/-- The walk over the arguments is stopped where they are cut off. -/
theorem walk (h : template.Rewinds data offset stop) :
    (template.walk data offset).cutOff = true ∧ (template.walk data offset).position = stop := by
  obtain ⟨width, place, second, hreaches, rfl, hsize, hmarker, hsecond, hclass⟩ := h
  have hstopped := Arguments.taggedVariable_eq_stopped hsize hmarker hsecond hclass
  exact Arguments.Walk.arguments_of_reaches hreaches hstopped rfl rfl

/-- An instruction that is cut off by the next one ends where this one starts. -/
theorem decode (h : template.Rewinds data offset stop) {instruction : Instruction}
    (hoffset : offset + 4 ≤ data.size)
    (hdecode : Instruction.decode data offset template = .ok instruction) :
    instruction.cutOff = true ∧ instruction.offset + instruction.size = stop := by
  obtain ⟨hcutOff, hposition⟩ := h.walk
  have hsize := h.size
  obtain ⟨hstart, -, hcut, hraw, -⟩ := Instruction.eq_of_decode hdecode
  have hlength := Instruction.signatureSize_le_size_of_decode hdecode hoffset
  rw [hposition, Nat.min_eq_left (by omega)] at hraw
  refine ⟨hcut.trans hcutOff, ?_⟩
  rw [Instruction.size, hraw, ByteArray.size_extract, signatureSize] at hlength
  rw [Instruction.size, hstart, hraw, ByteArray.size_extract]
  omega

end Template.Rewinds

end PacScript
