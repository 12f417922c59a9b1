import PacScript.Proofs.Instruction.Decoding

/-!
# Where arguments are cut off

Decoding goes over the arguments part by part, and an instruction is cut off at the first part that
does not stand where it is due. `Due` says in terms of the layout which part is due at which place,
and what was found before it. A part does not stand at a place for one of two reasons
(`Part.stands_iff`): the buffer ends too early for it (`Part.Misses`), or the next instruction
starts in the place of its tag (`Part.Yields`).

Either all declared parameters are complete, or there is a part that is due and does not stand
(`exists_pieces_or_due`), and so it is known of every instruction whether it is cut off, where, and
what it keeps (`Instruction.cutOff_of_decode`).
-/

namespace PacScript

/-- How many bytes a count takes. -/
def CountForm.size : CountForm → Nat
  | byte => 1
  | taggedWord => 5
  | word => 4

namespace Arguments

open Bytes (At)

/-! ## Parts that do not stand -/

/-- The part is complete at the position. -/
def Part.Stands (part : Part) (data : ByteArray) (position : Nat) : Prop :=
  ∃ bytes label value, At data position bytes ∧ part.Holds position bytes label value

/-- Bytes of the part are missing at the position: the buffer ends before the part would, or has no
zero byte that could end a string. -/
def Part.Misses (part : Part) (data : ByteArray) (position : Nat) : Prop :=
  match part with
  | .fixed _ => data.size < position + 4
  | .tagged width => data.size < tagPosition width position + width.tagSize + width.valueSize
  | .string => ∀ i < data.size, position ≤ i → data[i]? ≠ some 0
  | .count form => data.size < position + form.size
  | .identifier _ skipped => data.size < position + skipped + 4

/-- The part is a variable, and where its tag should stand, at `stop`, there is the marker with a
known class behind it. -/
def Part.Yields (part : Part) (data : ByteArray) (position stop : Nat) : Prop :=
  ∃ width second, part = .tagged width ∧ stop = tagPosition width position ∧
    data[stop]? = some 0x25 ∧ data[stop + 1]? = some second ∧ second ≤ 0x23

/-- The next instruction starts in the buffer. -/
theorem Part.Yields.le_size {part : Part} {data : ByteArray} {position stop : Nat}
    (h : part.Yields data position stop) : stop ≤ data.size := by
  obtain ⟨width, second, -, -, hmarker, -, -⟩ := h
  exact Nat.le_of_lt (Bytes.lt_size_of_getElem? hmarker)

/-- Reading stops at a part that does not stand. -/
theorem Part.exists_read_eq_stopped {data : ByteArray} {part : Part} {position : Nat}
    (h : ¬ part.Stands data position) : ∃ stop, part.read data position = .stopped stop := by
  cases hread : part.read data position with
  | complete label value next =>
    obtain ⟨bytes, hat, hholds, -⟩ := Part.read_eq_complete_iff.1 hread
    exact absurd ⟨bytes, label, value, hat, hholds⟩ h
  | stopped stop => exact ⟨stop, rfl⟩

/-- A word that cannot be read is not in the buffer. -/
theorem size_lt_of_wordAt {data : ByteArray} {position : Nat} {truncation : Truncation}
    (h : Bytes.wordAt data position = .error truncation) : data.size < position + 4 := by
  unfold Bytes.wordAt at h
  split at h
  · simp at h
  · omega

/-- A value that is in the buffer can be read. -/
theorem exists_taggedValue {data : ByteArray} {width : TagWidth} {position : Nat}
    (h : position + width.valueSize ≤ data.size) :
    ∃ word, taggedValue data width position = .ok word := by
  have hword : position + 4 ≤ data.size → ∃ word, Bytes.wordAt data position = .ok word := by
    intro hsize
    rw [Bytes.wordAt, dif_pos hsize]
    exact ⟨_, rfl⟩
  cases width with
  | half =>
    have hsize : position + 2 ≤ data.size := h
    rw [taggedValue, Bytes.halfAt, dif_pos hsize]
    exact ⟨_, rfl⟩
  | word => exact hword h
  | compact => exact hword h

/-- A marker with a known class in the place of a tag stops the walk there. -/
theorem taggedVariable_eq_stopped {data : ByteArray} {width : TagWidth} {position : Nat}
    {second : UInt8}
    (hsize : tagPosition width position + width.tagSize + width.valueSize ≤ data.size)
    (hmarker : data[tagPosition width position]? = some 0x25)
    (hsecond : data[tagPosition width position + 1]? = some second) (hclass : second ≤ 0x23) :
    taggedVariable data width position = .stopped (tagPosition width position) := by
  have htag : Bytes.byteAt data (tagPosition width position) = .ok 0x25 :=
    Bytes.byteAt_eq_ok_iff.2 ⟨hmarker, trivial⟩
  obtain ⟨word, hword⟩ := exists_taggedValue hsize
  have hlabel : tagLabel? 0x25 = none := rfl
  have hstart := (startsInstruction_iff hmarker hsecond).2 ⟨rfl, hclass⟩
  unfold taggedVariable
  simp only [htag, hword, hlabel]
  rw [if_pos hstart]

/-- Where an instruction starts, the marker is followed by a known class. -/
theorem exists_class_of_startsInstruction {data : ByteArray} {position : Nat}
    (h : startsInstruction data position = true) :
    ∃ second, data[position]? = some 0x25 ∧ data[position + 1]? = some second ∧
      second ≤ 0x23 := by
  obtain ⟨hmarker, hclass⟩ := Bool.and_eq_true_iff.1 h
  obtain ⟨second, hsecond, hle⟩ := (Option.any_eq_true _ _).1 hclass
  exact ⟨second, eq_of_beq hmarker, hsecond, of_decide_eq_true hle⟩

/-- The walk stops at the position because bytes of the part are missing, or at its tag because the
next instruction starts there. -/
def Part.Stops (part : Part) (data : ByteArray) (position stop : Nat) : Prop :=
  (part.Misses data position ∧ stop = position) ∨
    (¬ part.Misses data position ∧ part.Yields data position stop)

/-- A tagged variable that is not complete misses bytes, or its tag starts an instruction. -/
theorem stops_of_taggedVariable {data : ByteArray} {width : TagWidth} {position stop : Nat}
    (h : taggedVariable data width position = .stopped stop) :
    (Part.tagged width).Stops data position stop := by
  unfold taggedVariable at h
  dsimp only at h
  split at h
  · rename_i tag word htag hvalue
    split at h
    · simp at h
    · split at h
      · rename_i hstart
        obtain rfl := Reading.stopped.inj h
        obtain ⟨second, hmarker, hsecond, hclass⟩ := exists_class_of_startsInstruction hstart
        exact .inr ⟨Nat.not_lt.2 (size_of_taggedValue hvalue), width, second, rfl, rfl, hmarker,
          hsecond, hclass⟩
      · simp at h
  · rename_i hnone
    refine .inl ⟨Nat.lt_of_not_le fun hsize => ?_, (Reading.stopped.inj h).symm⟩
    -- The tag and the value could be read if the bytes were there.
    have htag : tagPosition width position < data.size := by
      cases width <;> simp only [TagWidth.tagSize, TagWidth.valueSize] at hsize <;> omega
    obtain ⟨word, hword⟩ := exists_taggedValue hsize
    exact hnone _ word (Bytes.byteAt_eq_ok_iff.2 ⟨getElem?_pos data _ htag, trivial⟩) hword

/-- A string that is not complete has no end in the buffer. -/
theorem stops_of_string {data : ByteArray} {position stop : Nat}
    (h : string data position = .stopped stop) : Part.string.Stops data position stop := by
  unfold string at h
  split at h
  · rename_i hread
    refine .inl ⟨fun i hlt hle hzero => ?_, (Reading.stopped.inj h).symm⟩
    unfold Bytes.terminatedAt at hread
    split at hread
    · simp at hread
    · rename_i hnone
      have htest := Search.first_eq_none_iff.1 hnone i hle hlt
      rw [hzero] at htest
      simp at htest
  · simp at h

/-- A count that is not found has no room in the buffer. -/
theorem size_lt_of_count? {data : ByteArray} {form : CountForm} {position : Nat}
    (h : count? data form position = none) : data.size < position + form.size := by
  have hread : ∀ {α : Type} {read : Except Truncation α},
      read.toOption = none → ∃ truncation, read = .error truncation := by
    intro α read hnone
    cases read with
    | ok value => simp [Except.toOption] at hnone
    | error truncation => exact ⟨truncation, rfl⟩
  cases form <;> obtain ⟨truncation, hfailed⟩ := hread (Option.map_eq_none_iff.1 h)
  · unfold Bytes.byteAt at hfailed
    split at hfailed
    · simp at hfailed
    · rename_i hsize
      exact Nat.lt_of_not_le hsize
  · exact size_lt_of_wordAt hfailed
  · exact size_lt_of_wordAt hfailed

/-- Where reading a part stops, and why. -/
theorem Part.stops_of_read {data : ByteArray} {part : Part} {position stop : Nat}
    (h : part.read data position = .stopped stop) : part.Stops data position stop := by
  cases part with
  | fixed word =>
    -- Of all parts only a tagged variable stops for another reason than missing bytes.
    replace h : fixedWord data word position = .stopped stop := h
    unfold fixedWord at h
    split at h
    · rename_i hword
      exact .inl ⟨size_lt_of_wordAt hword, (Reading.stopped.inj h).symm⟩
    · simp at h
  | tagged width => exact stops_of_taggedVariable h
  | string => exact stops_of_string h
  | count form =>
    simp only [Part.read] at h
    split at h
    · rename_i hnone
      exact .inl ⟨size_lt_of_count? hnone, (Reading.stopped.inj h).symm⟩
    · simp at h
  | identifier label skipped =>
    replace h : Arguments.identifier data label skipped position = .stopped stop := h
    unfold Arguments.identifier at h
    split at h
    · rename_i hword
      exact .inl ⟨size_lt_of_wordAt hword, (Reading.stopped.inj h).symm⟩
    · simp at h

/-- No bytes are missing of a part that stands. -/
theorem Part.not_misses_of_stands {data : ByteArray} {part : Part} {position : Nat}
    (h : part.Stands data position) : ¬ part.Misses data position := by
  obtain ⟨bytes, label, value, hat, hholds⟩ := h
  cases hholds with
  | integer | float | jumpTarget | taggedHalf | taggedCompact | countByte | countTaggedWord |
    countWord => exact Nat.not_lt.2 hat.cons_length_le
  | taggedWord hskipped haligned hlabel =>
    rw [Bytes.at_append] at hat
    have hsize := hat.2.cons_length_le
    rw [← alignUp_eq_iff.2 ⟨hskipped, haligned⟩] at hsize
    exact Nat.not_lt.2 hsize
  | string hzero =>
    rw [Bytes.at_append] at hat
    intro hmisses
    exact hmisses _ (Bytes.lt_size_of_getElem? hat.2.1) (Nat.le_add_right _ _) hat.2.1
  | identifier hcategory =>
    rw [Bytes.at_append, hcategory] at hat
    exact Nat.not_lt.2 hat.2.cons_length_le

/-- A part stands exactly where no bytes of it are missing and no instruction starts at its tag. -/
theorem Part.stands_iff {data : ByteArray} {part : Part} {position : Nat} :
    part.Stands data position ↔
      ¬ part.Misses data position ∧ ∀ stop, ¬ part.Yields data position stop := by
  constructor
  · intro h
    have hbytes := Part.not_misses_of_stands h
    refine ⟨hbytes, fun stop hyields => ?_⟩
    obtain ⟨width, second, rfl, rfl, hmarker, hsecond, hclass⟩ := hyields
    have hstopped := taggedVariable_eq_stopped (Nat.not_lt.1 hbytes) hmarker hsecond hclass
    -- A variable that stands is read, and so the walk would go on behind it.
    obtain ⟨bytes, label, value, hat, hholds⟩ := h
    have hread : (Part.tagged width).read data position = _ :=
      Part.read_eq_complete_iff.2 ⟨bytes, hat, hholds, rfl⟩
    rw [Part.read, hstopped] at hread
    simp at hread
  · intro h
    obtain ⟨hbytes, hyields⟩ := h
    by_cases hstands : part.Stands data position
    · exact hstands
    · obtain ⟨stop, hread⟩ := Part.exists_read_eq_stopped hstands
      obtain ⟨hmisses, -⟩ | ⟨-, hstop⟩ := Part.stops_of_read hread
      · exact absurd hmisses hbytes
      · exact absurd hstop (hyields stop)

/-! ## Parts that are due -/

/-- `Due data declarations position part place parameters` says that from the position on there is
all that is declared up to the part, which is due at `place`, and that it holds the parameters. -/
inductive Due (data : ByteArray) :
    List Declaration → Nat → Part → Nat → List Parameter → Prop where
  /-- The first declared parameter is the part. -/
  | single {kind : Kind} {part : Part} {name : String} {rest : List Declaration} {position : Nat}
      (hpart : kind.part? = some part) : Due data (⟨kind, name⟩ :: rest) position part position []
  /-- The part is the count of the first declared parameter. -/
  | count {form : CountForm} {kind : ElementKind} {name : String} {rest : List Declaration}
      {position : Nat} :
      Due data (⟨.counted form kind, name⟩ :: rest) position (.count form) position []
  /-- The part is an element of the first declared parameter, behind the count and other
  elements. -/
  | element {form : CountForm} {kind : ElementKind} {name label : String}
      {rest : List Declaration} {position index : Nat} {bytes elements : List UInt8}
      {count : UInt32} {parameters : List Parameter} (hat : At data position (bytes ++ elements))
      (hcount : (Part.count form).Holds position bytes label (.int count))
      (helements : Elements kind.part name (position + bytes.length) 0 index elements parameters)
      (hindex : index < count.toNat) :
      Due data (⟨.counted form kind, name⟩ :: rest) position kind.part
        (position + bytes.length + elements.length) (⟨label, name, .int count⟩ :: parameters)
  /-- The part is behind the piece of the first declared parameter. -/
  | behind {declaration : Declaration} {rest : List Declaration} {position place : Nat}
      {part : Part} {bytes : List UInt8} {parameters found : List Parameter}
      (hat : At data position bytes)
      (hpiece : Piece data.size declaration position bytes parameters)
      (hrest : Due data rest (position + bytes.length) part place found) :
      Due data (declaration :: rest) position part place (parameters ++ found)

/-- A part that is due from a position of the buffer on is due in the buffer. -/
theorem Due.le {data : ByteArray} {declarations : List Declaration} {position place : Nat}
    {part : Part} {parameters : List Parameter}
    (h : Due data declarations position part place parameters) (hposition : position ≤ data.size) :
    position ≤ place ∧ place ≤ data.size := by
  induction h with
  | single hpart => exact ⟨Nat.le_refl _, hposition⟩
  | count => exact ⟨Nat.le_refl _, hposition⟩
  | element hat hcount helements hindex =>
    have hsize := hat.length_le hposition
    rw [List.length_append] at hsize
    omega
  | behind hat hpiece hrest ih =>
    have hsize := ih (hat.length_le hposition)
    omega

/-! ## What stands and what does not -/

/-- A sequence of elements stands at a position, or some of them do and the next one does not. -/
theorem exists_elements_or_stops (data : ByteArray) (part : Part) (name : String)
    (count position index : Nat) :
    (∃ bytes parameters, At data position bytes ∧
        Elements part name position index count bytes parameters) ∨
      ∃ before < count, ∃ bytes parameters, At data position bytes ∧
        Elements part name position index before bytes parameters ∧
        ¬ part.Stands data (position + bytes.length) := by
  induction count generalizing position index with
  | zero => exact .inl ⟨[], [], trivial, .nil⟩
  | succ count ih =>
    -- When the first element stands, what is asked of the others is asked behind it.
    by_cases hstands : part.Stands data position
    · obtain ⟨bytes, label, value, hat, hholds⟩ := hstands
      obtain ⟨rest, parameters, hrest, helements⟩ |
        ⟨before, hbefore, rest, parameters, hrest, helements, hstops⟩ :=
          ih (position + bytes.length) (index + 1)
      · exact .inl ⟨bytes ++ rest, _, (Bytes.at_append _ _ _ _).2 ⟨hat, hrest⟩,
          .cons hholds helements⟩
      · refine .inr ⟨before + 1, by omega, bytes ++ rest, _,
          (Bytes.at_append _ _ _ _).2 ⟨hat, hrest⟩, .cons hholds helements, ?_⟩
        rwa [List.length_append, ← Nat.add_assoc]
    · exact .inr ⟨0, by omega, [], [], trivial, .nil, hstands⟩

/-- A word is four bytes long. -/
theorem Elements.length_integer {name : String} {position index count : Nat} {bytes : List UInt8}
    {parameters : List Parameter}
    (h : Elements (.fixed .integer) name position index count bytes parameters) :
    bytes.length = 4 * count := by
  induction h with
  | nil => rfl
  | cons hhead htail ih =>
    cases hhead
    rw [List.length_append, ih]
    simp only [List.length_cons, List.length_nil]
    omega

/-- A word stands wherever there are four bytes. -/
theorem stands_integer {data : ByteArray} {position : Nat} (h : position + 4 ≤ data.size) :
    (Part.fixed .integer).Stands data position := by
  have hword : Bytes.wordAt data position = .ok _ := dif_pos h
  obtain ⟨a, b, c, d, hat, -⟩ := Bytes.wordAt_eq_ok_iff.1 hword
  exact ⟨_, _, _, hat, .integer⟩

/-- The piece of a declared parameter stands at a position, or one of its parts is due and does not
stand. -/
theorem exists_piece_or_due (data : ByteArray) (declaration : Declaration)
    (rest : List Declaration) (position : Nat) :
    (∃ bytes parameters, At data position bytes ∧
        Piece data.size declaration position bytes parameters) ∨
      ∃ part place parameters, Due data (declaration :: rest) position part place parameters ∧
        ¬ part.Stands data place := by
  obtain ⟨kind, name⟩ := declaration
  -- A parameter that is not a single part is a count with elements, or continuous.
  cases hpart : kind.part? with
  | some part =>
    by_cases hstands : part.Stands data position
    · obtain ⟨bytes, label, value, hat, hholds⟩ := hstands
      exact .inl ⟨bytes, _, hat, .single hpart hholds⟩
    · exact .inr ⟨part, position, [], .single hpart, hstands⟩
  | none =>
    cases kind with
    | counted form kind =>
      by_cases hstands : (Part.count form).Stands data position
      · obtain ⟨bytes, label, value, hat, hholds⟩ := hstands
        obtain ⟨-, count, rfl⟩ := hholds.eq_int
        obtain ⟨elements, parameters, helements, hpiece⟩ |
          ⟨before, hbefore, elements, parameters, helements, hpiece, hstops⟩ :=
            exists_elements_or_stops data kind.part name count.toNat (position + bytes.length) 0
        · exact .inl ⟨bytes ++ elements, _, (Bytes.at_append _ _ _ _).2 ⟨hat, helements⟩,
            .counted hholds hpiece⟩
        · exact .inr ⟨kind.part, _, _, .element ((Bytes.at_append _ _ _ _).2 ⟨hat, helements⟩)
            hholds hpiece hbefore, hstops⟩
      · exact .inr ⟨.count form, position, [], .count, hstands⟩
    | continuous =>
      obtain ⟨bytes, parameters, hat, helements⟩ |
        ⟨before, hbefore, bytes, parameters, hat, helements, hstops⟩ :=
          exists_elements_or_stops data (.fixed .integer) name ((data.size - position) / 4)
            position 0
      · exact .inl ⟨bytes, parameters, hat, .continuous helements⟩
      · -- There are no more words than there are bytes for.
        rw [helements.length_integer] at hstops
        exact absurd (stands_integer (by omega)) hstops
    | fixed | tagged | string | entityId | equipId | keybindId => simp [Kind.part?] at hpart

/-- The pieces of all declared parameters stand behind each other, or a part is due and does not
stand. -/
theorem exists_pieces_or_due (data : ByteArray) (declarations : List Declaration)
    (position : Nat) :
    (∃ pieces parameters, At data position pieces.flatten ∧
        Pieces data.size declarations position pieces parameters) ∨
      ∃ part place parameters, Due data declarations position part place parameters ∧
        ¬ part.Stands data place := by
  induction declarations generalizing position with
  | nil => exact .inl ⟨[], [], trivial, .nil⟩
  | cons declaration rest ih =>
    obtain ⟨bytes, parameters, hat, hpiece⟩ | hdue :=
      exists_piece_or_due data declaration rest position
    · obtain ⟨pieces, found, hpieces, hrest⟩ | ⟨part, place, found, hdue, hstops⟩ :=
        ih (position + bytes.length)
      · refine .inl ⟨bytes :: pieces, _, ?_, .cons hpiece hrest⟩
        rw [List.flatten_cons, Bytes.at_append]
        exact ⟨hat, hpieces⟩
      · exact .inr ⟨part, place, _, .behind hat hpiece hdue, hstops⟩
    · exact .inr hdue

/-! ## Walks that are stopped -/

namespace Walk

/-- A walk over a sequence is stopped at the element at which reading stops. -/
theorem sequence_of_stopped {data : ByteArray} {part : Part} {name : String} {walk : Walk}
    {index place : Nat} (hstopped : part.read data walk.position = .stopped place)
    (remaining : Nat) :
    walk.sequence (part.read data) name index (remaining + 1) =
      { walk with position := place, cutOff := true } := by
  simp only [sequence, hstopped, cutOff_take_stopped, if_true]
  rfl

/-- A walk that is stopped by the argument of a parameter goes no further. -/
theorem arguments_of_argument {data : ByteArray} {walk : Walk} {declaration : Declaration}
    (h : (walk.argument data declaration).cutOff = true) (rest : List Declaration) :
    walk.arguments data (declaration :: rest) = walk.argument data declaration := by
  simp only [arguments, h, if_true]

/-- A walk that is stopped, behind further parameters. -/
def stop (walk : Walk) (position : Nat) (parameters : List Parameter) : Walk :=
  { walk.after position parameters with cutOff := true }

/-- A walk that stops keeps what it has found. -/
theorem toList_parameters_stop (walk : Walk) (position : Nat) (parameters : List Parameter) :
    (walk.stop position parameters).parameters.toList = walk.parameters.toList ++ parameters := by
  simp [stop, after]

/-- A reading that is stopped stops the walk and finds nothing. -/
theorem take_stopped (walk : Walk) (name : String) (position : Nat) :
    walk.take name (.stopped position) = walk.stop position [] := by
  simp [take, stop, after]

/-- A walk is stopped at the due part at which reading stops. -/
theorem arguments_of_due {data : ByteArray} {declarations : List Declaration}
    {position place stopped : Nat} {part : Part} {parameters : List Parameter}
    (h : Due data declarations position part place parameters)
    (hread : part.read data place = .stopped stopped) {walk : Walk}
    (hcutOff : walk.cutOff = false) (hposition : walk.position = position) :
    walk.arguments data declarations = walk.stop stopped parameters := by
  induction h generalizing walk with
  | @single kind part name rest position hpart =>
    subst hposition
    have hargument : walk.argument data ⟨kind, name⟩ = walk.stop stopped [] := by
      rw [argument_single data walk name hpart, hread, take_stopped]
    rw [arguments_of_argument (by rw [hargument]; rfl), hargument]
  | @count form kind name rest position =>
    subst hposition
    have hargument : walk.argument data ⟨.counted form kind, name⟩ = walk.stop stopped [] := by
      simp only [Part.read] at hread
      split at hread
      · rename_i hnone
        obtain rfl := Reading.stopped.inj hread
        simp only [argument, hnone, take_stopped]
      · simp at hread
    rw [arguments_of_argument (by rw [hargument]; rfl), hargument]
  | @element form kind name label rest position index bytes elements count parameters hat hcount
      helements hindex =>
    subst hposition
    rw [Bytes.at_append] at hat
    -- The elements in front of the part are walked over, and then reading stops.
    obtain ⟨remaining, hremaining⟩ : ∃ remaining, count.toNat = index + (remaining + 1) :=
      ⟨count.toNat - index - 1, by omega⟩
    have hargument : walk.argument data ⟨.counted form kind, name⟩ =
        walk.stop stopped (⟨label, name, .int count⟩ :: parameters) := by
      rw [argument_counted hat.1 hcount, hremaining,
        sequence_of_elements (by exact hcutOff) rfl hat.2 helements,
        sequence_of_stopped (by rw [position_after]; exact hread), after_after,
        List.singleton_append]
      rfl
    rw [arguments_of_argument (by rw [hargument]; rfl), hargument]
  | @behind declaration rest position place part bytes parameters found hat hpiece hrest ih =>
    subst hposition
    have hargument := argument_of_piece hcutOff hat hpiece
    simp only [arguments, hargument, cutOff_after, hcutOff, Bool.false_eq_true, if_false]
    rw [ih hread (by rwa [cutOff_after]) rfl, stop, after_after]
    rfl

end Walk

end Arguments

open Bytes (At)
open Arguments (Due Part Pieces)

/-! ## Instructions that are cut off -/

/-- All declared parameters of an occurrence are complete. -/
def Template.Completes (template : Template) (data : ByteArray) (offset : Nat) : Prop :=
  ∃ pieces parameters, At data (offset + 4) pieces.flatten ∧
    Pieces data.size template.parameters (offset + 4) pieces parameters

/-- The part is the first one of an occurrence that is not complete: it is due at `place`, where it
does not stand, and the parameters are those found before it. -/
structure Template.Breaks (template : Template) (data : ByteArray) (offset : Nat) (part : Part)
    (place : Nat) (parameters : List Parameter) : Prop where
  /-- The part is due. -/
  due : Due data template.parameters (offset + 4) part place parameters
  /-- It does not stand where it is due. -/
  stops : ¬ part.Stands data place

/-- The walk over an occurrence is stopped at the first part that is not complete. -/
theorem Template.Breaks.exists_walk {template : Template} {data : ByteArray} {offset place : Nat}
    {part : Part} {parameters : List Parameter}
    (h : template.Breaks data offset part place parameters) :
    ∃ stop, part.Stops data place stop ∧
      template.walk data offset = (Arguments.Walk.start (offset + 4)).stop stop parameters := by
  obtain ⟨stop, hread⟩ := Part.exists_read_eq_stopped h.stops
  exact ⟨stop, Part.stops_of_read hread, Arguments.Walk.arguments_of_due h.due hread rfl rfl⟩

/-- The instruction is cut off at the part, and has the parameters that were found before. It ends
at the place of the part when bytes of the part are missing, and else at the tag in whose place the
next instruction starts. -/
structure Instruction.StopsAt (instruction : Instruction) (data : ByteArray) (offset : Nat)
    (part : Part) (place : Nat) (parameters : List Parameter) : Prop where
  /-- It is cut off. -/
  cutOff : instruction.cutOff = true
  /-- The parameters are those before the part. -/
  ordered : instruction.parameters.ordered = parameters
  /-- The bytes are those before the part, or before the next instruction. -/
  raw : (part.Misses data place ∧ place ≤ data.size ∧
      instruction.raw = data.extract offset place) ∨
    ∃ stop, ¬ part.Misses data place ∧ part.Yields data place stop ∧
      instruction.raw = data.extract offset stop

/-- An occurrence is complete, or there is a first part that is not. -/
theorem Template.completes_or_breaks (template : Template) (data : ByteArray) (offset : Nat) :
    template.Completes data offset ∨
      ∃ part place parameters, template.Breaks data offset part place parameters := by
  obtain hcomplete | ⟨part, place, parameters, hdue, hstops⟩ :=
    Arguments.exists_pieces_or_due data template.parameters (offset + 4)
  · exact .inl hcomplete
  · exact .inr ⟨part, place, parameters, hdue, hstops⟩

namespace Instruction

variable {data : ByteArray} {offset place : Nat} {template : Template} {instruction : Instruction}
  {part : Part} {parameters : List Parameter}

/-- An instruction whose declared parameters are complete is not cut off. -/
theorem cutOff_eq_false_of_completes (h : decode data offset template = .ok instruction)
    (hcomplete : template.Completes data offset) : instruction.cutOff = false := by
  obtain ⟨pieces, parameters, hat, hpieces⟩ := hcomplete
  obtain ⟨-, -, hcutOff, -, -⟩ := eq_of_decode h
  rw [hcutOff, Template.walk_of_pieces (List.append_nil _).symm hat hpieces]
  rfl

/-- An instruction keeps what was found before the place at which the walk is stopped. -/
theorem of_stopped (h : decode data offset template = .ok instruction) {stop : Nat}
    (hstop : stop ≤ data.size)
    (hwalk : template.walk data offset =
      (Arguments.Walk.start (offset + 4)).stop stop parameters) :
    instruction.cutOff = true ∧ instruction.parameters.ordered = parameters ∧
      instruction.raw = data.extract offset stop := by
  obtain ⟨-, -, hcutOff, hraw, hset⟩ := eq_of_decode h
  rw [hwalk] at hcutOff hraw hset
  refine ⟨hcutOff, ?_, ?_⟩
  · rw [ParameterSet.ordered_of_ofList hset, Arguments.Walk.toList_parameters_stop]
    rfl
  · rw [hraw]
    exact congrArg _ (Nat.min_eq_left hstop)

/-- What is found before the first part that is not complete is an instruction if no two of its
parameters have the same key. -/
theorem exists_decode_of_breaks (h : template.Breaks data offset part place parameters)
    (hkeys : (parameters.map Parameter.key).Nodup) :
    ∃ instruction, decode data offset template = .ok instruction := by
  obtain ⟨stop, -, hwalk⟩ := h.exists_walk
  have hlist : (template.walk data offset).parameters.toList = parameters := by
    rw [hwalk, Arguments.Walk.toList_parameters_stop]
    rfl
  unfold decode
  dsimp only
  rw [hlist, ParameterSet.ofList_of_nodup offset hkeys]
  exact ⟨_, rfl⟩

/-- An instruction is stopped at the first part that is not complete, and keeps what was found
before it. -/
theorem stopsAt_of_breaks (hoffset : offset + 4 ≤ data.size)
    (h : decode data offset template = .ok instruction)
    (hbreaks : template.Breaks data offset part place parameters) :
    instruction.StopsAt data offset part place parameters := by
  obtain ⟨-, hsize⟩ := hbreaks.due.le hoffset
  obtain ⟨stop, ⟨hmisses, rfl⟩ | ⟨hbytes, hyields⟩, hwalk⟩ := hbreaks.exists_walk
  · obtain ⟨hcutOff, hparameters, hraw⟩ := of_stopped h hsize hwalk
    exact ⟨hcutOff, hparameters, .inl ⟨hmisses, hsize, hraw⟩⟩
  · obtain ⟨hcutOff, hparameters, hraw⟩ := of_stopped h hyields.le_size hwalk
    exact ⟨hcutOff, hparameters, .inr ⟨stop, hbytes, hyields, hraw⟩⟩

/-- An instruction is cut off exactly when not all declared parameters are complete. Then there is a
first part that is not, and it is there that the instruction is stopped. -/
theorem cutOff_of_decode (hoffset : offset + 4 ≤ data.size)
    (h : decode data offset template = .ok instruction) :
    (instruction.cutOff = true ↔ ¬ template.Completes data offset) ∧
      (instruction.cutOff = true →
        ∃ part place parameters, template.Breaks data offset part place parameters) ∧
      ∀ part place parameters, template.Breaks data offset part place parameters →
        instruction.StopsAt data offset part place parameters := by
  have hcut : instruction.cutOff = true → ¬ template.Completes data offset := by
    intro hcutOff hcomplete
    rw [cutOff_eq_false_of_completes h hcomplete] at hcutOff
    simp at hcutOff
  refine ⟨⟨hcut, fun hincomplete => ?_⟩, fun hcutOff => ?_, ?_⟩
  · obtain ⟨part, place, parameters, hbreaks⟩ :=
      (template.completes_or_breaks data offset).resolve_left hincomplete
    exact (stopsAt_of_breaks hoffset h hbreaks).cutOff
  · exact (template.completes_or_breaks data offset).resolve_left (hcut hcutOff)
  · exact fun part place parameters => stopsAt_of_breaks hoffset h

end Instruction

/-- A list of variables. -/
def Template.variables : Template where
  signature := 0x25040001
  name := "cmd_test"
  parameters := [⟨.counted .taggedWord (.tagged .compact), "vars"⟩]

/-- The list in its bytes: three variables are announced, and the second one breaks off. -/
def Template.variablesBytes : ByteArray :=
  ⟨#[0x25, 4, 0, 1, 2, 3, 0, 0, 0, 0x20, 1, 0, 0, 0, 0x20, 2]⟩

/-- Behind the first variable the instruction is cut off, and it keeps the count. -/
theorem Instruction.cutOff_variables :
    ∃ instruction, Instruction.decode Template.variablesBytes 0 .variables = .ok instruction ∧
      instruction.StopsAt Template.variablesBytes 0 (.tagged .compact) 14
        [⟨"count", "vars", .int 3⟩, ⟨"0x20 variable", "vars[0]", .int 1⟩] := by
  have hbreaks : Template.variables.Breaks Template.variablesBytes 0 (.tagged .compact) 14
      [⟨"count", "vars", .int 3⟩, ⟨"0x20 variable", "vars[0]", .int 1⟩] := by
    constructor
    · have hcount : (Part.count .taggedWord).Holds 4 [2, 3, 0, 0, 0] "count" (.int 3) :=
        .countTaggedWord
      have hfirst : (Part.tagged .compact).Holds 9 [0x20, 1, 0, 0, 0] "0x20 variable" (.int 1) :=
        .taggedCompact (.known rfl)
      exact @Due.element _ _ (.tagged .compact) _ _ _ _ 1 [2, 3, 0, 0, 0] [0x20, 1, 0, 0, 0] 3 _
        (Bytes.at_iff_extract.2 (by decide)) hcount (.cons hfirst .nil) (by decide)
    · intro hstands
      exact Part.not_misses_of_stands hstands (show 16 < 14 + 1 + 4 by decide)
  obtain ⟨instruction, hdecode⟩ := Instruction.exists_decode_of_breaks hbreaks (by decide)
  exact ⟨instruction, hdecode, (Instruction.cutOff_of_decode (by decide) hdecode).2.2 _ _ _ hbreaks⟩

end PacScript
