import PacScript.Proofs.Instruction.Reading
import PacScript.Proofs.Parameter

/-!
# Decoding accepts the layout

A walk over arguments takes the pieces of the layout one after another: where they stand, it goes
on behind them with their parameters (`Walk.arguments_of_pieces`), and when it was not stopped, it
has gone over such pieces (`Walk.exists_pieces`). So an instruction is decoded without being cut
off exactly when its arguments have the layout that its template declares.
-/

namespace PacScript.Arguments

open Bytes (At)

/-- The walk behind further parameters. -/
def Walk.after (walk : Walk) (position : Nat) (parameters : List Parameter) : Walk :=
  { walk with position, parameters := walk.parameters ++ parameters.toArray }

namespace Walk

/-- A walk after some parameters stands where they end. -/
@[simp] theorem position_after (walk : Walk) (position : Nat) (parameters : List Parameter) :
    (walk.after position parameters).position = position := rfl

/-- Complete parameters do not cut a walk off. -/
@[simp] theorem cutOff_after (walk : Walk) (position : Nat) (parameters : List Parameter) :
    (walk.after position parameters).cutOff = walk.cutOff := rfl

/-- A walk after no parameters is where it was. -/
@[simp] theorem after_nil (walk : Walk) : walk.after walk.position [] = walk := by
  simp [after]

/-- Parameters that are found one after another are found together. -/
@[simp] theorem after_after (walk : Walk) (middle position : Nat)
    (parameters rest : List Parameter) :
    (walk.after middle parameters).after position rest =
      walk.after position (parameters ++ rest) := by
  simp [after]

/-- A complete reading is one more parameter. -/
theorem take_complete (walk : Walk) (name label : String) (value : Value) (next : Nat) :
    walk.take name (.complete label value next) = walk.after next [⟨label, name, value⟩] := by
  simp [take, after]

/-- A reading that is stopped cuts the walk off. -/
@[simp] theorem cutOff_take_stopped (walk : Walk) (name : String) (position : Nat) :
    (walk.take name (.stopped position)).cutOff = true := rfl

/-- A reading that does not stop the walk is complete. -/
theorem exists_complete_of_take {walk : Walk} {name : String} {reading : Reading}
    (h : (walk.take name reading).cutOff = false) :
    ∃ label value next, reading = .complete label value next := by
  cases reading with
  | complete label value next => exact ⟨label, value, next, rfl⟩
  | stopped position => simp at h

/-! ## Sequences -/

/-- A walk over a sequence goes over the elements that stand at its position. -/
theorem sequence_of_elements {data : ByteArray} {part : Part} {name : String} {walk : Walk}
    {position index count : Nat} {bytes : List UInt8} {parameters : List Parameter}
    (hcutOff : walk.cutOff = false) (hposition : walk.position = position)
    (hat : At data position bytes)
    (h : Elements part name position index count bytes parameters) (remaining : Nat) :
    walk.sequence (part.read data) name index (count + remaining) =
      (walk.after (position + bytes.length) parameters).sequence (part.read data) name
        (index + count) remaining := by
  induction h generalizing walk with
  | nil =>
    subst hposition
    rw [List.length_nil, Nat.zero_add, Nat.add_zero, Nat.add_zero, after_nil]
  | @cons position index count bytes rest label value parameters hhead htail ih =>
    rw [Bytes.at_append] at hat
    -- The first element is read, and the induction goes over the others.
    have hread : part.read data walk.position =
        .complete label value (position + bytes.length) := by
      rw [hposition]
      exact Part.read_eq_complete_iff.2 ⟨bytes, hat.1, hhead, rfl⟩
    rw [show count + 1 + remaining = count + remaining + 1 by omega]
    simp only [sequence, hread, take_complete, cutOff_after, hcutOff, Bool.false_eq_true, if_false]
    rw [ih (by simpa using hcutOff) rfl hat.2, after_after, List.length_append,
      List.singleton_append]
    rw [show position + (bytes.length + rest.length) = position + bytes.length + rest.length by
      omega, show index + 1 + count = index + (count + 1) by omega]

/-- A walk over as many elements as stand at its position ends behind them. -/
theorem sequence_eq_after {data : ByteArray} {part : Part} {name : String} {walk : Walk}
    {index count : Nat} {bytes : List UInt8} {parameters : List Parameter}
    (hcutOff : walk.cutOff = false) (hat : At data walk.position bytes)
    (h : Elements part name walk.position index count bytes parameters) :
    walk.sequence (part.read data) name index count =
      walk.after (walk.position + bytes.length) parameters :=
  sequence_of_elements hcutOff rfl hat h 0

/-- A walk over a sequence that is not stopped has gone over its elements. -/
theorem exists_elements {data : ByteArray} {part : Part} {name : String} {walk : Walk}
    {index count : Nat} (hcutOff : walk.cutOff = false)
    (h : (walk.sequence (part.read data) name index count).cutOff = false) :
    ∃ bytes parameters, At data walk.position bytes ∧
      Elements part name walk.position index count bytes parameters ∧
      walk.sequence (part.read data) name index count =
        walk.after (walk.position + bytes.length) parameters := by
  induction count generalizing walk index with
  | zero => exact ⟨[], [], trivial, .nil, (after_nil walk).symm⟩
  | succ count ih =>
    simp only [sequence] at h ⊢
    split at h
    · rename_i hstopped
      rw [hstopped] at h
      simp at h
    · rename_i hgoes
      rw [Bool.not_eq_true] at hgoes
      -- Since the walk goes on, the element is complete, and the others are behind its bytes.
      obtain ⟨label, value, next, hread⟩ := exists_complete_of_take hgoes
      obtain ⟨bytes, hat, hholds, rfl⟩ := Part.read_eq_complete_iff.1 hread
      rw [hread, take_complete] at h ⊢
      obtain ⟨rest, parameters, hrest, helements, hwalk⟩ := ih (by simpa using hcutOff) h
      rw [position_after] at hrest helements hwalk
      refine ⟨bytes ++ rest, _, ?_, .cons hholds helements, ?_⟩
      · rw [Bytes.at_append]
        exact ⟨hat, hrest⟩
      · rw [cutOff_after, hcutOff, if_neg Bool.false_ne_true, hwalk, after_after,
          List.length_append, Nat.add_assoc, List.singleton_append]

/-! ## Declared parameters -/

/-- The walk over a parameter of one part reads the part. -/
theorem argument_single (data : ByteArray) (walk : Walk) (name : String) {kind : Kind}
    {part : Part} (hpart : kind.part? = some part) :
    walk.argument data ⟨kind, name⟩ = walk.take name (part.read data walk.position) := by
  cases kind <;> cases hpart <;> rfl

/-- A count is read as a part. -/
theorem count?_of_holds {data : ByteArray} {form : CountForm} {position : Nat}
    {bytes : List UInt8} {label : String} {count : UInt32} (hat : At data position bytes)
    (h : (Part.count form).Holds position bytes label (.int count)) :
    count? data form position = some (count, position + bytes.length) := by
  obtain ⟨rfl, -⟩ := h.eq_int
  exact count?_eq_some_iff.2 ⟨bytes, hat, h, rfl⟩

/-- The walk over a counted parameter whose count stands at its position goes on to the elements. -/
theorem argument_counted {data : ByteArray} {walk : Walk} {name label : String} {form : CountForm}
    {kind : ElementKind} {bytes : List UInt8} {count : UInt32}
    (hat : At data walk.position bytes)
    (h : (Part.count form).Holds walk.position bytes label (.int count)) :
    walk.argument data ⟨.counted form kind, name⟩ =
      (walk.after (walk.position + bytes.length) [⟨label, name, .int count⟩]).sequence
        (kind.part.read data) name 0 count.toNat := by
  obtain ⟨rfl, -⟩ := h.eq_int
  simp only [argument, count?_of_holds hat h, element_eq_read, take_complete]

/-- The walk over a parameter goes over the piece that stands at its position. -/
theorem argument_of_piece {data : ByteArray} {walk : Walk} {declaration : Declaration}
    {bytes : List UInt8} {parameters : List Parameter} (hcutOff : walk.cutOff = false)
    (hat : At data walk.position bytes)
    (h : Piece data.size declaration walk.position bytes parameters) :
    walk.argument data declaration = walk.after (walk.position + bytes.length) parameters := by
  cases h with
  | single hpart hholds =>
    rw [argument_single data walk _ hpart,
      Part.read_eq_complete_iff.2 ⟨bytes, hat, hholds, rfl⟩, take_complete]
  | @counted form kind name label _ bytes rest count parameters hcount helements =>
    rw [Bytes.at_append] at hat
    have hcounted : (walk.after (walk.position + bytes.length)
        [⟨label, name, .int count⟩]).cutOff = false := hcutOff
    rw [argument_counted hat.1 hcount, sequence_eq_after hcounted hat.2 helements, after_after,
      position_after, List.length_append, Nat.add_assoc, List.singleton_append]
  | continuous helements => exact sequence_eq_after hcutOff hat helements

/-- A walk over a parameter that is not stopped has gone over a piece. -/
theorem exists_piece {data : ByteArray} {walk : Walk} {declaration : Declaration}
    (hcutOff : walk.cutOff = false) (h : (walk.argument data declaration).cutOff = false) :
    ∃ bytes parameters, At data walk.position bytes ∧
      Piece data.size declaration walk.position bytes parameters ∧
      walk.argument data declaration = walk.after (walk.position + bytes.length) parameters := by
  obtain ⟨kind, name⟩ := declaration
  cases hpart : kind.part? with
  | some part =>
    rw [argument_single data walk name hpart] at h ⊢
    obtain ⟨label, value, next, hread⟩ := exists_complete_of_take h
    obtain ⟨bytes, hat, hholds, rfl⟩ := Part.read_eq_complete_iff.1 hread
    rw [hread, take_complete]
    exact ⟨bytes, _, hat, .single hpart hholds, rfl⟩
  | none =>
    cases kind with
    | counted form kind =>
      cases hcount : count? data form walk.position with
      | none =>
        simp only [argument, hcount] at h
        simp at h
      | some found =>
        obtain ⟨count, next⟩ := found
        obtain ⟨bytes, hat, hholds, rfl⟩ := count?_eq_some_iff.1 hcount
        have hcounted : (walk.after (walk.position + bytes.length)
            [⟨countLabel, name, .int count⟩]).cutOff = false := hcutOff
        -- The count is complete; what is left of the walk goes over the elements.
        rw [argument_counted hat hholds] at h ⊢
        obtain ⟨rest, parameters, hrest, helements, hwalk⟩ := exists_elements hcounted h
        refine ⟨bytes ++ rest, _, ?_, .counted hholds helements, ?_⟩
        · rw [Bytes.at_append]
          exact ⟨hat, hrest⟩
        · rw [hwalk, after_after, position_after, List.length_append, Nat.add_assoc,
            List.singleton_append]
    | continuous =>
      have hwords : (walk.sequence ((Part.fixed .integer).read data) name 0
          ((data.size - walk.position) / 4)).cutOff = false := h
      obtain ⟨bytes, parameters, hat, helements, hwalk⟩ := exists_elements hcutOff hwords
      exact ⟨bytes, parameters, hat, .continuous helements, hwalk⟩
    | fixed | tagged | string | entityId | equipId | keybindId => simp [Kind.part?] at hpart

/-- A walk goes over the pieces that stand at its position, and on with what is declared behind
them. -/
theorem arguments_of_pieces {data : ByteArray} {walk : Walk} {declarations : List Declaration}
    {position : Nat} {pieces : List (List UInt8)} {parameters : List Parameter}
    (hcutOff : walk.cutOff = false) (hposition : walk.position = position)
    (hat : At data position pieces.flatten)
    (h : Pieces data.size declarations position pieces parameters) (rest : List Declaration) :
    walk.arguments data (declarations ++ rest) =
      (walk.after (position + pieces.flatten.length) parameters).arguments data rest := by
  induction h generalizing walk with
  | nil =>
    subst hposition
    rw [List.nil_append, List.flatten_nil, List.length_nil, Nat.add_zero, after_nil]
  | @cons declaration declarations position bytes pieces parameters rest' hhead htail ih =>
    subst hposition
    rw [List.flatten_cons, Bytes.at_append] at hat
    have hargument := argument_of_piece hcutOff hat.1 hhead
    simp only [List.cons_append, arguments, hargument, cutOff_after, hcutOff, Bool.false_eq_true,
      if_false]
    rw [ih (by simpa using hcutOff) rfl hat.2, after_after, List.flatten_cons, List.length_append,
      Nat.add_assoc]

/-- A walk that is not stopped has gone over the pieces of all declared parameters. -/
theorem exists_pieces {data : ByteArray} {walk : Walk} {declarations : List Declaration}
    (hcutOff : walk.cutOff = false) (h : (walk.arguments data declarations).cutOff = false) :
    ∃ pieces parameters, At data walk.position pieces.flatten ∧
      Pieces data.size declarations walk.position pieces parameters ∧
      walk.arguments data declarations =
        walk.after (walk.position + pieces.flatten.length) parameters := by
  induction declarations generalizing walk with
  | nil => exact ⟨[], [], trivial, .nil, (after_nil walk).symm⟩
  | cons declaration declarations ih =>
    -- A walk that was stopped by this parameter would have gone no further.
    simp only [arguments] at h ⊢
    split at h
    · rename_i hstopped
      rw [hstopped] at h
      simp at h
    · rename_i hgoes
      rw [Bool.not_eq_true] at hgoes
      obtain ⟨bytes, parameters, hat, hpiece, hargument⟩ := exists_piece hcutOff hgoes
      rw [hargument] at h ⊢
      obtain ⟨pieces, rest, hrest, hpieces, hwalk⟩ := ih (by simpa using hcutOff) h
      rw [position_after] at hrest hpieces hwalk
      refine ⟨bytes :: pieces, _, ?_, .cons hpiece hpieces, ?_⟩
      · rw [List.flatten_cons, Bytes.at_append]
        exact ⟨hat, hrest⟩
      · rw [cutOff_after, hcutOff, if_neg Bool.false_ne_true, hwalk, after_after,
          List.flatten_cons, List.length_append, Nat.add_assoc]

end Walk

end PacScript.Arguments

namespace PacScript

open Bytes (At)
open Arguments (Pieces Walk)

/-- The walk over an occurrence whose arguments begin with pieces goes over them, and on with what
is declared behind them. -/
theorem Template.walk_of_pieces {data : ByteArray} {offset : Nat} {template : Template}
    {declared rest : List Declaration} {pieces : List (List UInt8)} {parameters : List Parameter}
    (hdeclared : template.parameters = declared ++ rest)
    (hat : At data (offset + 4) pieces.flatten)
    (h : Pieces data.size declared (offset + 4) pieces parameters) :
    template.walk data offset =
      Walk.arguments data ⟨offset + 4 + pieces.flatten.length, parameters.toArray, false⟩ rest := by
  have hcutOff : (Walk.start (offset + 4)).cutOff = false := rfl
  have hwalk := Walk.arguments_of_pieces hcutOff rfl hat h rest
  rw [Walk.after, Walk.start, Array.empty_append] at hwalk
  rw [Template.walk, hdeclared]
  exact hwalk

namespace Instruction

/-- An instruction whose arguments are the pieces that its template declares is decoded up to their
end. -/
theorem decode_of_pieces {data : ByteArray} {offset : Nat} {template : Template}
    {pieces : List (List UInt8)} {parameters : List Parameter} (hoffset : offset + 4 ≤ data.size)
    (hat : At data (offset + 4) pieces.flatten)
    (hpieces : Pieces data.size template.parameters (offset + 4) pieces parameters)
    (hkeys : (parameters.map Parameter.key).Nodup) :
    decode data offset template =
      .ok ⟨offset, data.extract offset (offset + 4 + pieces.flatten.length), template, false,
        ⟨parameters, hkeys⟩⟩ := by
  have hwalk := Template.walk_of_pieces (List.append_nil _).symm hat hpieces
  rw [Walk.arguments] at hwalk
  have hsize := hat.length_le hoffset
  unfold decode
  simp only [hwalk]
  rw [ParameterSet.ofList_of_nodup offset hkeys, Nat.min_eq_left hsize]

/-- An instruction that is not cut off consists of its signature and the pieces that its template
declares. -/
theorem exists_pieces_of_decode {data : ByteArray} {offset : Nat} {template : Template}
    {instruction : Instruction} (hoffset : offset + 4 ≤ data.size)
    (h : decode data offset template = .ok instruction) (hcutOff : instruction.cutOff = false) :
    ∃ pieces, At data (offset + 4) pieces.flatten ∧
      Pieces data.size template.parameters (offset + 4) pieces instruction.parameters.ordered ∧
      instruction.raw = data.extract offset (offset + 4 + pieces.flatten.length) := by
  obtain ⟨-, -, hcut, hraw, hset⟩ := eq_of_decode h
  rw [hcutOff] at hcut
  -- The walk was not stopped, so it has gone over pieces, and its end is where they end.
  obtain ⟨pieces, parameters, hat, hpieces, hwalk⟩ :=
    Walk.exists_pieces (by rfl : (Walk.start (offset + signatureSize)).cutOff = false) hcut.symm
  have hsize := hat.length_le hoffset
  have hposition : (template.walk data offset).position = offset + 4 + pieces.flatten.length := by
    rw [Template.walk, hwalk]
    rfl
  have hparameters : (template.walk data offset).parameters.toList = parameters := by
    rw [Template.walk, hwalk]
    simp [Walk.after, Walk.start]
  rw [hparameters] at hset
  rw [ParameterSet.ordered_of_ofList hset, hraw, hposition]
  refine ⟨pieces, hat, hpieces, ?_⟩
  rw [Nat.min_eq_left]
  exact hsize

/-- An instruction is decoded up to `stop` without being cut off exactly when its arguments are the
pieces of the parameters that its template declares, and no two of these have the same key. -/
theorem decode_eq_ok_iff_pieces {data : ByteArray} {offset stop : Nat}
    (hoffset : offset + 4 ≤ data.size) (hstop : stop ≤ data.size) (template : Template)
    (parameters : List Parameter) :
    (∃ set, decode data offset template =
          .ok ⟨offset, data.extract offset stop, template, false, set⟩ ∧
        set.ordered = parameters) ↔
      offset + 4 ≤ stop ∧ (parameters.map Parameter.key).Nodup ∧
        ∃ pieces, Pieces data.size template.parameters (offset + 4) pieces parameters ∧
          data.extract (offset + 4) stop = pieces.flatten.toByteArray := by
  constructor
  · intro h
    obtain ⟨set, hdecode, rfl⟩ := h
    obtain ⟨pieces, hat, hpieces, hraw⟩ := exists_pieces_of_decode hoffset hdecode rfl
    have hsize := hat.length_le hoffset
    -- The bytes of the instruction fix where it ends.
    have hend : stop = offset + 4 + pieces.flatten.length := by
      have hlength := congrArg ByteArray.size hraw
      simp only [ByteArray.size_extract] at hlength
      omega
    subst hend
    exact ⟨Nat.le_add_right _ _, set.nodup_keys, pieces, hpieces, Bytes.at_iff_extract.1 hat⟩
  · intro h
    obtain ⟨hle, hkeys, pieces, hpieces, harguments⟩ := h
    have hend : stop = offset + 4 + pieces.flatten.length := by
      have hlength := congrArg ByteArray.size harguments
      rw [ByteArray.size_extract, List.size_toByteArray] at hlength
      omega
    subst hend
    have hat := Bytes.at_iff_extract.2 harguments
    exact ⟨⟨parameters, hkeys⟩, decode_of_pieces hoffset hat hpieces hkeys, rfl⟩

end Instruction

/-- A caption: a speaker, a time on a word boundary, and a text. -/
def Template.caption : Template where
  signature := 0x25070013
  name := "cmd_cap"
  parameters := [⟨.tagged .compact, "speaker"⟩, ⟨.tagged .word, "time"⟩, ⟨.string, "text"⟩]

/-- A caption in its bytes, with three bytes in front of the time, and a byte behind it. -/
def Template.captionBytes : ByteArray :=
  ⟨#[0x25, 7, 0, 0x13, 0x20, 1, 0, 0, 0, 9, 9, 9, 0x10, 0, 0, 0, 0, 0, 0x80, 0x3F, 0x68, 0x69, 0,
    0xAA]⟩

/-- A caption is decoded from the pieces of its three parameters. -/
theorem Instruction.decode_caption :
    ∃ set, Instruction.decode Template.captionBytes 0 .caption =
        .ok ⟨0, Template.captionBytes.extract 0 23, .caption, false, set⟩ ∧
      set.ordered = [⟨"0x20 variable", "speaker", .int 1⟩,
        ⟨"float", "time", .float 0x3F800000⟩, ⟨"string", "text", .text "hi"⟩] := by
  have htext : withoutNul (Encoding.shiftJis.decode ([0x68, 0x69] ++ [0])) = "hi" := by
    decide +kernel
  have hpieces : Pieces 24 Template.caption.parameters 4
      [[0x20, 1, 0, 0, 0], [9, 9, 9] ++ [0x10, 0, 0, 0, 0, 0, 0x80, 0x3F], [0x68, 0x69] ++ [0]]
      [⟨"0x20 variable", "speaker", .int 1⟩, ⟨"float", "time", .float 0x3F800000⟩,
        ⟨"string", "text", .text "hi"⟩] := by
    refine .cons (.single rfl (.taggedCompact (.known rfl))) ?_
    refine .cons (.single rfl (.taggedWord (by decide) (by decide) (.known rfl))) ?_
    refine .cons (.single rfl ?_) .nil
    rw [← htext]
    exact .string (by decide)
  apply (Instruction.decode_eq_ok_iff_pieces (by decide) (by decide) Template.caption _).2
  exact ⟨by decide, by decide, _, hpieces, by decide +kernel⟩

end PacScript
