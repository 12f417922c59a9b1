import PacScript.Proofs.Bytes.Cuts
import PacScript.Proofs.Instruction.Decoding

/-!
# Instructions in other places

The layout of arguments knows of a buffer only the position of a piece, and of the position only
where it is between two word boundaries. So pieces can stand in any other place that is as far from
a boundary (`Pieces.relocate`), unless they take up what the buffer has left: continuous parameters
do. An instruction that is not cut off and declares none is decoded wherever its bytes stand
(`Instruction.decode_relocate`), and nowhere else (`Instruction.extract_eq_raw_iff`): what surrounds
the bytes has no part in it.
-/

namespace PacScript.Arguments

/-- The bytes of a part mean the same in a place that is as far from a word boundary. -/
theorem Part.Holds.relocate {part : Part} {position place : Nat} {bytes : List UInt8}
    {label : String} {value : Value} (h : part.Holds position bytes label value)
    (hplace : place % 4 = position % 4) : part.Holds place bytes label value := by
  cases h with
  | integer => exact .integer
  | float => exact .float
  | jumpTarget => exact .jumpTarget
  | taggedWord hskipped haligned hlabel => exact .taggedWord hskipped (by omega) hlabel
  | taggedHalf hlabel => exact .taggedHalf hlabel
  | taggedCompact hlabel => exact .taggedCompact hlabel
  | string hzero => exact .string hzero
  | countByte => exact .countByte
  | countTaggedWord => exact .countTaggedWord
  | countWord => exact .countWord
  | identifier hcategory => exact .identifier hcategory

/-- Elements mean the same at another place that is aligned alike. -/
theorem Elements.relocate {part : Part} {name : String} {position place index count : Nat}
    {bytes : List UInt8} {parameters : List Parameter}
    (h : Elements part name position index count bytes parameters)
    (hplace : place % 4 = position % 4) :
    Elements part name place index count bytes parameters := by
  induction h generalizing place with
  | nil => exact .nil
  | cons hhead htail ih => exact .cons (hhead.relocate hplace) (ih (by omega))

/-- A piece that does not take up what the buffer has left may stand elsewhere. -/
theorem Piece.relocate {size other : Nat} {declaration : Declaration} {position place : Nat}
    {bytes : List UInt8} {parameters : List Parameter}
    (h : Piece size declaration position bytes parameters)
    (hbounded : declaration.kind ≠ .continuous) (hplace : place % 4 = position % 4) :
    Piece other declaration place bytes parameters := by
  cases h with
  | single hpart hholds => exact .single hpart (hholds.relocate hplace)
  | counted hcount helements =>
    exact .counted (hcount.relocate hplace) (helements.relocate (by omega))
  | continuous => exact absurd rfl hbounded

/-- Arguments without continuous parameters mean the same at another place that is aligned alike, in
a buffer of any size. -/
theorem Pieces.relocate {size other : Nat} {declarations : List Declaration}
    {position place : Nat} {pieces : List (List UInt8)} {parameters : List Parameter}
    (h : Pieces size declarations position pieces parameters)
    (hbounded : ∀ declaration ∈ declarations, declaration.kind ≠ .continuous)
    (hplace : place % 4 = position % 4) :
    Pieces other declarations place pieces parameters := by
  induction h generalizing place with
  | nil => exact .nil
  | cons hhead htail ih =>
    rw [List.forall_mem_cons] at hbounded
    exact .cons (hhead.relocate hbounded.1 hplace) (ih hbounded.2 (by omega))

end PacScript.Arguments

namespace PacScript

open Bytes (At)

/-- True when no parameter of the template takes up what the buffer has left. -/
def Template.IsBounded (template : Template) : Prop :=
  ∀ declaration ∈ template.parameters, declaration.kind ≠ .continuous

instance (template : Template) : Decidable template.IsBounded :=
  inferInstanceAs (Decidable (∀ declaration ∈ template.parameters, declaration.kind ≠ .continuous))

/-- What was not cut off is decoded wherever its bytes stand, as far from a word boundary. -/
theorem Instruction.decode_relocate {data other : ByteArray} {offset place : Nat}
    {template : Template} {instruction : Instruction} (hoffset : offset + 4 ≤ data.size)
    (h : decode data offset template = .ok instruction) (hcutOff : instruction.cutOff = false)
    (hbounded : template.IsBounded) (hplace : place % 4 = offset % 4)
    (hbytes : other.extract place (place + instruction.size) = instruction.raw) :
    decode other place template = .ok { instruction with offset := place } := by
  obtain ⟨pieces, hat, hpieces, hraw⟩ := exists_pieces_of_decode hoffset h hcutOff
  obtain ⟨-, htemplate, -⟩ := eq_of_decode h
  have hend := hat.length_le hoffset
  have hsize : instruction.size = 4 + pieces.flatten.length := by
    rw [size, hraw, ByteArray.size_extract]
    omega
  -- The signature and the pieces stand in the other buffer, since the bytes are the same.
  have hsignature := Bytes.at_extract data (Nat.le_add_right offset 4) hoffset
  have hlength : (data.extract offset (offset + 4)).data.toList.length = 4 := by
    rw [Bytes.length_extract hoffset, Nat.add_sub_cancel_left]
  generalize (data.extract offset (offset + 4)).data.toList = signature at hsignature hlength
  have hall : At data offset (signature ++ pieces.flatten) := by
    rw [Bytes.at_append, hlength]
    exact ⟨hsignature, hat⟩
  have hother : At other place (signature ++ pieces.flatten) := by
    rw [Bytes.at_iff_extract, List.length_append, hlength] at hall ⊢
    rw [← hsize, hbytes, hraw, ← hall, Nat.add_assoc]
  rw [Bytes.at_append, hlength] at hother
  have hroom : place + 4 ≤ other.size := by
    have hcongr := congrArg ByteArray.size hbytes
    rw [ByteArray.size_extract] at hcongr
    change _ = instruction.size at hcongr
    omega
  have hdecode := decode_of_pieces hroom hother.2 (hpieces.relocate hbounded (by omega))
    instruction.parameters.nodup_keys
  rw [hdecode, Nat.add_assoc, ← hsize, hbytes, ← htemplate, ← hcutOff]

/-- An instruction is determined by its own bytes, if it is not cut off and declares no continuous
parameters. Whatever another buffer has around them, in a place that is as far from a word boundary
it has these bytes exactly when the same instruction is decoded there. -/
theorem Instruction.extract_eq_raw_iff {data : ByteArray} {offset : Nat} {template : Template}
    {instruction : Instruction} (hoffset : offset + 4 ≤ data.size)
    (h : decode data offset template = .ok instruction) (hcutOff : instruction.cutOff = false)
    (hbounded : template.IsBounded) (other : ByteArray) {place : Nat}
    (hplace : place % 4 = offset % 4) :
    other.extract place (place + instruction.size) = instruction.raw ↔
      decode other place template = .ok { instruction with offset := place } := by
  constructor
  · intro hbytes
    exact decode_relocate hoffset h hcutOff hbounded hplace hbytes
  · intro hdecode
    obtain ⟨-, -, -, hraw, -⟩ := eq_of_decode hdecode
    dsimp only at hraw
    generalize min (template.walk other place).position other.size = stop at hraw
    -- The instruction is not empty, so that its size says where its bytes end in the other buffer.
    have hpos : 4 ≤ instruction.size := signatureSize_le_size_of_decode h hoffset
    have hsize : instruction.size = min stop other.size - place := by
      rw [size, hraw, ByteArray.size_extract]
    have hend : place + instruction.size = min stop other.size := by omega
    rw [hraw, hend]
    exact Bytes.extract_min other place stop

/-- A caption between word boundaries is decoded in the middle of another buffer, with a marker in
front of it and one behind. -/
theorem Instruction.decode_caption_elsewhere :
    let data : ByteArray := ⟨#[0, 0x25, 7, 0, 0x13, 0x20, 1, 0, 0, 0, 9, 9, 0x10, 0, 0, 0, 0, 0,
      0x80, 0x3F, 0x68, 0x69, 0]⟩
    let other : ByteArray := ⟨#[0, 0x25, 1, 0, 0, 0x25, 7, 0, 0x13, 0x20, 1, 0, 0, 0, 9, 9, 0x10,
      0, 0, 0, 0, 0, 0x80, 0x3F, 0x68, 0x69, 0, 0x25, 1]⟩
    ∃ instruction, decode data 1 .caption = .ok instruction ∧ instruction.cutOff = false ∧
      instruction.size = 22 ∧ other.extract 5 (5 + instruction.size) = instruction.raw ∧
      decode other 5 .caption = .ok { instruction with offset := 5 } := by
  intro data other
  have hview : (decode data 1 .caption).toOption.map (fun instruction =>
      (instruction.cutOff, instruction.size,
        decide (other.extract 5 (5 + instruction.size) = instruction.raw))) =
      some (false, 22, true) := by decide +kernel
  obtain ⟨instruction, hsome, hseen⟩ := Option.map_eq_some_iff.1 hview
  obtain ⟨hcutOff, hseen⟩ := Prod.mk.inj hseen
  obtain ⟨hsize, hbytes⟩ := Prod.mk.inj hseen
  have hdecode := Bytes.toOption_eq_some_iff.1 hsome
  have hplace : 5 % 4 = 1 % 4 := rfl
  exact ⟨instruction, hdecode, hcutOff, hsize, of_decide_eq_true hbytes,
    (extract_eq_raw_iff (by decide) hdecode hcutOff (by decide) other hplace).1
      (of_decide_eq_true hbytes)⟩

end PacScript
