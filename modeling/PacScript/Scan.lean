import PacScript.Instruction.Lemmas
import PacScript.MarkerPolicy
import PacScript.Script

/-!
# Scanning a buffer

A scan goes over a buffer from front to back. It looks for the next *candidate*, a marker that the
policy accepts, records the bytes before it as a gap, and decodes the instruction at it; what stands
behind the last candidate is a gap too. `Scan.run` repeats this to the end. The three moves are also
there one by one: `Scanner.next?` looks for a candidate, `Scan.flush` records a gap, and
`Scan.dispatch` takes the instruction at the position of the scan.

The position of a scan is the end of what it has recorded, so its entities follow one another
without a hole.
-/

namespace PacScript

/-- What a scan goes by. -/
structure Scanner where
  /-- The templates of the known opcodes. -/
  registry : Registry
  /-- Where instructions may start. -/
  policy : MarkerPolicy := .permissive
  /-- The signature of the indexed jump, behind which its branch offsets stand. -/
  indexedJump : Option UInt32 := none
  /-- Whether the bytes behind an indexed jump are taken for its branch offsets. -/
  captureJumpTables : Bool := true

namespace Scanner

/-- True when an instruction may start at the position: there are four bytes, the first of them is
the marker, and the policy accepts their signature. -/
def isCandidate (scanner : Scanner) (data : ByteArray) (position : Nat) : Bool :=
  data[position]? == some marker &&
    match Bytes.signatureAt data position with
    | .ok signature => scanner.policy.accepts scanner.registry signature
    | .error _ => false

/-- The first candidate at or after a position. -/
def next? (scanner : Scanner) (data : ByteArray) (start : Nat) : Option Nat :=
  Search.first (scanner.isCandidate data) start (data.size - 3)

/-- True when the bytes behind an instruction with the signature are a jump table. -/
def expectsJumpTable (scanner : Scanner) (signature : UInt32) : Bool :=
  scanner.captureJumpTables && scanner.indexedJump == some signature

end Scanner

/-- What the bytes of a gap are: a message table, the arguments that the instruction before them
left out, or nothing that is known. `preceding` is the offset of the instruction, if there is one
directly before the gap. -/
def Content.ofGap (raw : ByteArray) (preceding : Option Nat) : Content :=
  if Bytes.isSequential raw then .messageTable
  else match preceding with
    | some offset => if Bytes.isTagged raw then .leftOut offset else .rawSpan
    | none => .rawSpan

/-- How far a scan has come. -/
structure Scan where
  /-- The entities recorded so far. -/
  script : Script
  /-- The offset of the instruction that was recorded last, until something else is recorded or a
  gap is closed. -/
  preceding : Option Nat := none

namespace Scan

/-- The scan that has not begun. -/
def start (data : ByteArray) : Scan :=
  { script := .ofSize data.size }

/-- Where the scan is: at the end of what it has recorded. -/
def position (scan : Scan) : Nat :=
  scan.script.covered

/-- Records an entity. -/
def record (scan : Scan) (entity : Entity) : Scan where
  script := scan.script.push entity
  preceding := match entity.content with
    | .instruction _ _ _ => some entity.offset
    | _ => none

/-- A scan stands behind the entity that it has recorded. -/
@[simp] theorem position_record (scan : Scan) (entity : Entity) :
    (scan.record entity).position = entity.stop := by
  simp [record, position]

/-- Records the bytes from the position of the scan up to `stop`, if there are any, as something
that is known by its offset and bytes. -/
def recordTo (scan : Scan) (data : ByteArray) (stop : Nat) (content : ByteArray → Content) : Scan :=
  if scan.position < stop then
    let raw := data.extract scan.position stop
    scan.record ⟨scan.position, raw, content raw⟩
  else
    scan

/-- Recording up to a place goes there, unless the scan is further on. -/
theorem position_recordTo (scan : Scan) {data : ByteArray} {stop : Nat}
    (content : ByteArray → Content) (hstop : stop ≤ data.size) :
    (scan.recordTo data stop content).position = max scan.position stop := by
  unfold recordTo
  split
  · simp only [position_record, Entity.stop, Entity.size, ByteArray.size_extract]
    omega
  · omega

/-- Closes the gap between the position of the scan and `stop`. -/
def flush (scan : Scan) (data : ByteArray) (stop : Nat) : Scan :=
  { scan.recordTo data stop (Content.ofGap · scan.preceding) with preceding := none }

/-- A flush goes up to the place, unless the scan is further on. -/
theorem position_flush (scan : Scan) {data : ByteArray} {stop : Nat} (hstop : stop ≤ data.size) :
    (scan.flush data stop).position = max scan.position stop := by
  rw [← position_recordTo scan (Content.ofGap · scan.preceding) hstop]
  simp only [flush, position]

/-- Records the bytes up to the next word boundary as padding. -/
def pad (scan : Scan) (data : ByteArray) : Scan :=
  scan.recordTo data (min (Arguments.alignUp scan.position) data.size) fun _ => .padding

/-- Padding never goes back. -/
theorem le_position_pad (scan : Scan) (data : ByteArray) :
    scan.position ≤ (scan.pad data).position := by
  rw [pad, position_recordTo _ _ (Nat.min_le_right _ _)]
  exact Nat.le_max_left _ _

/-- Records the bytes up to the next candidate as a jump table. Without a candidate nothing is
known of where the table ends, and none is recorded. -/
def captureJumpTable (scan : Scan) (scanner : Scanner) (data : ByteArray) : Scan :=
  match scanner.next? data scan.position with
  | some stop => scan.recordTo data stop fun _ => .jumpTable
  | none => scan

/-- The capture of a jump table never goes back. -/
theorem le_position_captureJumpTable (scan : Scan) (scanner : Scanner) (data : ByteArray) :
    scan.position ≤ (scan.captureJumpTable scanner data).position := by
  unfold captureJumpTable
  split
  · rename_i stop hstop
    have := (Search.first_eq_some hstop).2.1
    rw [position_recordTo _ _ (by omega)]
    exact Nat.le_max_left _ _
  · exact Nat.le_refl _

/-- Records an instruction with what belongs to it: padding behind a string, and the branch offsets
of an indexed jump. -/
def recordInstruction (scan : Scan) (scanner : Scanner) (data : ByteArray)
    (instruction : Instruction) : Scan :=
  let recorded := scan.record instruction.toEntity
  let padded := if instruction.template.endsWithString then recorded.pad data else recorded
  if scanner.expectsJumpTable instruction.signature then padded.captureJumpTable scanner data
  else padded

/-- A scan that has recorded an instruction stands at its end or behind it. -/
theorem le_position_recordInstruction (scan : Scan) (scanner : Scanner) (data : ByteArray)
    (instruction : Instruction) : instruction.offset + instruction.size ≤
      (scan.recordInstruction scanner data instruction).position := by
  have hrecord : (scan.record instruction.toEntity).position =
      instruction.offset + instruction.size := by
    rw [position_record]; rfl
  have hpad : instruction.offset + instruction.size ≤
      (if instruction.template.endsWithString then (scan.record instruction.toEntity).pad data
        else scan.record instruction.toEntity).position := by
    split
    · exact hrecord ▸ le_position_pad _ _
    · exact Nat.le_of_eq hrecord.symm
  unfold recordInstruction
  dsimp only
  split
  · exact Nat.le_trans hpad (le_position_captureJumpTable _ _ _)
  · exact hpad

/-- Takes the instruction at the position of the scan: a known one with what belongs to it, an
unknown one up to the next candidate. -/
def dispatch (scan : Scan) (scanner : Scanner) (data : ByteArray) : Except Failure Scan :=
  let start := scan.position
  match Bytes.signatureAt data start with
  | .error truncation => .error (.truncated truncation)
  | .ok signature =>
    match scanner.registry.get? signature with
    | some template =>
      match Instruction.decode data start template with
      | .error failure => .error failure
      | .ok instruction => .ok (scan.recordInstruction scanner data instruction)
    | none =>
      let stop := (scanner.next? data (start + signatureSize)).getD data.size
      .ok (scan.record ⟨start, data.extract start stop, .unknown signature⟩)

/-- An instruction takes at least the bytes of its signature. -/
theorem signatureSize_le_dispatch {scan next : Scan} {scanner : Scanner} {data : ByteArray}
    (h : scan.dispatch scanner data = .ok next) :
    scan.position + signatureSize ≤ next.position := by
  unfold dispatch at h
  dsimp only at h
  split at h
  · simp at h
  · rename_i signature hsignature
    have hsize : scan.position + signatureSize ≤ data.size := by
      unfold Bytes.signatureAt at hsignature
      split at hsignature
      · assumption
      · simp at hsignature
    split at h
    · split at h
      · simp at h
      · rename_i instruction hdecode
        obtain rfl : scan.recordInstruction scanner data instruction = next := by simpa using h
        have hoffset := Instruction.offset_of_decode hdecode
        have hinstruction := Instruction.signatureSize_le_size_of_decode hdecode hsize
        have := le_position_recordInstruction scan scanner data instruction
        omega
    · obtain rfl := Except.ok.inj h
      have hstop : scan.position + signatureSize ≤
            (scanner.next? data (scan.position + signatureSize)).getD data.size ∧
          (scanner.next? data (scan.position + signatureSize)).getD data.size ≤ data.size := by
        cases hnext : scanner.next? data (scan.position + signatureSize) with
        | none => exact ⟨hsize, Nat.le_refl _⟩
        | some stop =>
          have := Search.first_eq_some hnext
          simp only [Option.getD_some]
          omega
      simp only [position_record, Entity.stop, Entity.size, ByteArray.size_extract]
      omega

/-- Carries a scan to the end of the buffer. -/
def run (scan : Scan) (scanner : Scanner) (data : ByteArray) : Except Failure Script :=
  match _hnext : scanner.next? data scan.position with
  | none => .ok (scan.flush data data.size).script
  | some candidate =>
    match _hdispatch : (scan.flush data candidate).dispatch scanner data with
    | .error failure => .error failure
    | .ok next => next.run scanner data
  termination_by data.size - scan.position
  decreasing_by
    obtain ⟨hle, hlt, -⟩ := Search.first_eq_some _hnext
    have hflush : (scan.flush data candidate).position = max scan.position candidate :=
      position_flush scan (by omega)
    have := signatureSize_le_dispatch _hdispatch
    simp only [signatureSize] at this
    omega

end Scan

/-- The script of a buffer. -/
def Scanner.scan (scanner : Scanner) (data : ByteArray) : Except Failure Script :=
  (Scan.start data).run scanner data

end PacScript
