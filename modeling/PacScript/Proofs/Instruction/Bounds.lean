import PacScript.Proofs.Instruction.Access

/-!
# A walk stays in the buffer

A walk is followed along its accesses (`Track`), with every position that it stands at. Reading a
part goes on in the buffer or stays where it is (`Part.le_position_read`, `Part.position_read_le`),
so the positions ascend, and none is beyond the end of the buffer unless the walk has started there
(`Track.Stays`). No access is out of range: neither those of the parts, nor the last one to the
bytes of the instruction, whose end is not in front of its start because no step goes back.
-/

namespace PacScript.Arguments

open Bytes (At)

variable {data : ByteArray}

/-! ## A step -/

/-- Reading a part does not go back. -/
theorem Part.le_position_read (part : Part) (position : Nat) :
    position ≤ (part.read data position).position := by
  cases hread : part.read data position with
  | complete label value next =>
    obtain ⟨bytes, -, -, rfl⟩ := Part.read_eq_complete_iff.1 hread
    exact Nat.le_add_right _ _
  | stopped stop =>
    obtain ⟨-, rfl⟩ | ⟨-, width, second, -, rfl, -⟩ := Part.stops_of_read hread
    · exact Nat.le_refl _
    · exact le_tagPosition width position

/-- Reading a part goes on in the buffer, or stays where it is. -/
theorem Part.position_read_le (part : Part) (position : Nat) :
    (part.read data position).position ≤ max position data.size := by
  cases hread : part.read data position with
  | complete label value next =>
    obtain ⟨bytes, hat, -, rfl⟩ := Part.read_eq_complete_iff.1 hread
    show position + bytes.length ≤ _
    cases bytes with
    | nil => exact Nat.le_max_left _ _
    | cons byte rest => exact Nat.le_trans hat.cons_length_le (Nat.le_max_right _ _)
  | stopped stop =>
    show stop ≤ _
    obtain ⟨-, rfl⟩ | ⟨-, hyields⟩ := Part.stops_of_read hread
    · exact Nat.le_max_left _ _
    · exact Nat.le_trans hyields.le_size (Nat.le_max_right _ _)

/-- A walk that is followed along its accesses. -/
structure Track where
  /-- The walk. -/
  walk : Walk
  /-- The positions at which it has stood, the last one first. -/
  visited : List Nat

namespace Track

/-- The track of a walk that has found nothing yet. -/
def start (position : Nat) : Track :=
  ⟨.start position, [position]⟩

/-- Takes a reading into the track. -/
def take (track : Track) (name : String) (reading : Reading) : Track :=
  let next := track.walk.take name reading
  ⟨next, next.position :: track.visited⟩

/-- The walk of a track takes what the track takes. -/
theorem walk_take (track : Track) (name : String) (reading : Reading) :
    (track.take name reading).walk = track.walk.take name reading := rfl

/-- Follows a sequence. -/
def sequence? (access? : Nat → Option Reading) (name : String) (track : Track) (index : Nat) :
    Nat → Option Track
  | 0 => some track
  | remaining + 1 =>
    (access? track.walk.position).bind fun reading =>
      let next := track.take (elementName name index) reading
      if next.walk.cutOff then some next
      else next.sequence? access? name (index + 1) remaining

/-- Follows the argument of a declared parameter. -/
def argument? (data : ByteArray) (track : Track) (declaration : Declaration) : Option Track :=
  let name := declaration.name
  let position := track.walk.position
  match declaration.kind with
  | .fixed word => (accessWord? data word position).map (track.take name)
  | .tagged width => (accessTagged? data width position).map (track.take name)
  | .string => (accessString? data position).map (track.take name)
  | .counted form kind =>
    (accessCount? data form position).bind fun
      | none => some (track.take name (.stopped position))
      | some (count, next) =>
        (track.take name (.complete countLabel (.int count) next)).sequence?
          (kind.part.access? data) name 0 count.toNat
  | .continuous =>
    track.sequence? (accessWord? data .integer) name 0 ((data.size - position) / 4)
  | .entityId => (accessIdentifier? data "entity id" 4 position).map (track.take name)
  | .equipId => (accessIdentifier? data "equip id" 4 position).map (track.take name)
  | .keybindId => (accessIdentifier? data "keybind id" 0 position).map (track.take name)

/-- Follows the arguments of the declared parameters. -/
def arguments? (data : ByteArray) (track : Track) : List Declaration → Option Track
  | [] => some track
  | declaration :: rest =>
    (track.argument? data declaration).bind fun next =>
      if next.walk.cutOff then some next else next.arguments? data rest

/-- Where a track from `start` has stood: it has come to where its walk stands without a step back,
and no position is outside the buffer, unless the start is. -/
structure Stays (data : ByteArray) (start : Nat) (track : Track) : Prop where
  /-- It began at the start. -/
  first : track.visited.getLast? = some start
  /-- It is where the walk is. -/
  last : track.visited.head? = some track.walk.position
  /-- No position is behind a later one. -/
  ascends : track.visited.Pairwise (· ≥ ·)
  /-- Each position is in the buffer, or that of the start. -/
  bounded : ∀ position ∈ track.visited, position ≤ max start data.size

/-- A track stays where it is before the first step. -/
theorem stays_start (data : ByteArray) (position : Nat) :
    (start position).Stays data position where
  first := rfl
  last := rfl
  ascends := List.pairwise_singleton _ _
  bounded := List.forall_mem_singleton.2 (Nat.le_max_left _ _)

variable {start : Nat} {track : Track}

/-- Every position is one that the walk has not gone behind. -/
theorem Stays.le_position (h : track.Stays data start) :
    ∀ position ∈ track.visited, position ≤ track.walk.position := by
  intro position hmem
  obtain ⟨others, hvisited⟩ := List.head?_eq_some_iff.1 h.last
  have hascends := h.ascends
  rw [hvisited, List.pairwise_cons] at hascends
  rw [hvisited, List.mem_cons] at hmem
  rcases hmem with rfl | hmem
  · exact Nat.le_refl _
  · exact hascends.1 position hmem

/-- Every position is one that the walk has come to from the start. -/
theorem Stays.start_le (h : track.Stays data start) :
    ∀ position ∈ track.visited, start ≤ position := by
  intro position hmem
  obtain ⟨others, hvisited⟩ := List.getLast?_eq_some_iff.1 h.first
  have hascends := h.ascends
  rw [hvisited, List.pairwise_append] at hascends
  rw [hvisited, List.mem_append, List.mem_singleton] at hmem
  rcases hmem with hmem | rfl
  · exact hascends.2.2 position hmem start List.mem_cons_self
  · exact Nat.le_refl _

/-- A reading that goes on from where the walk stands keeps the track in the buffer. -/
theorem Stays.take (h : track.Stays data start) (name : String) {reading : Reading}
    (hle : track.walk.position ≤ reading.position)
    (hbound : reading.position ≤ max track.walk.position data.size) :
    (track.take name reading).Stays data start := by
  have hnext : (track.take name reading).visited = reading.position :: track.visited :=
    congrArg (· :: track.visited) (Walk.position_take track.walk name reading)
  have hposition : track.walk.position ≤ max start data.size :=
    h.bounded _ (List.mem_of_mem_head? h.last)
  constructor
  · rw [hnext, List.getLast?_cons, h.first]
    rfl
  · rfl
  · rw [hnext, List.pairwise_cons]
    exact ⟨fun position hmem => Nat.le_trans (h.le_position position hmem) hle, h.ascends⟩
  · rw [hnext, List.forall_mem_cons]
    exact ⟨by omega, h.bounded⟩

/-- The accesses are all in range, and lead to the walk along a track that stays in the buffer. -/
def Leads (data : ByteArray) (start : Nat) (result : Option Track) (walk : Walk) : Prop :=
  ∃ next : Track, result = some next ∧ next.walk = walk ∧ next.Stays data start

/-- The accesses of a part lead to the walk that takes it. -/
theorem leads_take (h : track.Stays data start) (name : String) (part : Part) :
    Leads data start ((part.access? data track.walk.position).map (track.take name))
      (track.walk.take name (part.read data track.walk.position)) := by
  rw [Part.access?_eq, Option.map_some]
  exact ⟨_, rfl, rfl, h.take name (part.le_position_read _) (part.position_read_le _)⟩

/-! ## A run -/

/-- The accesses of a sequence lead to the walk over it. -/
theorem leads_sequence (h : track.Stays data start) (name : String) (part : Part)
    (index remaining : Nat) :
    Leads data start (track.sequence? (part.access? data) name index remaining)
      (track.walk.sequence (part.read data) name index remaining) := by
  -- Each element starts where the one before it ended, so the induction is for every track.
  induction remaining generalizing track index with
  | zero => exact ⟨track, rfl, rfl, h⟩
  | succ remaining ih =>
    have hnext := h.take (elementName name index) (part.le_position_read track.walk.position)
      (part.position_read_le track.walk.position)
    simp only [sequence?, Walk.sequence, Part.access?_eq, Option.bind_some]
    rw [← walk_take]
    generalize track.take (elementName name index) (part.read data track.walk.position) = next
      at hnext ⊢
    split
    · exact ⟨next, rfl, rfl, hnext⟩
    · exact ih hnext (index + 1)

/-- The accesses of an argument lead to the walk over it. -/
theorem leads_argument (h : track.Stays data start) (declaration : Declaration) :
    Leads data start (track.argument? data declaration)
      (track.walk.argument data declaration) := by
  obtain ⟨kind, name⟩ := declaration
  cases kind with
  | fixed word => exact leads_take h name (.fixed word)
  | tagged width => exact leads_take h name (.tagged width)
  | string => exact leads_take h name .string
  | entityId => exact leads_take h name (.identifier "entity id" 4)
  | equipId => exact leads_take h name (.identifier "equip id" 4)
  | keybindId => exact leads_take h name (.identifier "keybind id" 0)
  | continuous => exact leads_sequence h name (.fixed .integer) 0 _
  | counted form kind =>
    -- The count is a part of its own, in front of the elements.
    have hle : _ ≤ ((Part.count form).read data track.walk.position).position :=
      Part.le_position_read _ _
    have hbound : ((Part.count form).read data track.walk.position).position ≤ _ :=
      Part.position_read_le _ _
    unfold argument? Walk.argument
    dsimp only
    rw [accessCount?_eq, Option.bind_some, element_eq_read]
    simp only [Part.read] at hle hbound
    cases hcount : count? data form track.walk.position with
    | none =>
      rw [hcount] at hle hbound
      exact ⟨_, rfl, rfl, h.take name hle hbound⟩
    | some found =>
      rw [hcount] at hle hbound
      exact leads_sequence (h.take name hle hbound) name kind.part 0 found.1.toNat

/-- The accesses of the arguments lead to the walk over them. -/
theorem leads_arguments (h : track.Stays data start) (declarations : List Declaration) :
    Leads data start (track.arguments? data declarations)
      (track.walk.arguments data declarations) := by
  induction declarations generalizing track with
  | nil => exact ⟨track, rfl, rfl, h⟩
  | cons declaration rest ih =>
    obtain ⟨next, hargument, hwalk, hnext⟩ := leads_argument h declaration
    simp only [arguments?, Walk.arguments, hargument, Option.bind_some, ← hwalk]
    split
    · exact ⟨next, rfl, rfl, hnext⟩
    · exact ih hnext

end Track

end PacScript.Arguments

namespace PacScript

open Arguments (Track)

/-- The track over the arguments of an occurrence of a template's opcode. -/
def Template.track? (template : Template) (data : ByteArray) (offset : Nat) : Option Track :=
  (Track.start (offset + signatureSize)).arguments? data template.parameters

/-- The accesses of decoding an occurrence: those of its arguments, and when no key repeats, to its
bytes. -/
def Instruction.access? (data : ByteArray) (offset : Nat) (template : Template) :
    Option (Except Failure Instruction) :=
  (template.track? data offset).bind fun track =>
    match ParameterSet.ofList track.walk.parameters.toList offset with
    | .error failure => some (.error failure)
    | .ok parameters =>
      (Bytes.range? data offset (min track.walk.position data.size)).map fun raw =>
        .ok { offset, raw, template, parameters, cutOff := track.walk.cutOff }

/-- The positions that a walk over the arguments of an occurrence stands at: it starts behind the
signature and never goes back, and with the signature in the buffer it stays in the buffer. Without
it there is nowhere to go. -/
structure Template.StaysInBuffer (template : Template) (data : ByteArray) (offset : Nat)
    (positions : List Nat) : Prop where
  /-- The first position is behind the signature. -/
  first : positions.head? = some (offset + signatureSize)
  /-- The last one is where the walk ends. -/
  last : positions.getLast? = some (template.walk data offset).position
  /-- The positions never decrease. -/
  ascends : positions.Pairwise (· ≤ ·)
  /-- With a signature in the buffer they are in the buffer. -/
  le_size : offset + signatureSize ≤ data.size → ∀ position ∈ positions, position ≤ data.size
  /-- Without it they are the first one. -/
  eq_first : data.size < offset + signatureSize →
    ∀ position ∈ positions, position = offset + signatureSize

namespace Instruction

/-- The track over the arguments exists and is that of the walk. -/
theorem exists_track (data : ByteArray) (offset : Nat) (template : Template) :
    ∃ track, template.track? data offset = some track ∧ track.walk = template.walk data offset ∧
      track.Stays data (offset + signatureSize) :=
  Track.leads_arguments (Track.stays_start data _) template.parameters

/-- Decoding makes no access out of range at an offset of the buffer. -/
theorem access?_eq {data : ByteArray} {offset : Nat} (hoffset : offset ≤ data.size)
    (template : Template) : access? data offset template = some (decode data offset template) := by
  obtain ⟨track, htrack, hwalk, hstays⟩ := exists_track data offset template
  -- The bytes end where the walk does, which is not in front of the offset.
  have hposition : offset ≤ track.walk.position := by
    have hfirst := hstays.le_position _ (List.mem_of_getLast? hstays.first)
    omega
  unfold access? decode
  rw [htrack, Option.bind_some, hwalk]
  dsimp only
  cases ParameterSet.ofList (template.walk data offset).parameters.toList offset with
  | error failure => rfl
  | ok parameters =>
    rw [hwalk] at hposition
    dsimp only
    rw [Bytes.range?_eq (Nat.le_min.2 ⟨hposition, hoffset⟩) (Nat.min_le_right _ _)]
    rfl

/-- Decoding at an offset of the buffer makes no access out of range, and its walk stays in the
buffer if the signature is there. An instruction has the bytes from its offset up to an end in the
buffer, the signature among them if it is there. -/
theorem decode_stays_in_buffer {data : ByteArray} {offset : Nat} (hoffset : offset ≤ data.size)
    (template : Template) :
    access? data offset template = some (decode data offset template) ∧
      (∃ track, template.track? data offset = some track ∧
        template.StaysInBuffer data offset track.visited.reverse) ∧
      ∀ instruction, decode data offset template = .ok instruction →
        ∃ stop, instruction.raw = data.extract offset stop ∧ offset ≤ stop ∧ stop ≤ data.size ∧
          (offset + signatureSize ≤ data.size → offset + signatureSize ≤ stop) := by
  obtain ⟨track, htrack, hwalk, hstays⟩ := exists_track data offset template
  have hfirst : offset + signatureSize ≤ track.walk.position :=
    hstays.le_position _ (List.mem_of_getLast? hstays.first)
  refine ⟨access?_eq hoffset template, ⟨track, htrack, ?_⟩, ?_⟩
  · constructor
    · rw [List.head?_reverse, hstays.first]
    · rw [List.getLast?_reverse, hstays.last, hwalk]
    · exact List.pairwise_reverse.2 hstays.ascends
    · intro hsize position hmem
      have hbound := hstays.bounded position (List.mem_reverse.1 hmem)
      omega
    · intro hsize position hmem
      have hbound := hstays.bounded position (List.mem_reverse.1 hmem)
      have hstart := hstays.start_le position (List.mem_reverse.1 hmem)
      omega
  · intro instruction hdecode
    obtain ⟨-, -, -, hraw, -⟩ := eq_of_decode hdecode
    rw [← hwalk] at hraw
    exact ⟨_, hraw, by omega, Nat.min_le_right _ _, by omega⟩

/-- The last two bytes behind a caption are no signature, and decoding there finds nothing to
access. -/
theorem decode_stays_in_buffer_caption :
    22 ≤ Template.captionBytes.size ∧
      access? Template.captionBytes 22 .caption =
        some (decode Template.captionBytes 22 .caption) ∧
      ∃ track, Template.caption.track? Template.captionBytes 22 = some track ∧
        Template.caption.StaysInBuffer Template.captionBytes 22 track.visited.reverse := by
  have hoffset : 22 ≤ Template.captionBytes.size := by decide
  obtain ⟨haccess, htrack, -⟩ := decode_stays_in_buffer hoffset .caption
  exact ⟨hoffset, haccess, htrack⟩

end Instruction

end PacScript
