import PacScript.Proofs.Scan.Course

/-!
# A scan cuts the buffer into its entities

`Tiles data start entities stop` says that the entities follow one another without a hole from
`start` to `stop`, that none is empty, and that each has the bytes of its range. Everything that a
round of a scan records tiles the bytes that the round goes over, so the entities of a script tile
the whole buffer (`Course.tiles`). What this means for the script is put together in
`Script.Partitions`: its entities are the buffer, cut into consecutive pieces.

A scan comes to its end since every round takes four bytes at least. `Scan.rounds` counts the rounds
down, and `Scan.rounds_eq_run` gives a number that is always enough.
-/

namespace PacScript

namespace Entity

/-- The entities are the bytes from `start` up to `stop`, cut into consecutive pieces. -/
inductive Tiles (data : ByteArray) : Nat → List Entity → Nat → Prop where
  /-- No entities tile no bytes. -/
  | nil {position : Nat} : Tiles data position [] position
  /-- An entity, and those that tile the bytes behind it. -/
  | cons {entity : Entity} {rest : List Entity} {start stop : Nat} (hoffset : entity.offset = start)
      (hsize : 0 < entity.size) (hstop : entity.stop ≤ data.size)
      (hraw : entity.raw = data.extract entity.offset entity.stop)
      (hrest : Tiles data entity.stop rest stop) : Tiles data start (entity :: rest) stop

namespace Tiles

variable {data : ByteArray} {start middle stop : Nat} {entities front back : List Entity}
  {entity : Entity}

/-- Tilings of adjacent ranges make a tiling of both. -/
theorem append (hfront : Tiles data start front middle) (hback : Tiles data middle back stop) :
    Tiles data start (front ++ back) stop := by
  induction hfront with
  | nil => exact hback
  | cons hoffset hsize hstop hraw hrest ih =>
    exact .cons hoffset hsize hstop hraw (ih hback)

/-- A tiling can be taken apart between any two of its entities. -/
theorem exists_middle (h : Tiles data start (front ++ back) stop) :
    ∃ middle, Tiles data start front middle ∧ Tiles data middle back stop := by
  induction front generalizing start with
  | nil => exact ⟨start, .nil, h⟩
  | cons entity front ih =>
    cases h with
    | cons hoffset hsize hstop hraw hrest =>
      obtain ⟨middle, hfront, hback⟩ := ih hrest
      exact ⟨middle, .cons hoffset hsize hstop hraw hfront, hback⟩

/-- A tiling does not go back. -/
theorem le (h : Tiles data start entities stop) : start ≤ stop := by
  induction h with
  | nil => exact Nat.le_refl _
  | @cons entity rest start stop hoffset hsize hstop hraw hrest ih =>
    have hentity : entity.stop = start + entity.size := by rw [Entity.stop, hoffset]
    omega

/-- A tiling that starts in the buffer ends in it. -/
theorem stop_le (h : Tiles data start entities stop) (hstart : start ≤ data.size) :
    stop ≤ data.size := by
  induction h with
  | nil => exact hstart
  | cons hoffset hsize hstop hraw hrest ih => exact ih hstop

/-- The last entity of a tiling ends where the tiling does. -/
theorem stop_getLast? (h : Tiles data start entities stop)
    (hlast : entities.getLast? = some entity) : entity.stop = stop := by
  induction h with
  | nil => simp at hlast
  | @cons head rest start stop hoffset hsize hstop hraw hrest ih =>
    cases hrest with
    | nil =>
      rw [List.getLast?_singleton] at hlast
      rw [Option.some.inj hlast]
    | cons => exact ih (by rwa [List.getLast?_cons_cons] at hlast)

/-- The first entity of a tiling starts where the tiling does. -/
theorem offset_head? (h : Tiles data start entities stop) (hhead : entities.head? = some entity) :
    entity.offset = start := by
  cases h with
  | nil => simp at hhead
  | cons hoffset =>
    rw [List.head?_cons] at hhead
    rw [← Option.some.inj hhead, hoffset]

/-- Each entity of a tiling starts where the one before it ends. -/
theorem offset_eq_stop (h : Tiles data start entities stop) {i : Nat} {next : Entity}
    (hentity : entities[i]? = some entity) (hnext : entities[i + 1]? = some next) :
    next.offset = entity.stop := by
  induction h generalizing i with
  | nil => simp at hentity
  | @cons head rest start stop hoffset hsize hstop hraw hrest ih =>
    rw [List.getElem?_cons_succ] at hnext
    cases i with
    | zero =>
      rw [List.getElem?_cons_zero] at hentity
      rw [← Option.some.inj hentity]
      exact offset_head? hrest (by rwa [List.head?_eq_getElem?])
    | succ i => exact ih (by rwa [List.getElem?_cons_succ] at hentity) hnext

/-- What a tiling says of each of its entities. -/
theorem of_mem (h : Tiles data start entities stop) (hmem : entity ∈ entities) :
    start ≤ entity.offset ∧ 0 < entity.size ∧ entity.stop ≤ data.size ∧
      entity.raw = data.extract entity.offset entity.stop := by
  induction h with
  | nil => simp at hmem
  | @cons head rest start stop hoffset hsize hstop hraw hrest ih =>
    rw [List.mem_cons] at hmem
    rcases hmem with heq | hmem
    · rw [heq]
      exact ⟨Nat.le_of_eq hoffset.symm, hsize, hstop, hraw⟩
    · obtain ⟨hle, hrest⟩ := ih hmem
      have hhead : head.stop = start + head.size := by rw [Entity.stop, hoffset]
      exact ⟨by omega, hrest⟩

/-- Every position that is tiled is in an entity. -/
theorem exists_contains (h : Tiles data start entities stop) {position : Nat}
    (hle : start ≤ position) (hlt : position < stop) :
    ∃ entity ∈ entities, entity.contains position = true := by
  induction h with
  | nil => omega
  | @cons head rest start stop hoffset hsize hstop hraw hrest ih =>
    rcases Nat.lt_or_ge position head.stop with hinside | hbehind
    · refine ⟨head, List.mem_cons_self, ?_⟩
      rw [Entity.contains, hoffset]
      simp [hle, hinside]
    · obtain ⟨entity, hmem, hcontains⟩ := ih hbehind hlt
      exact ⟨entity, List.mem_cons_of_mem _ hmem, hcontains⟩

/-- The offsets of a tiling ascend. -/
theorem pairwise_offset (h : Tiles data start entities stop) :
    (entities.map Entity.offset).Pairwise (· < ·) := by
  induction h with
  | nil => exact List.Pairwise.nil
  | @cons head rest start stop hoffset hsize hstop hraw hrest ih =>
    rw [List.map_cons, List.pairwise_cons]
    refine ⟨?_, ih⟩
    intro offset hmem
    obtain ⟨entity, hentity, rfl⟩ := List.mem_map.1 hmem
    have hle := (of_mem hrest hentity).1
    have hhead : head.stop = head.offset + head.size := rfl
    omega

/-- A tiling is empty when it has no bytes to tile. -/
theorem eq_nil_iff (h : Tiles data start entities stop) : entities = [] ↔ start = stop := by
  cases h with
  | nil => simp
  | @cons head rest _ _ hoffset hsize hstop hraw hrest =>
    have hle := le hrest
    have hhead : head.stop = start + head.size := by rw [Entity.stop, hoffset]
    simp only [reduceCtorEq, false_iff]
    omega

/-- The check of a script accepts a tiling. -/
theorem tiles_eq_true (h : Tiles data start entities stop) :
    Script.tiles start stop entities = true := by
  induction h with
  | nil => simp [Script.tiles]
  | cons hoffset hsize hstop hraw hrest ih =>
    have hne := Nat.pos_iff_ne_zero.1 hsize
    simp [Script.tiles, hoffset, hne, ih]

end Tiles

/-- The bytes of entities, one after another. -/
def bytes (entities : List Entity) : ByteArray :=
  entities.foldr (fun entity rest => entity.raw ++ rest) .empty

/-- The bytes of a tiling are those of the buffer. -/
theorem Tiles.bytes_eq {data : ByteArray} {start stop : Nat} {entities : List Entity}
    (h : Tiles data start entities stop) (hstart : start ≤ data.size) :
    bytes entities = data.extract start stop := by
  induction h with
  | nil => rw [ByteArray.extract_same]; rfl
  | @cons head rest start stop hoffset hsize hstop hraw hrest ih =>
    have hle := le hrest
    have hhead : head.stop = start + head.size := by rw [Entity.stop, hoffset]
    calc bytes (head :: rest)
        = head.raw ++ bytes rest := rfl
      _ = data.extract start head.stop ++ data.extract head.stop stop := by
          rw [hraw, hoffset, ih hstop]
      _ = data.extract start stop := by
          rw [ByteArray.extract_append_extract]
          congr 1 <;> omega

end Entity

open Entity (Tiles between gap endOf)

/-! ## What a round records -/

/-- An entity that has the bytes of a range ends where the range does. -/
theorem Entity.stop_extract {data : ByteArray} {start stop : Nat} (hle : start ≤ stop)
    (hstop : stop ≤ data.size) (content : Content) :
    (⟨start, data.extract start stop, content⟩ : Entity).stop = stop := by
  show start + (data.extract start stop).size = stop
  rw [ByteArray.size_extract, Nat.min_eq_left hstop, Nat.add_sub_cancel' hle]

/-- An entity that has the bytes of a range tiles it. -/
theorem Entity.tiles_extract {data : ByteArray} {start stop : Nat} (hlt : start < stop)
    (hstop : stop ≤ data.size) (content : Content) :
    Tiles data start [⟨start, data.extract start stop, content⟩] stop := by
  have hend := stop_extract (Nat.le_of_lt hlt) hstop content
  have hsingle : Tiles data start [⟨start, data.extract start stop, content⟩]
      (⟨start, data.extract start stop, content⟩ : Entity).stop := by
    refine .cons rfl ?_ ?_ ?_ .nil
    · show 0 < (data.extract start stop).size
      rw [ByteArray.size_extract]
      omega
    · rw [hend]
      exact hstop
    · rw [hend]
  rw [hend] at hsingle
  exact hsingle

/-- The bytes between two positions of the buffer are tiled by at most one entity. -/
theorem Entity.tiles_between {data : ByteArray} {start stop : Nat} (hle : start ≤ stop)
    (hstop : stop ≤ data.size) (content : ByteArray → Content) :
    Tiles data start (between data start stop content) stop := by
  unfold between
  split
  · rename_i hlt
    exact tiles_extract hlt hstop _
  · rename_i hge
    obtain rfl := Nat.le_antisymm hle (Nat.le_of_not_lt hge)
    exact .nil

/-- An instruction has the bytes of its range, at least those of its signature. -/
theorem Instruction.tiles_of_decode {data : ByteArray} {offset : Nat} {template : Template}
    {instruction : Instruction} (h : decode data offset template = .ok instruction)
    (hsize : offset + 4 ≤ data.size) :
    Tiles data offset [instruction.toEntity] instruction.toEntity.stop := by
  obtain ⟨hoffset, -, -, hraw, -⟩ := eq_of_decode h
  have hlength : 4 ≤ instruction.size := signatureSize_le_size_of_decode h hsize
  rw [Instruction.size, hraw, ByteArray.size_extract] at hlength
  -- The walk may only be cut by the end of the buffer, which the bytes do not go beyond.
  have hlt : offset < min (template.walk data offset).position data.size := by omega
  have hstop : min (template.walk data offset).position data.size ≤ data.size :=
    Nat.min_le_right _ _
  have htiles := Entity.tiles_extract hlt hstop instruction.toEntity.content
  have hentity : (⟨offset, data.extract offset
      (min (template.walk data offset).position data.size), instruction.toEntity.content⟩ :
        Entity) = instruction.toEntity := by
    rw [← hraw, ← hoffset]
    rfl
  rw [hentity] at htiles
  rw [htiles.stop_getLast? List.getLast?_singleton]
  exact htiles

/-- The padding behind an instruction tiles the bytes up to a boundary, if there is any. -/
theorem Template.tiles_padding (template : Template) {data : ByteArray} {start : Nat}
    (hstart : start ≤ data.size) :
    ∃ stop, Tiles data start (template.padding data start) stop := by
  unfold padding
  split
  · have halign := Arguments.le_alignUp start
    exact ⟨_, Entity.tiles_between (by omega) (Nat.min_le_right _ _) _⟩
  · exact ⟨start, .nil⟩

/-- A jump table tiles the bytes up to the next candidate. -/
theorem Scanner.tiles_jumpTable (scanner : Scanner) (data : ByteArray) (signature : UInt32)
    (start : Nat) : ∃ stop, Tiles data start (scanner.jumpTable data signature start) stop := by
  unfold jumpTable
  split
  · split
    · rename_i stop hnext
      obtain ⟨hle, ⟨found, hcandidate⟩, -⟩ := next?_eq_some_iff.1 hnext
      have hsize := hcandidate.size
      exact ⟨stop, Entity.tiles_between hle (by omega) _⟩
    · exact ⟨start, .nil⟩
  · exact ⟨start, .nil⟩

/-- An instruction and what belongs to it tile the bytes that they take. -/
theorem Scanner.tiles_belongings (scanner : Scanner) {data : ByteArray} {offset : Nat}
    {template : Template} {instruction : Instruction}
    (h : Instruction.decode data offset template = .ok instruction)
    (hsize : offset + 4 ≤ data.size) :
    Tiles data offset (instruction.toEntity :: scanner.belongings data instruction)
      (endOf (instruction.toEntity :: scanner.belongings data instruction).getLast?) := by
  -- The padding starts behind the instruction, and the jump table behind the last of these.
  have hinstruction := Instruction.tiles_of_decode h hsize
  have hstop := hinstruction.stop_le (by omega)
  obtain ⟨padded, hpadding⟩ := instruction.template.tiles_padding hstop
  have hfront := hinstruction.append hpadding
  rw [List.singleton_append] at hfront
  have hpadded := hfront.stop_getLast? (List.getLast?_eq_some_getLast (List.cons_ne_nil _ _))
  obtain ⟨stop, htable⟩ := scanner.tiles_jumpTable data instruction.signature padded
  have hall : Tiles data offset
      (instruction.toEntity :: scanner.belongings data instruction) stop := by
    rw [← hpadded] at htable hfront
    exact hfront.append htable
  rw [List.getLast?_eq_some_getLast (List.cons_ne_nil _ _)]
  have hlast := hall.stop_getLast? (List.getLast?_eq_some_getLast (List.cons_ne_nil _ _))
  show Tiles data offset _ (Entity.stop _)
  rw [hlast]
  exact hall

/-- An unknown instruction ends at the next candidate behind its signature, or at the end of the
buffer. -/
theorem Scanner.stop_unknownAt {scanner : Scanner} {data : ByteArray} {candidate : Nat}
    (hsize : candidate + 4 ≤ data.size) (signature : UInt32) :
    (scanner.unknownAt data candidate signature).stop =
        (scanner.next? data (candidate + 4)).getD data.size ∧
      candidate + 4 ≤ (scanner.unknownAt data candidate signature).stop ∧
      (scanner.unknownAt data candidate signature).stop ≤ data.size := by
  have hnext : candidate + 4 ≤ (scanner.next? data (candidate + 4)).getD data.size ∧
      (scanner.next? data (candidate + 4)).getD data.size ≤ data.size := by
    cases hnext : scanner.next? data (candidate + 4) with
    | none => exact ⟨hsize, Nat.le_refl _⟩
    | some stop =>
      obtain ⟨hle, ⟨found, hcandidate⟩, -⟩ := next?_eq_some_iff.1 hnext
      have hfound := hcandidate.size
      rw [Option.getD_some]
      omega
  have hstop : (scanner.unknownAt data candidate signature).stop =
      (scanner.next? data (candidate + 4)).getD data.size :=
    Entity.stop_extract (Nat.le_of_add_right_le hnext.1) hnext.2 (.unknown signature)
  rw [hstop]
  exact ⟨rfl, hnext⟩

/-- An unknown instruction has the bytes of its range. -/
theorem Scanner.tiles_unknownAt {scanner : Scanner} {data : ByteArray} {candidate : Nat}
    (hsize : candidate + 4 ≤ data.size) (signature : UInt32) :
    Tiles data candidate [scanner.unknownAt data candidate signature]
      (scanner.unknownAt data candidate signature).stop := by
  obtain ⟨hstop, hle, hend⟩ := scanner.stop_unknownAt hsize signature
  rw [hstop] at hle hend ⊢
  exact Entity.tiles_extract (by omega) hend (.unknown signature)

/-! ## What a scan records -/

/-- The entities of a scan tile the bytes that it goes over, and these are all that are left when
the scan comes to its end. -/
theorem Course.exists_tiles {scanner : Scanner} {data : ByteArray} {previous : Option Entity}
    {entities : List Entity} {outcome : Option Failure}
    (h : Course scanner data previous entities outcome) (hprevious : endOf previous ≤ data.size) :
    ∃ stop, Tiles data (endOf previous) entities stop ∧ (outcome = none → stop = data.size) := by
  -- A round tiles the bytes up to the candidate by the gap, and goes on where its last entity ends.
  induction h with
  | finished hnext =>
    exact ⟨data.size, Entity.tiles_between hprevious (Nat.le_refl _) _, fun _ => rfl⟩
  | @failed previous candidate signature template failure hnext hsignature htemplate hdecode =>
    have hle := (Scanner.next?_eq_some_iff.1 hnext).1
    have hsize := Bytes.size_of_signatureAt hsignature
    exact ⟨candidate, Entity.tiles_between hle (by omega) _, by simp⟩
  | @known previous candidate signature template instruction rest outcome hnext hsignature
      htemplate hdecode hrest ih =>
    have hle := (Scanner.next?_eq_some_iff.1 hnext).1
    have hsize := Bytes.size_of_signatureAt hsignature
    have hcandidate : candidate ≤ data.size := by omega
    have hgap := Entity.tiles_between hle hcandidate
      (Content.ofGap · (previous.bind Entity.preceding?))
    have hinstruction := scanner.tiles_belongings hdecode hsize
    obtain ⟨stop, htail, hend⟩ := ih (hinstruction.stop_le hcandidate)
    exact ⟨stop, (hgap.append hinstruction).append htail, hend⟩
  | @unknown previous candidate signature rest outcome hnext hsignature htemplate hrest ih =>
    have hle := (Scanner.next?_eq_some_iff.1 hnext).1
    have hsize := Bytes.size_of_signatureAt hsignature
    have hcandidate : candidate ≤ data.size := by omega
    have hgap := Entity.tiles_between hle hcandidate
      (Content.ofGap · (previous.bind Entity.preceding?))
    have hunknown := scanner.tiles_unknownAt hsize signature
    obtain ⟨stop, htail, hend⟩ := ih (hunknown.stop_le hcandidate)
    exact ⟨stop, (hgap.append hunknown).append htail, hend⟩

/-- The entities of a scan that comes to its end tile the buffer. -/
theorem Course.tiles {scanner : Scanner} {data : ByteArray} {entities : List Entity}
    (h : Course scanner data none entities none) : Tiles data 0 entities data.size := by
  obtain ⟨stop, htiles, hend⟩ := h.exists_tiles (Nat.zero_le _)
  obtain rfl := hend rfl
  exact htiles

/-! ## The script of a scan -/

/-- The entities of the script of a scan tile the buffer. -/
theorem Scanner.tiles_of_scan {scanner : Scanner} {data : ByteArray} {script : Script}
    (h : scanner.scan data = .ok script) : Tiles data 0 script.entities.toList data.size := by
  obtain ⟨entities, hcourse, rfl⟩ := scan_eq_ok_iff.1 h
  rw [Script.toList_ofSize_pushAll]
  exact hcourse.tiles

/-- The entity starts where the script ends, and is in the buffer: what has to hold of an entity
that is appended. -/
structure Script.Continues (script : Script) (entity : Entity) : Prop where
  /-- The entity leaves no hole and covers nothing twice. -/
  offset_eq : entity.offset = script.covered
  /-- The entity does not go beyond the buffer. -/
  stop_le : entity.stop ≤ script.size

/-- A script covers what its last entity ends with. -/
theorem Script.covered_eq_endOf (script : Script) :
    script.covered = endOf script.entities.back? := rfl

/-- Each entity of a tiling continues the script of those before it. -/
theorem Entity.Tiles.continues {data : ByteArray} {stop : Nat} {front rest : List Entity}
    {entity : Entity} (h : Tiles data 0 (front ++ entity :: rest) stop) :
    ((Script.ofSize data.size).pushAll front).Continues entity := by
  -- The entities in front of this one end where it starts.
  obtain ⟨middle, hfront, hback⟩ := h.exists_middle
  obtain ⟨-, -, hstop, -⟩ := hback.of_mem List.mem_cons_self
  have hoffset := hback.offset_head? List.head?_cons
  refine ⟨?_, ?_⟩
  · rw [hoffset, Script.covered_eq_endOf]
    cases front with
    | nil =>
      cases hfront with
      | nil => rfl
    | cons head front =>
      have hlast : (head :: front).getLast? = some ((head :: front).getLast (by simp)) :=
        List.getLast?_eq_some_getLast _
      rw [Script.back?_pushAll_cons, hlast]
      exact (hfront.stop_getLast? hlast).symm
  · rw [Script.size_pushAll]
    exact hstop

/-- The entities of a script are the buffer, cut into consecutive pieces. -/
structure Script.Partitions (script : Script) (data : ByteArray) : Prop where
  /-- The script has the size of the buffer. -/
  size_eq : script.size = data.size
  /-- No entity is empty. -/
  nonempty : ∀ entity ∈ script.entities, 0 < entity.size
  /-- The offsets of the script are those of its entities. -/
  offsets_eq : script.offsets = script.entities.toList.map Entity.offset
  /-- The offsets ascend. -/
  ascending : script.offsets.Pairwise (· < ·)
  /-- The first entity starts at the start of the buffer. -/
  first : ∀ entity, script.entities[0]? = some entity → entity.offset = 0
  /-- Each entity starts where the one before it ends. -/
  consecutive : ∀ i entity next, script.entities[i]? = some entity →
    script.entities[i + 1]? = some next → next.offset = entity.stop
  /-- The last entity ends at the end of the buffer. -/
  last : ∀ entity, script.entities.back? = some entity → entity.stop = data.size
  /-- There is no entity only in an empty buffer. -/
  isEmpty_iff : script.isEmpty = true ↔ data = .empty
  /-- Each entity has the bytes of its range. -/
  raw_eq : ∀ entity ∈ script.entities, entity.raw = data.extract entity.offset entity.stop
  /-- The bytes of the entities are those of the buffer. -/
  bytes_eq : Entity.bytes script.entities.toList = data
  /-- The check of the script succeeds. -/
  contiguous : script.isContiguous = true

/-- A script whose entities tile the buffer partitions it. -/
theorem Entity.Tiles.partitions {data : ByteArray} {entities : List Entity}
    (h : Tiles data 0 entities data.size) :
    ((Script.ofSize data.size).pushAll entities).Partitions data := by
  have hentities : ((Script.ofSize data.size).pushAll entities).entities.toList = entities := by
    rw [Script.entities_pushAll]
    rfl
  have hsize : ((Script.ofSize data.size).pushAll entities).size = data.size := by
    rw [Script.size_pushAll]
    rfl
  -- The counters and indices of the script do not matter here.
  generalize (Script.ofSize data.size).pushAll entities = script at hentities hsize
  subst hentities
  have hmem : ∀ entity ∈ script.entities, 0 < entity.size ∧ entity.stop ≤ data.size ∧
      entity.raw = data.extract entity.offset entity.stop := by
    intro entity hentity
    exact (h.of_mem (Array.mem_toList_iff.2 hentity)).2
  constructor
  · exact hsize
  · intro entity hentity
    exact (hmem entity hentity).1
  · rfl
  · exact h.pairwise_offset
  · intro entity hfirst
    apply h.offset_head?
    rw [List.head?_eq_getElem?, Array.getElem?_toList]
    exact hfirst
  · intro i entity next hentity hnext
    rw [← Array.getElem?_toList] at hentity hnext
    exact h.offset_eq_stop hentity hnext
  · intro entity hlast
    apply h.stop_getLast?
    rw [Array.getLast?_toList]
    exact hlast
  · rw [Script.isEmpty, ← Array.isEmpty_toList, List.isEmpty_iff, h.eq_nil_iff, eq_comm,
      ByteArray.size_eq_zero_iff]
  · intro entity hentity
    exact (hmem entity hentity).2.2
  · rw [h.bytes_eq (Nat.zero_le _), ByteArray.extract_zero_size]
  · rw [Script.isContiguous, hsize]
    exact h.tiles_eq_true

/-! ## The rounds of a scan -/

/-- The result of a scan that comes to its end within a number of rounds. -/
def Scan.rounds (scanner : Scanner) (data : ByteArray) :
    Nat → Scan → Option (Except Failure Script)
  | 0, _ => none
  | count + 1, scan =>
    match scanner.next? data scan.position with
    | none => some (.ok (scan.flush data data.size).script)
    | some candidate =>
      match (scan.flush data candidate).dispatch scanner data with
      | .error failure => some (.error failure)
      | .ok next => rounds scanner data count next

/-- A scan comes to its end within one round for every four bytes that are left, and one more. -/
theorem Scan.rounds_eq_run {scanner : Scanner} {data : ByteArray} {count : Nat} {scan : Scan}
    (hcount : data.size - scan.position < 4 * count) :
    rounds scanner data count scan = some (scan.run scanner data) := by
  induction count generalizing scan with
  | zero => omega
  | succ count ih =>
    unfold rounds
    split
    · rename_i hnext
      rw [run_of_next?_eq_none hnext]
    · rename_i candidate hnext
      obtain ⟨hle, ⟨found, hcandidate⟩, -⟩ := Scanner.next?_eq_some_iff.1 hnext
      have hsize := hcandidate.size
      split
      · rename_i failure hdispatch
        rw [run_of_dispatch_eq_error hnext hdispatch]
      · rename_i next hdispatch
        rw [run_of_dispatch_eq_ok hnext hdispatch]
        -- The round has gone over the four bytes of a signature at least.
        have hprogress := signatureSize_le_dispatch hdispatch
        rw [position_flush_candidate hnext, signatureSize] at hprogress
        exact ih (by omega)

/-- A scan comes to its end within one round for every four bytes of the buffer, and one more. Each
entity that it records continues the script of those before it, also when it fails in the end; and
when it does not fail, the entities of the script are the buffer, cut into consecutive pieces. -/
theorem Scanner.scan_partitions (scanner : Scanner) (data : ByteArray) :
    Scan.rounds scanner data (data.size / 4 + 1) (.start data) = some (scanner.scan data) ∧
      (∃ entities outcome, Course scanner data none entities outcome ∧
        scanner.scan data = Scan.result (.ofSize data.size) entities outcome ∧
        ∀ front entity rest, entities = front ++ entity :: rest →
          ((Script.ofSize data.size).pushAll front).Continues entity) ∧
      ∀ script, scanner.scan data = .ok script → script.Partitions data := by
  refine ⟨?_, ?_, ?_⟩
  · have hposition : (Scan.start data).position = 0 := rfl
    exact Scan.rounds_eq_run (by omega)
  · obtain ⟨entities, outcome, hcourse⟩ := Scan.exists_course scanner data (.ofSize data.size)
    refine ⟨entities, outcome, hcourse, Scan.run_of_course hcourse rfl, ?_⟩
    intro front entity rest hsplit
    obtain ⟨stop, htiles, -⟩ := hcourse.exists_tiles (Nat.zero_le _)
    rw [hsplit] at htiles
    exact htiles.continues
  · intro script hscan
    obtain ⟨entities, hcourse, rfl⟩ := scan_eq_ok_iff.1 hscan
    exact hcourse.tiles.partitions

/-- A message with two variables and a text. -/
def Template.message : Template where
  signature := 0x25070012
  name := "cmd_msg"
  parameters := [⟨.tagged .compact, "a"⟩, ⟨.tagged .compact, "b"⟩, ⟨.string, "text"⟩]

/-- A scanner that knows messages, and an end without parameters. -/
def Scanner.messages : Scanner where
  registry := .ofList [{ signature := 0x25010000, name := "cmd_end" }, .message]

/-- A scan that gives something to look at has a script that looks so. -/
theorem Scanner.exists_script {α : Type} {scanner : Scanner} {data : ByteArray} {view : Script → α}
    {seen : α} (h : (scanner.scan data).toOption.map view = some seen) :
    ∃ script, scanner.scan data = .ok script ∧ view script = seen := by
  obtain ⟨script, hscript, hseen⟩ := Option.map_eq_some_iff.1 h
  exact ⟨script, Bytes.toOption_eq_some_iff.1 hscript, hseen⟩

/-- A message that is cut off, the padding behind it, and a raw span partition their buffer. -/
theorem Scanner.scan_partitions_messages :
    ∃ script, Scanner.messages.scan
        ⟨#[0x25, 7, 0, 0x12, 0x20, 1, 0, 0, 0, 0x25, 1, 0, 0, 0xAA]⟩ = .ok script ∧
      script.offsets = [0, 9, 12] ∧
      script.Partitions ⟨#[0x25, 7, 0, 0x12, 0x20, 1, 0, 0, 0, 0x25, 1, 0, 0, 0xAA]⟩ := by
  have hoffsets : (Scanner.messages.scan
      ⟨#[0x25, 7, 0, 0x12, 0x20, 1, 0, 0, 0, 0x25, 1, 0, 0, 0xAA]⟩).toOption.map Script.offsets =
        some [0, 9, 12] := by decide +kernel
  obtain ⟨script, hscan, hlist⟩ := Scanner.exists_script hoffsets
  exact ⟨script, hscan, hlist, (Scanner.scan_partitions _ _).2.2 script hscan⟩

end PacScript
