import PacScript.Proofs.Scan.Candidate

/-!
# The course of a scan

`Course scanner data previous entities outcome` says which entities a scan records behind the entity
`previous`, in order, and how it ends: at the end of the buffer or with a failure. It is the account
of `Scan.run` from which the properties of scripts are proved, by induction on the rounds of the
scan. A round closes the gap before the next candidate and takes the instruction there; a known
instruction may have padding and a jump table behind it.

`Scan.run_of_course` says that a scan takes its course, and `Scan.exists_course` that there always
is one, so that a script is the result of a scan exactly when its entities are a course that comes
to the end of the buffer (`Scanner.scan_eq_ok_iff`).
-/

namespace PacScript

/-- Where an instruction starts, for the gap behind it. -/
def Entity.preceding? (entity : Entity) : Option Nat :=
  match entity.content with
  | .instruction _ _ _ => some entity.offset
  | _ => none

/-- Where the entity ends; without one, the start of the buffer. -/
def Entity.endOf (entity : Option Entity) : Nat :=
  entity.elim 0 Entity.stop

/-- The bytes from `start` up to `stop` as an entity, if there are any. -/
def Entity.between (data : ByteArray) (start stop : Nat) (content : ByteArray → Content) :
    List Entity :=
  if start < stop then [⟨start, data.extract start stop, content (data.extract start stop)⟩] else []

/-- The entity of a range has the bytes of the range. -/
theorem Entity.eq_of_mem_between {data : ByteArray} {start stop : Nat}
    {content : ByteArray → Content} {entity : Entity}
    (h : entity ∈ between data start stop content) :
    entity = ⟨start, data.extract start stop, content (data.extract start stop)⟩ := by
  unfold between at h
  split at h
  · exact List.mem_singleton.1 h
  · simp at h

/-- The gap between an entity and `stop`. -/
def Entity.gap (data : ByteArray) (previous : Option Entity) (stop : Nat) : List Entity :=
  between data (endOf previous) stop (Content.ofGap · (previous.bind preceding?))

/-- Between an entity and its end there is no gap. -/
theorem Entity.gap_endOf (data : ByteArray) (previous : Option Entity) :
    gap data previous (endOf previous) = [] := by
  rw [gap, between, if_neg (Nat.lt_irrefl _)]

/-- The padding behind an instruction with the template that ends at `start`. -/
def Template.padding (template : Template) (data : ByteArray) (start : Nat) : List Entity :=
  if template.endsWithString then
    Entity.between data start (min (Arguments.alignUp start) data.size) fun _ => .padding
  else []

/-- Padding is recorded as such. -/
theorem Template.content_of_mem_padding {template : Template} {data : ByteArray} {start : Nat}
    {entity : Entity} (h : entity ∈ template.padding data start) : entity.content = .padding := by
  unfold padding at h
  split at h
  · rw [Entity.eq_of_mem_between h]
  · simp at h

namespace Scanner

/-- The jump table from `start` on, behind an instruction with the signature. -/
def jumpTable (scanner : Scanner) (data : ByteArray) (signature : UInt32) (start : Nat) :
    List Entity :=
  if scanner.expectsJumpTable signature then
    match scanner.next? data start with
    | some stop => Entity.between data start stop fun _ => .jumpTable
    | none => []
  else []

/-- What belongs to an instruction and stands behind it. -/
def belongings (scanner : Scanner) (data : ByteArray) (instruction : Instruction) : List Entity :=
  let padding := instruction.template.padding data instruction.toEntity.stop
  padding ++ scanner.jumpTable data instruction.signature
    ((instruction.toEntity :: padding).getLast (by simp)).stop

/-- What belongs to an instruction is its padding, and a jump table behind that. -/
theorem belongings_eq {scanner : Scanner} {data : ByteArray} {instruction : Instruction}
    {padding : List Entity}
    (hpadding : instruction.template.padding data instruction.toEntity.stop = padding) :
    scanner.belongings data instruction = padding ++ scanner.jumpTable data instruction.signature
      (Entity.endOf (instruction.toEntity :: padding).getLast?) := by
  subst hpadding
  rw [List.getLast?_eq_some_getLast (List.cons_ne_nil _ _)]
  rfl

/-- What belongs to an instruction is padding, or a jump table up to the next candidate. -/
theorem of_mem_belongings {scanner : Scanner} {data : ByteArray} {instruction : Instruction}
    {entity : Entity} (h : entity ∈ scanner.belongings data instruction) :
    entity.content = .padding ∨
      ∃ start stop, scanner.next? data start = some stop ∧
        entity = ⟨start, data.extract start stop, .jumpTable⟩ := by
  unfold belongings at h
  rw [List.mem_append] at h
  rcases h with hpadding | htable
  · exact Or.inl (Template.content_of_mem_padding hpadding)
  · unfold jumpTable at htable
    split at htable
    · split at htable
      · rename_i stop hnext
        exact Or.inr ⟨_, stop, hnext, Entity.eq_of_mem_between htable⟩
      · simp at htable
    · simp at htable

/-- The unknown instruction at a candidate. -/
def unknownAt (scanner : Scanner) (data : ByteArray) (candidate : Nat) (signature : UInt32) :
    Entity :=
  ⟨candidate, data.extract candidate
    ((scanner.next? data (candidate + signatureSize)).getD data.size), .unknown signature⟩

end Scanner

open Entity (endOf gap)

/-- What a scan records behind an entity, and the failure that it ends with, if it does. -/
inductive Course (scanner : Scanner) (data : ByteArray) :
    Option Entity → List Entity → Option Failure → Prop where
  /-- Behind the last candidate there is a gap. -/
  | finished {previous : Option Entity}
      (hnext : scanner.next? data (endOf previous) = none) :
      Course scanner data previous (gap data previous data.size) none
  /-- The parameters of the instruction at the candidate are no set. -/
  | failed {previous : Option Entity} {candidate : Nat} {signature : UInt32} {template : Template}
      {failure : Failure} (hnext : scanner.next? data (endOf previous) = some candidate)
      (hsignature : Bytes.signatureAt data candidate = .ok signature)
      (htemplate : scanner.registry.get? signature = some template)
      (hdecode : Instruction.decode data candidate template = .error failure) :
      Course scanner data previous (gap data previous candidate) (some failure)
  /-- A known instruction is at the candidate. -/
  | known {previous : Option Entity} {candidate : Nat} {signature : UInt32} {template : Template}
      {instruction : Instruction} {rest : List Entity} {outcome : Option Failure}
      (hnext : scanner.next? data (endOf previous) = some candidate)
      (hsignature : Bytes.signatureAt data candidate = .ok signature)
      (htemplate : scanner.registry.get? signature = some template)
      (hdecode : Instruction.decode data candidate template = .ok instruction)
      (hrest : Course scanner data
        ((instruction.toEntity :: scanner.belongings data instruction).getLast?) rest outcome) :
      Course scanner data previous
        (gap data previous candidate ++
          (instruction.toEntity :: scanner.belongings data instruction) ++ rest) outcome
  /-- An unknown instruction is at the candidate. -/
  | unknown {previous : Option Entity} {candidate : Nat} {signature : UInt32} {rest : List Entity}
      {outcome : Option Failure} (hnext : scanner.next? data (endOf previous) = some candidate)
      (hsignature : Bytes.signatureAt data candidate = .ok signature)
      (htemplate : scanner.registry.get? signature = none)
      (hrest : Course scanner data (some (scanner.unknownAt data candidate signature)) rest
        outcome) :
      Course scanner data previous
        (gap data previous candidate ++ [scanner.unknownAt data candidate signature] ++ rest)
        outcome

/-- Appends entities in order. -/
def Script.pushAll (script : Script) (entities : List Entity) : Script :=
  entities.foldl push script

namespace Script

/-- Without entities nothing is appended. -/
@[simp] theorem pushAll_nil (script : Script) : script.pushAll [] = script := rfl

/-- The first entity is appended first. -/
@[simp] theorem pushAll_cons (script : Script) (entity : Entity) (rest : List Entity) :
    script.pushAll (entity :: rest) = (script.push entity).pushAll rest := rfl

/-- Entities are appended in order. -/
theorem pushAll_append (script : Script) (front back : List Entity) :
    script.pushAll (front ++ back) = (script.pushAll front).pushAll back :=
  List.foldl_append

/-- Entities do not change the size of the buffer. -/
@[simp] theorem size_pushAll (script : Script) (entities : List Entity) :
    (script.pushAll entities).size = script.size := by
  induction entities generalizing script with
  | nil => rfl
  | cons entity rest ih => rw [pushAll_cons, ih, size_push]

/-- The entities that are appended stand behind those that are there. -/
@[simp] theorem entities_pushAll (script : Script) (entities : List Entity) :
    (script.pushAll entities).entities.toList = script.entities.toList ++ entities := by
  induction entities generalizing script with
  | nil => rw [pushAll_nil, List.append_nil]
  | cons entity rest ih =>
    rw [pushAll_cons, ih, entities_push, Array.toList_push, List.append_assoc,
      List.singleton_append]

/-- The entity that is appended is the last one. -/
@[simp] theorem back?_push (script : Script) (entity : Entity) :
    (script.push entity).entities.back? = some entity := by
  rw [entities_push, Array.back?_push]

/-- The last entity of a script is the last one appended. -/
theorem back?_pushAll_cons (script : Script) (entity : Entity) (rest : List Entity) :
    (script.pushAll (entity :: rest)).entities.back? = (entity :: rest).getLast? := by
  induction rest generalizing script entity with
  | nil => rw [pushAll_cons, pushAll_nil, back?_push, List.getLast?_singleton]
  | cons next rest ih => rw [pushAll_cons, ih, List.getLast?_cons_cons]

end Script

namespace Scan

/-- The scan that has recorded the entities of a script and nothing since. -/
def ofScript (script : Script) : Scan :=
  ⟨script, script.entities.back?.bind Entity.preceding?⟩

/-- A scan starts with a script of which nothing is known. -/
theorem start_eq_ofScript (data : ByteArray) : start data = ofScript (.ofSize data.size) := rfl

/-- A scan stands at the end of the last entity. -/
@[simp] theorem position_ofScript (script : Script) :
    (ofScript script).position = endOf script.entities.back? := rfl

/-! ## The moves of a scan -/

/-- A scan that records an entity goes on behind it. -/
theorem record_eq_ofScript (scan : Scan) (entity : Entity) :
    scan.record entity = ofScript (scan.script.push entity) := by
  unfold ofScript
  rw [Script.back?_push]
  rfl

/-- Recording up to a place appends the entity between, if the place is further on. -/
theorem recordTo_ofScript (script : Script) (data : ByteArray) (stop : Nat)
    (content : ByteArray → Content) :
    (ofScript script).recordTo data stop content =
      ofScript (script.pushAll
        (Entity.between data (endOf script.entities.back?) stop content)) := by
  unfold recordTo Entity.between
  rw [position_ofScript]
  split
  · rw [record_eq_ofScript, Script.pushAll_cons, Script.pushAll_nil]
    rfl
  · rfl

/-- A flush appends the gap up to the place. -/
theorem script_flush_ofScript (script : Script) (data : ByteArray) (stop : Nat) :
    ((ofScript script).flush data stop).script =
      script.pushAll (gap data script.entities.back? stop) := by
  unfold flush
  rw [recordTo_ofScript]
  rfl

/-- Padding goes up to the next multiple of four, or to the end of the buffer. -/
theorem pad_ofScript (script : Script) (data : ByteArray) :
    (ofScript script).pad data =
      ofScript (script.pushAll (Entity.between data (endOf script.entities.back?)
        (min (Arguments.alignUp (endOf script.entities.back?)) data.size) fun _ => .padding)) := by
  unfold pad
  rw [recordTo_ofScript, position_ofScript]

/-- Where a jump table is expected, it is appended, if there is one. -/
theorem captureJumpTable_ofScript (script : Script) (scanner : Scanner) (data : ByteArray)
    (signature : UInt32) (hexpects : scanner.expectsJumpTable signature = true) :
    (ofScript script).captureJumpTable scanner data =
      ofScript (script.pushAll
        (scanner.jumpTable data signature (endOf script.entities.back?))) := by
  unfold captureJumpTable Scanner.jumpTable
  rw [if_pos hexpects, position_ofScript]
  cases scanner.next? data (endOf script.entities.back?) with
  | none => rfl
  | some stop => exact recordTo_ofScript script data stop _

/-- A known instruction is recorded with what belongs to it. -/
theorem recordInstruction_eq_ofScript (scan : Scan) (scanner : Scanner) (data : ByteArray)
    (instruction : Instruction) :
    scan.recordInstruction scanner data instruction =
      ofScript (scan.script.pushAll
        (instruction.toEntity :: scanner.belongings data instruction)) := by
  -- The instruction and its padding come first, since the jump table starts behind them.
  have hpadded : (if instruction.template.endsWithString then
        (scan.record instruction.toEntity).pad data else scan.record instruction.toEntity) =
      ofScript (scan.script.pushAll (instruction.toEntity ::
        instruction.template.padding data instruction.toEntity.stop)) := by
    unfold Template.padding
    rw [record_eq_ofScript]
    split
    · rw [pad_ofScript, Script.back?_push, Script.pushAll_cons]
      rfl
    · rw [Script.pushAll_cons, Script.pushAll_nil]
  unfold recordInstruction Scanner.belongings
  dsimp only
  rw [hpadded, ← List.cons_append, Script.pushAll_append]
  split
  · rename_i hexpects
    rw [captureJumpTable_ofScript _ _ _ _ hexpects, Script.back?_pushAll_cons,
      List.getLast?_eq_some_getLast (List.cons_ne_nil _ _)]
    rfl
  · rename_i hexpects
    rw [Scanner.jumpTable, if_neg hexpects, Script.pushAll_nil]

/-- A gap is closed up to the candidate. -/
theorem position_flush_candidate {scanner : Scanner} {data : ByteArray} {scan : Scan}
    {candidate : Nat} (hnext : scanner.next? data scan.position = some candidate) :
    (scan.flush data candidate).position = candidate := by
  obtain ⟨hle, hlt, -⟩ := Search.first_eq_some hnext
  rw [position_flush scan (by omega), Nat.max_eq_right hle]

/-- The instruction of a candidate is recorded behind the gap. -/
theorem dispatch_known {scanner : Scanner} {data : ByteArray} {scan : Scan} {signature : UInt32}
    {template : Template} {instruction : Instruction}
    (hsignature : Bytes.signatureAt data scan.position = .ok signature)
    (htemplate : scanner.registry.get? signature = some template)
    (hdecode : Instruction.decode data scan.position template = .ok instruction) :
    scan.dispatch scanner data = .ok (ofScript (scan.script.pushAll
      (instruction.toEntity :: scanner.belongings data instruction))) := by
  unfold dispatch
  simp only [hsignature, htemplate, hdecode]
  rw [recordInstruction_eq_ofScript]

/-- A candidate without a template is recorded as an unknown instruction. -/
theorem dispatch_unknown {scanner : Scanner} {data : ByteArray} {scan : Scan} {signature : UInt32}
    (hsignature : Bytes.signatureAt data scan.position = .ok signature)
    (htemplate : scanner.registry.get? signature = none) :
    scan.dispatch scanner data = .ok (ofScript (scan.script.pushAll
      [scanner.unknownAt data scan.position signature])) := by
  unfold dispatch
  simp only [hsignature, htemplate]
  rw [record_eq_ofScript]
  rfl

/-- A known instruction whose parameters are no set makes the scan fail. -/
theorem dispatch_failed {scanner : Scanner} {data : ByteArray} {scan : Scan} {signature : UInt32}
    {template : Template} {failure : Failure}
    (hsignature : Bytes.signatureAt data scan.position = .ok signature)
    (htemplate : scanner.registry.get? signature = some template)
    (hdecode : Instruction.decode data scan.position template = .error failure) :
    scan.dispatch scanner data = .error failure := by
  unfold dispatch
  simp only [hsignature, htemplate, hdecode]

/-! ## A scan takes its course -/

/-- A run closes the gap before the next candidate, takes the instruction there, and goes on. -/
theorem run_eq (scanner : Scanner) (data : ByteArray) (scan : Scan) :
    scan.run scanner data =
      match scanner.next? data scan.position with
      | none => .ok (scan.flush data data.size).script
      | some candidate =>
        match (scan.flush data candidate).dispatch scanner data with
        | .error failure => .error failure
        | .ok next => next.run scanner data := by
  rw [run]
  split
  · rename_i hnext
    rw [hnext]
  · rename_i candidate hnext
    rw [hnext]
    dsimp only
    split
    · rename_i failure hdispatch
      rw [hdispatch]
    · rename_i next hdispatch
      rw [hdispatch]

/-- The end of a run without a further candidate. -/
theorem run_of_next?_eq_none {scanner : Scanner} {data : ByteArray} {scan : Scan}
    (hnext : scanner.next? data scan.position = none) :
    scan.run scanner data = .ok (scan.flush data data.size).script := by
  rw [run_eq, hnext]

/-- A run up to a candidate at which it fails. -/
theorem run_of_dispatch_eq_error {scanner : Scanner} {data : ByteArray} {scan : Scan}
    {candidate : Nat} {failure : Failure}
    (hnext : scanner.next? data scan.position = some candidate)
    (hdispatch : (scan.flush data candidate).dispatch scanner data = .error failure) :
    scan.run scanner data = .error failure := by
  rw [run_eq, hnext]
  dsimp only
  rw [hdispatch]

/-- A run goes on behind the instruction at a candidate. -/
theorem run_of_dispatch_eq_ok {scanner : Scanner} {data : ByteArray} {scan next : Scan}
    {candidate : Nat} (hnext : scanner.next? data scan.position = some candidate)
    (hdispatch : (scan.flush data candidate).dispatch scanner data = .ok next) :
    scan.run scanner data = next.run scanner data := by
  rw [run_eq, hnext]
  dsimp only
  rw [hdispatch]

/-- The result of a scan with the given course. -/
def result (script : Script) (entities : List Entity) : Option Failure → Except Failure Script
  | none => .ok (script.pushAll entities)
  | some failure => .error failure

/-- A scan takes its course. -/
theorem run_of_course {scanner : Scanner} {data : ByteArray} {previous : Option Entity}
    {entities : List Entity} {outcome : Option Failure}
    (h : Course scanner data previous entities outcome) {script : Script}
    (hprevious : script.entities.back? = previous) :
    (ofScript script).run scanner data = result script entities outcome := by
  -- Each constructor is one round of the run, which leaves the script with the entities of the
  -- round behind those that it had.
  induction h generalizing script with
  | finished hnext =>
    subst hprevious
    rw [← position_ofScript] at hnext
    rw [run_of_next?_eq_none hnext, script_flush_ofScript]
    rfl
  | failed hnext hsignature htemplate hdecode =>
    subst hprevious
    rw [← position_ofScript] at hnext
    have hposition := position_flush_candidate hnext
    rw [← hposition] at hsignature hdecode
    exact run_of_dispatch_eq_error hnext (dispatch_failed hsignature htemplate hdecode)
  | known hnext hsignature htemplate hdecode hrest ih =>
    subst hprevious
    rw [← position_ofScript] at hnext
    have hposition := position_flush_candidate hnext
    rw [← hposition] at hsignature hdecode
    rw [run_of_dispatch_eq_ok hnext (dispatch_known hsignature htemplate hdecode),
      script_flush_ofScript, ih (Script.back?_pushAll_cons _ _ _)]
    cases outcome <;> simp only [result, Script.pushAll_append]
  | unknown hnext hsignature htemplate hrest ih =>
    subst hprevious
    rw [← position_ofScript] at hnext
    have hposition := position_flush_candidate hnext
    rw [← hposition] at hsignature
    rw [run_of_dispatch_eq_ok hnext (dispatch_unknown hsignature htemplate), hposition,
      script_flush_ofScript, ih (Script.back?_pushAll_cons _ _ _)]
    cases outcome <;> simp only [result, Script.pushAll_append]

/-- Every scan has a course. -/
theorem exists_course (scanner : Scanner) (data : ByteArray) (script : Script) :
    ∃ entities outcome, Course scanner data script.entities.back? entities outcome := by
  cases hnext : scanner.next? data (endOf script.entities.back?) with
  | none => exact ⟨_, _, .finished hnext⟩
  | some candidate =>
    obtain ⟨signature, hcandidate⟩ := Scanner.exists_candidate hnext
    have hsignature := hcandidate.signatureAt
    have hsize := hcandidate.size
    have hle := (Scanner.next?_eq_some_iff.1 hnext).1
    rw [← position_ofScript] at hnext hle
    have hposition := position_flush_candidate hnext
    cases htemplate : scanner.registry.get? signature with
    | none =>
      -- The round takes the signature at least, so that fewer bytes are left for the rest.
      have hdispatch := dispatch_unknown (hposition.symm ▸ hsignature) htemplate
      have hprogress : data.size - (ofScript (((ofScript script).flush data
          candidate).script.pushAll [scanner.unknownAt data
            ((ofScript script).flush data candidate).position signature])).position <
          data.size - (ofScript script).position := by
        have := signatureSize_le_dispatch hdispatch
        rw [signatureSize] at this
        omega
      obtain ⟨rest, outcome, hrest⟩ := exists_course scanner data
        (((ofScript script).flush data candidate).script.pushAll
          [scanner.unknownAt data ((ofScript script).flush data candidate).position signature])
      rw [Script.back?_pushAll_cons, hposition] at hrest
      exact ⟨_, _, .unknown hnext hsignature htemplate hrest⟩
    | some template =>
      cases hdecode : Instruction.decode data candidate template with
      | error failure => exact ⟨_, _, .failed hnext hsignature htemplate hdecode⟩
      | ok instruction =>
        have hdispatch := dispatch_known (hposition.symm ▸ hsignature) htemplate
          (hposition.symm ▸ hdecode)
        have hprogress : data.size - (ofScript (((ofScript script).flush data
            candidate).script.pushAll
              (instruction.toEntity :: scanner.belongings data instruction))).position <
            data.size - (ofScript script).position := by
          have := signatureSize_le_dispatch hdispatch
          rw [signatureSize] at this
          omega
        obtain ⟨rest, outcome, hrest⟩ := exists_course scanner data
          (((ofScript script).flush data candidate).script.pushAll
            (instruction.toEntity :: scanner.belongings data instruction))
        rw [Script.back?_pushAll_cons] at hrest
        exact ⟨_, _, .known hnext hsignature htemplate hdecode hrest⟩
  termination_by data.size - (ofScript script).position
  decreasing_by all_goals exact hprogress

end Scan

/-- A script is the result of a scan exactly when its entities are a course that comes to the end of
the buffer. -/
theorem Scanner.scan_eq_ok_iff {scanner : Scanner} {data : ByteArray} {script : Script} :
    scanner.scan data = .ok script ↔
      ∃ entities, Course scanner data none entities none ∧
        script = (Script.ofSize data.size).pushAll entities := by
  have hstart : (Script.ofSize data.size).entities.back? = none := rfl
  unfold scan
  rw [Scan.start_eq_ofScript]
  constructor
  · intro h
    obtain ⟨entities, outcome, hcourse⟩ := Scan.exists_course scanner data (.ofSize data.size)
    -- The result of the scan is that of its course, which therefore has no failure.
    rw [Scan.run_of_course hcourse rfl] at h
    cases outcome with
    | none => exact ⟨entities, hcourse, (Except.ok.inj h).symm⟩
    | some failure => simp [Scan.result] at h
  · intro h
    obtain ⟨entities, hcourse, rfl⟩ := h
    exact Scan.run_of_course hcourse hstart

/-- Entities that are appended to nothing are those of the script. -/
theorem Script.toList_ofSize_pushAll (size : Nat) (entities : List Entity) :
    ((Script.ofSize size).pushAll entities).entities.toList = entities := by
  rw [entities_pushAll]
  rfl

/-- An entity of a script stands in the course of the scan behind as many others as its index says. -/
theorem Scanner.exists_split_of_scan {scanner : Scanner} {data : ByteArray} {script : Script}
    (hscan : scanner.scan data = .ok script) {index : Nat} {entity : Entity}
    (hentity : script.entities[index]? = some entity) :
    ∃ front back, Course scanner data none (front ++ entity :: back) none ∧
      front.length = index ∧
      script = (Script.ofSize data.size).pushAll (front ++ entity :: back) := by
  obtain ⟨entities, hcourse, rfl⟩ := scan_eq_ok_iff.1 hscan
  rw [← Array.getElem?_toList, Script.toList_ofSize_pushAll] at hentity
  obtain ⟨hindex, hat⟩ := List.getElem?_eq_some_iff.1 hentity
  have hsplit : entities.take index ++ entity :: entities.drop (index + 1) = entities := by
    rw [← hat, List.getElem_cons_drop, List.take_append_drop]
  refine ⟨entities.take index, entities.drop (index + 1), ?_, ?_, ?_⟩
  · rw [hsplit]
    exact hcourse
  · rw [List.length_take]
    omega
  · rw [hsplit]

end PacScript
