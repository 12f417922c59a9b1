import PacScript.Proofs.Bytes.Cuts
import PacScript.Proofs.Scan.Gaps
import PacScript.Proofs.Scan.Restart

/-!
# What belongs to an instruction

Padding may stand behind a known instruction, and a jump table behind that. Both are optional, and
the padding decides where the table starts and for which candidate it is searched.

`Scanner.Attends` says when each of the two is there and what it is, and what a scan takes along
with an instruction is so (`Scanner.exists_belongings`). The scan goes on behind it with something
else (`Course.exists_rest`, `Course.isBelonging_head?`), so that the next entities of a script show
what belongs to an instruction. Nowhere else is there padding or a jump table, as each of them has
an instruction that it belongs to (`Course.exists_owner`).
-/

namespace PacScript

open Entity (gap endOf)

namespace Entity

/-- The entity is the padding behind `start`. -/
structure IsPadding (data : ByteArray) (start : Nat) (entity : Entity) : Prop where
  /-- It is padding. -/
  kind_eq : entity.kind = .padding
  /-- It starts there. -/
  offset_eq : entity.offset = start
  /-- It ends on the next word boundary, or where the buffer does. -/
  stop_eq : entity.stop = min (start + (4 - start % 4)) data.size
  /-- It has the bytes of its range. -/
  raw_eq : entity.raw = data.extract start entity.stop
  /-- These are one to three. -/
  size_mem : 1 ≤ entity.size ∧ entity.size ≤ 3
  /-- They are said to be zero exactly when all of them are. -/
  zeroesOnly_iff : entity.zeroesOnly = true ↔
    ∀ position, start ≤ position → position < entity.stop → data[position]? = some 0

/-- The entity is the jump table from `start` up to `stop`. -/
structure IsTable (data : ByteArray) (start stop : Nat) (entity : Entity) : Prop where
  /-- It is a jump table. -/
  kind_eq : entity.kind = .jumpTable
  /-- It starts at `start`. -/
  offset_eq : entity.offset = start
  /-- It ends at `stop`. -/
  stop_eq : entity.stop = stop
  /-- It has the bytes of its range. -/
  raw_eq : entity.raw = data.extract start stop
  /-- Its branches are the words of the range, and a tail that is no word is not among them. -/
  branches_iff : ∀ i word, entity.branches[i]? = some word ↔
    start + 4 * i + 4 ≤ stop ∧ Bytes.wordAt data (start + 4 * i) = .ok word

end Entity

open Entity (IsPadding IsTable)

/-- The bytes of a range are all zero when each byte of the buffer in the range is. -/
theorem Entity.zeroesOnly_extract_iff {data : ByteArray} {start stop : Nat}
    (hstop : stop ≤ data.size) (content : Content) :
    (⟨start, data.extract start stop, content⟩ : Entity).zeroesOnly = true ↔
      ∀ position, start ≤ position → position < stop → data[position]? = some 0 := by
  have hsize : (data.extract start stop).data.size = stop - start := by
    rw [ByteArray.size_data, ByteArray.size_extract, Nat.min_eq_left hstop]
  unfold zeroesOnly
  rw [Array.all_eq_true]
  constructor
  · intro h position hle hlt
    obtain ⟨i, rfl⟩ := Nat.exists_eq_add_of_le hle
    have hi : i < (data.extract start stop).data.size := by omega
    have hzero : (data.extract start stop)[i]? = some 0 :=
      Bytes.getElem?_eq_some.2 ⟨hi, eq_of_beq (h i hi)⟩
    exact (Bytes.getElem?_extract_iff.1 hzero).2
  · intro h i hi
    have hlt : start + i < stop := by
      dsimp only at hi
      omega
    have hzero : (data.extract start stop)[i]? = some 0 :=
      Bytes.getElem?_extract_iff.2 ⟨hlt, h (start + i) (Nat.le_add_right _ _) hlt⟩
    obtain ⟨_, hbyte⟩ := Bytes.getElem?_eq_some.1 hzero
    exact beq_iff_eq.2 hbyte

/-- The bytes from a place between word boundaries up to the next one are its padding. -/
theorem Entity.isPadding_extract {data : ByteArray} {start : Nat} (hunaligned : start % 4 ≠ 0)
    (hstart : start < data.size) : IsPadding data start
      ⟨start, data.extract start (min (Arguments.alignUp start) data.size), .padding⟩ := by
  have halign : Arguments.alignUp start = start + (4 - start % 4) := by
    unfold Arguments.alignUp
    omega
  obtain ⟨stop, hmin⟩ : ∃ stop, min (start + (4 - start % 4)) data.size = stop := ⟨_, rfl⟩
  have hstop : stop ≤ data.size := hmin ▸ Nat.min_le_right _ _
  have hend := stop_extract (by omega : start ≤ stop) hstop .padding
  rw [halign, hmin]
  constructor
  · rfl
  · rfl
  · rw [hend, hmin]
  · rw [hend]
  · rw [size, ByteArray.size_extract]
    omega
  · rw [hend]
    exact zeroesOnly_extract_iff hstop _

/-- The bytes up to a later place are a jump table. -/
theorem Entity.isTable_extract {data : ByteArray} {start stop : Nat} (hle : start ≤ stop)
    (hstop : stop ≤ data.size) :
    IsTable data start stop ⟨start, data.extract start stop, .jumpTable⟩ := by
  constructor
  · rfl
  · rfl
  · exact stop_extract hle hstop _
  · rfl
  · intro i word
    rw [branches, Bytes.getElem?_words, Bytes.wordAt_extract_iff]

/-! ## What belongs to an instruction -/

/-- The padding is what has to stand behind an instruction with the template that ends at
`start`. -/
structure Template.Pads (template : Template) (data : ByteArray) (start : Nat)
    (padding : Option Entity) : Prop where
  /-- There is padding if the last parameter is a string, and the instruction ends between word
  boundaries and before the buffer does. -/
  isSome_iff : padding.isSome = true ↔
    template.endsWithString = true ∧ start % 4 ≠ 0 ∧ start < data.size
  /-- It is the padding up to the next boundary. -/
  isPadding : ∀ entity ∈ padding, IsPadding data start entity

/-- Behind an instruction there is the padding that has to be there. -/
theorem Template.exists_padding (template : Template) (data : ByteArray) (start : Nat) :
    ∃ padding : Option Entity, template.padding data start = padding.toList ∧
      template.Pads data start padding := by
  by_cases hpads : template.endsWithString = true ∧ start % 4 ≠ 0 ∧ start < data.size
  · have hlt : start < min (Arguments.alignUp start) data.size := by
      unfold Arguments.alignUp
      omega
    refine ⟨some ⟨start, data.extract start (min (Arguments.alignUp start) data.size), .padding⟩,
      ?_, iff_of_true rfl hpads, ?_⟩
    · rw [padding, if_pos hpads.1, Entity.between, if_pos hlt, Option.toList_some]
    · intro entity hmem
      obtain rfl := Option.mem_some_iff.1 hmem
      exact Entity.isPadding_extract hpads.2.1 hpads.2.2
  · refine ⟨none, ?_, iff_of_false (by simp) hpads, by simp⟩
    rw [Option.toList_none]
    unfold padding
    split
    · rename_i hstring
      -- The instruction ends on a boundary or with the buffer, and the range is empty.
      have hge : ¬ start < min (Arguments.alignUp start) data.size := by
        intro hlt
        unfold Arguments.alignUp at hlt
        exact hpads ⟨hstring, by omega, by omega⟩
      rw [Entity.between, if_neg hge]
    · rfl

namespace Scanner

variable {scanner : Scanner} {data : ByteArray}

/-- The first candidate at or behind `start` is at `found`. -/
def FirstFrom (scanner : Scanner) (data : ByteArray) (start found : Nat) : Prop :=
  start ≤ found ∧ (∃ signature, scanner.Candidate data found signature) ∧
    scanner.Bare data start found

/-- The table is what has to stand at `start`, behind an instruction with the signature and its
padding. -/
structure Tabulates (scanner : Scanner) (data : ByteArray) (signature : UInt32) (start : Nat)
    (table : Option Entity) : Prop where
  /-- There is a table if tables are captured, the instruction is an indexed jump, and there is a
  next candidate, further on. -/
  isSome_iff : table.isSome = true ↔
    scanner.captureJumpTables = true ∧ scanner.indexedJump = some signature ∧
      ∃ stop, scanner.FirstFrom data start stop ∧ start < stop
  /-- It is the table up to this candidate. -/
  isTable : ∀ entity ∈ table, ∃ stop, scanner.FirstFrom data start stop ∧
    IsTable data start stop entity

/-- Behind an instruction and its padding there is the table that has to be there. -/
theorem exists_jumpTable (scanner : Scanner) (data : ByteArray) (signature : UInt32)
    (start : Nat) :
    ∃ table : Option Entity, scanner.jumpTable data signature start = table.toList ∧
      scanner.Tabulates data signature start table := by
  have hexpects : scanner.expectsJumpTable signature = true ↔
      scanner.captureJumpTables = true ∧ scanner.indexedJump = some signature := by
    rw [expectsJumpTable, Bool.and_eq_true, beq_iff_eq]
  by_cases htable : scanner.expectsJumpTable signature = true ∧
      ∃ stop, scanner.FirstFrom data start stop ∧ start < stop
  · obtain ⟨hexpected, stop, hfirst, hlt⟩ := htable
    obtain ⟨found, hcandidate⟩ := hfirst.2.1
    have hsize := hcandidate.size
    refine ⟨some ⟨start, data.extract start stop, .jumpTable⟩, ?_, ?_, ?_⟩
    · rw [jumpTable, if_pos hexpected, next?_eq_some_iff.2 hfirst]
      dsimp only
      rw [Entity.between, if_pos hlt, Option.toList_some]
    · rw [← and_assoc, ← hexpects]
      exact iff_of_true rfl ⟨hexpected, stop, hfirst, hlt⟩
    · intro entity hmem
      obtain rfl := Option.mem_some_iff.1 hmem
      exact ⟨stop, hfirst, Entity.isTable_extract (Nat.le_of_lt hlt) (by omega)⟩
  · refine ⟨none, ?_, ?_, by simp⟩
    · rw [Option.toList_none]
      unfold jumpTable
      split
      · rename_i hexpected
        split
        · rename_i stop hnext
          -- A candidate right at the start leaves no room for a table.
          have hge : ¬ start < stop := fun hlt =>
            htable ⟨hexpected, stop, next?_eq_some_iff.1 hnext, hlt⟩
          rw [Entity.between, if_neg hge]
        · rfl
      · rfl
    · rw [← and_assoc, ← hexpects]
      exact iff_of_false (by simp) htable

/-- The padding and the jump table are what belongs to the instruction. -/
structure Attends (scanner : Scanner) (data : ByteArray) (instruction : Instruction)
    (padding table : Option Entity) : Prop where
  /-- The padding is behind the instruction. -/
  pads : instruction.template.Pads data instruction.toEntity.stop padding
  /-- The table is behind the padding, or behind the instruction if there is none. -/
  tabulates : scanner.Tabulates data instruction.signature
    (padding.elim instruction.toEntity.stop Entity.stop) table

/-- What belongs to an instruction is the padding and the jump table that have to be there. -/
theorem exists_belongings (scanner : Scanner) (data : ByteArray) (instruction : Instruction) :
    ∃ padding table : Option Entity,
      scanner.belongings data instruction = padding.toList ++ table.toList ∧
        scanner.Attends data instruction padding table := by
  obtain ⟨padding, hpadding, hpads⟩ :=
    instruction.template.exists_padding data instruction.toEntity.stop
  have hend : endOf (instruction.toEntity :: padding.toList).getLast? =
      padding.elim instruction.toEntity.stop Entity.stop := by
    cases padding <;> rfl
  obtain ⟨table, htable, htabulates⟩ := scanner.exists_jumpTable data instruction.signature
    (padding.elim instruction.toEntity.stop Entity.stop)
  refine ⟨padding, table, ?_, hpads, htabulates⟩
  rw [belongings_eq hpadding, hend, htable]

end Scanner

/-! ## The course behind an instruction -/

/-- The course of a scan goes on behind each known instruction with what belongs to it. -/
theorem Course.exists_rest {scanner : Scanner} {data : ByteArray} {previous : Option Entity}
    {entities : List Entity} {outcome : Option Failure}
    (h : Course scanner data previous entities outcome) {front back : List Entity}
    {entity : Entity} (hsplit : entities = front ++ entity :: back)
    (hkind : entity.kind = .instruction) :
    ∃ signature template instruction rest, scanner.Candidate data instruction.offset signature ∧
      scanner.registry.get? signature = some template ∧
      Instruction.decode data instruction.offset template = .ok instruction ∧
      entity = instruction.toEntity ∧ back = scanner.belongings data instruction ++ rest ∧
      Course scanner data (entity :: scanner.belongings data instruction).getLast? rest
        outcome := by
  have hsome := Entity.signature?_ne_none_iff.2 (Or.inl hkind)
  -- The scan begins anew at the instruction, and so the first round from there on takes it.
  have hbefore : endOf (some ⟨entity.offset, .empty, .rawSpan⟩) = entity.offset := rfl
  have hrestart := h.restart hsplit hsome hbefore
  generalize hround : entity :: back = round at hrestart
  rw [← List.nil_append (entity :: back)] at hround
  cases hrestart with
  | finished => exact absurd hround.symm (Entity.gap_ne_append hsome [] back)
  | failed => exact absurd hround.symm (Entity.gap_ne_append hsome [] back)
  | @known _ candidate signature template instruction rest _ hnext hsignature htemplate hdecode
      hrest =>
    rcases Entity.of_round_eq hsome Scanner.signature?_of_mem_belongings hround.symm with
      ⟨-, rfl, rfl⟩ | ⟨later, hlater, -⟩
    · have hoffset := Instruction.offset_of_decode hdecode
      rw [← hoffset] at hdecode
      refine ⟨signature, template, instruction, rest, ?_, htemplate, hdecode, rfl, rfl, hrest⟩
      rw [hoffset]
      exact Scanner.candidate_of_next? hnext hsignature
    · simp at hlater
  | unknown =>
    rcases Entity.of_round_eq hsome (List.forall_mem_nil _) hround.symm with
      ⟨-, rfl, -⟩ | ⟨later, hlater, -⟩
    · simp [Entity.kind, Scanner.unknownAt, Content.kind] at hkind
    · simp at hlater

/-- Behind each known instruction of a script there is what belongs to it, and then what the scan
goes on with. -/
theorem Scanner.exists_rest_of_scan {scanner : Scanner} {data : ByteArray} {script : Script}
    (hscan : scanner.scan data = .ok script) {i : Nat} {entity : Entity}
    (hentity : script.entities[i]? = some entity) (hkind : entity.kind = .instruction) :
    ∃ signature template instruction rest, scanner.Candidate data instruction.offset signature ∧
      scanner.registry.get? signature = some template ∧
      Instruction.decode data instruction.offset template = .ok instruction ∧
      entity = instruction.toEntity ∧
      script.entities[i + 1]? = (scanner.belongings data instruction ++ rest).head? ∧
      Course scanner data (entity :: scanner.belongings data instruction).getLast? rest none := by
  obtain ⟨front, back, hcourse, rfl, rfl⟩ := exists_split_of_scan hscan hentity
  obtain ⟨signature, template, instruction, rest, hstart, htemplate, hdecode, heq, hback, hrest⟩ :=
    hcourse.exists_rest rfl hkind
  refine ⟨signature, template, instruction, rest, hstart, htemplate, hdecode, heq, ?_, hrest⟩
  rw [← hback, ← Array.getElem?_toList, Script.toList_ofSize_pushAll,
    List.getElem?_append_right (Nat.le_add_right _ _), Nat.add_sub_cancel_left,
    List.getElem?_cons_succ, List.head?_eq_getElem?]

/-! ## What an instruction belongs to -/

/-- True for the kinds of what belongs to an instruction. -/
def EntityKind.isBelonging : EntityKind → Bool
  | padding | jumpTable => true
  | instruction | unknown | rawSpan | messageTable | leftOut => false

/-- A gap belongs to no instruction. -/
theorem Entity.notMem_gap {data : ByteArray} {previous : Option Entity} {stop : Nat}
    {entity : Entity} (hkind : entity.kind.isBelonging = true) :
    entity ∉ gap data previous stop := by
  intro hmem
  have hgap := isGap_of_mem_gap hmem
  cases hentity : entity.kind <;> simp [hentity, EntityKind.isBelonging, EntityKind.isGap] at *

section

variable {scanner : Scanner} {data : ByteArray} {previous : Option Entity}
  {entities : List Entity} {outcome : Option Failure}

/-- Padding and jump tables stand behind an instruction, among what belongs to it. -/
theorem Course.exists_owner (h : Course scanner data previous entities outcome)
    {front back : List Entity} {entity : Entity} (hsplit : entities = front ++ entity :: back)
    (hkind : entity.kind.isBelonging = true) :
    ∃ instruction before behind later, front = before ++ instruction.toEntity :: behind ∧
      scanner.belongings data instruction = behind ++ entity :: later := by
  -- The entity is not in the gap that a round closes, and not the instruction that it takes.
  induction h generalizing front with
  | @finished previous hnext =>
    have hmem : entity ∈ gap data previous data.size := by simp [hsplit]
    exact absurd hmem (Entity.notMem_gap hkind)
  | @failed previous candidate =>
    have hmem : entity ∈ gap data previous candidate := by simp [hsplit]
    exact absurd hmem (Entity.notMem_gap hkind)
  | @known previous candidate signature template instruction rest outcome hnext hsignature
      htemplate hdecode hrest ih =>
    rw [List.append_assoc] at hsplit
    obtain ⟨round, rfl, hround⟩ := exists_of_append_eq (Entity.notMem_gap hkind) hsplit
    rcases split_of_append_eq hround with ⟨later, rfl, hlater⟩ | ⟨later, htaken, -⟩
    · obtain ⟨owner, before, behind, others, rfl, hothers⟩ := ih hlater
      refine ⟨owner, gap data previous candidate ++
        (instruction.toEntity :: scanner.belongings data instruction) ++ before, behind, others,
        ?_, hothers⟩
      simp only [List.append_assoc]
    · cases round with
      | nil =>
        obtain ⟨rfl, -⟩ := List.cons.inj htaken
        simp [Instruction.toEntity, Entity.kind, Content.kind, EntityKind.isBelonging] at hkind
      | cons head round =>
        obtain ⟨rfl, hbelongings⟩ := List.cons.inj htaken
        exact ⟨instruction, gap data previous candidate, round, later, rfl, hbelongings⟩
  | @unknown previous candidate signature rest outcome hnext hsignature htemplate hrest ih =>
    rw [List.append_assoc] at hsplit
    obtain ⟨round, rfl, hround⟩ := exists_of_append_eq (Entity.notMem_gap hkind) hsplit
    have hnot : entity ∉ [scanner.unknownAt data candidate signature] := by
      intro hmem
      rw [List.mem_singleton.1 hmem] at hkind
      simp [Scanner.unknownAt, Entity.kind, Content.kind, EntityKind.isBelonging] at hkind
    obtain ⟨later, rfl, hlater⟩ := exists_of_append_eq hnot hround
    obtain ⟨owner, before, behind, others, rfl, hothers⟩ := ih hlater
    refine ⟨owner, gap data previous candidate ++
      [scanner.unknownAt data candidate signature] ++ before, behind, others, ?_, hothers⟩
    simp only [List.append_assoc]

/-- A course does not start with what belongs to an instruction in front of it. -/
theorem Course.isBelonging_head? (h : Course scanner data previous entities outcome) :
    ∀ entity ∈ entities.head?, entity.kind.isBelonging = false := by
  intro entity hmem
  obtain ⟨rest, rfl⟩ := List.head?_eq_some_iff.1 hmem
  rw [← Bool.not_eq_true]
  intro hkind
  obtain ⟨instruction, before, behind, later, hfront, -⟩ :=
    h.exists_owner (List.nil_append _).symm hkind
  simp at hfront

end

/-! ## What stands behind an instruction in a script -/

/-- Nothing is in front of the only element of a list. -/
theorem eq_nil_of_toList_eq {α : Type} {first : Option α} {front back : List α}
    {element : α} (h : first.toList = front ++ element :: back) : front = [] := by
  have hlength := congrArg List.length h
  have hle : first.toList.length ≤ 1 := by cases first <;> simp
  rw [List.length_append, List.length_cons] at hlength
  exact List.length_eq_zero_iff.1 (by omega)

namespace Entity

/-- The first of the entities, if it is of the kind. -/
def nextOf (kind : EntityKind) (entities : List Entity) : Option Entity :=
  entities.head?.filter (·.kind = kind)

/-- The padding at the front of entities. -/
def paddingOf (entities : List Entity) : Option Entity :=
  nextOf .padding entities

/-- The jump table at the front of entities or directly behind the padding there. -/
def tableOf (entities : List Entity) : Option Entity :=
  nextOf .jumpTable (entities.drop (paddingOf entities).toList.length)

/-- An entity of the kind, if there is one, is the first in front of others. -/
theorem nextOf_append {kind : EntityKind} {first : Option Entity} {others : List Entity}
    (hfirst : ∀ entity ∈ first, entity.kind = kind)
    (hothers : ∀ entity ∈ others.head?, entity.kind ≠ kind) :
    nextOf kind (first.toList ++ others) = first := by
  cases first with
  | some entity => simp [nextOf, hfirst entity rfl]
  | none =>
    rw [Option.toList_none, List.nil_append, nextOf, Option.filter_eq_none_iff]
    intro entity hmem
    simp [hothers entity hmem]

end Entity

namespace Scanner

variable {scanner : Scanner} {data : ByteArray} {instruction : Instruction}
  {padding table : Option Entity}

/-- What is called the padding is padding. -/
theorem Attends.kind_padding (h : scanner.Attends data instruction padding table) :
    ∀ entity ∈ padding, entity.kind = .padding :=
  fun entity hmem => (h.pads.isPadding entity hmem).kind_eq

/-- What is called the table is a jump table. -/
theorem Attends.kind_table (h : scanner.Attends data instruction padding table) :
    ∀ entity ∈ table, entity.kind = .jumpTable := by
  intro entity hmem
  obtain ⟨stop, -, hentity⟩ := h.tabulates.isTable entity hmem
  exact hentity.kind_eq

/-- What belongs to an instruction is found in front of what belongs to none. -/
theorem Attends.nextOf_eq (h : scanner.Attends data instruction padding table) {rest : List Entity}
    (hrest : ∀ entity ∈ rest.head?, entity.kind.isBelonging = false) :
    Entity.paddingOf (padding.toList ++ (table.toList ++ rest)) = padding ∧
      Entity.tableOf (padding.toList ++ (table.toList ++ rest)) = table := by
  have hneither : ∀ entity ∈ rest.head?, entity.kind ≠ .padding ∧ entity.kind ≠ .jumpTable := by
    intro entity hmem
    have hkind := hrest entity hmem
    constructor <;> intro heq <;> simp [heq, EntityKind.isBelonging] at hkind
  have hpadding : Entity.paddingOf (padding.toList ++ (table.toList ++ rest)) = padding := by
    apply Entity.nextOf_append h.kind_padding
    intro entity hmem
    cases table with
    | none => exact (hneither entity hmem).1
    | some found =>
      obtain rfl := Option.some.inj hmem
      simp [h.kind_table found rfl]
  refine ⟨hpadding, ?_⟩
  rw [Entity.tableOf, hpadding, List.drop_left]
  exact Entity.nextOf_append h.kind_table fun entity hmem => (hneither entity hmem).2

/-- Among what belongs to an instruction, padding is the first. -/
theorem Attends.eq_nil_of_padding (h : scanner.Attends data instruction padding table)
    {behind later : List Entity} {entity : Entity}
    (hsplit : padding.toList ++ table.toList = behind ++ entity :: later)
    (hkind : entity.kind = .padding) : behind = [] := by
  rcases split_of_append_eq hsplit with ⟨others, -, htable⟩ | ⟨others, hpadding, -⟩
  · have hmem : entity ∈ table.toList := by simp [htable]
    rw [Option.mem_toList] at hmem
    simp [h.kind_table entity hmem] at hkind
  · exact eq_nil_of_toList_eq hpadding

/-- Among what belongs to an instruction, the jump table is behind the padding. -/
theorem Attends.eq_padding_of_table (h : scanner.Attends data instruction padding table)
    {behind later : List Entity} {entity : Entity}
    (hsplit : padding.toList ++ table.toList = behind ++ entity :: later)
    (hkind : entity.kind = .jumpTable) : behind = padding.toList := by
  rcases split_of_append_eq hsplit with ⟨others, rfl, htable⟩ | ⟨others, hpadding, -⟩
  · rw [eq_nil_of_toList_eq htable, List.append_nil]
  · have hmem : entity ∈ padding.toList := by simp [hpadding]
    rw [Option.mem_toList] at hmem
    simp [h.kind_padding entity hmem] at hkind

end Scanner

section

variable {scanner : Scanner} {data : ByteArray} {front back : List Entity} {entity : Entity}

/-- Behind an instruction that a scan records there are the padding and the jump table that belong
to it, and behind the table there is the candidate up to which it goes. -/
theorem Course.attends (h : Course scanner data none (front ++ entity :: back) none)
    {instruction : Instruction} (hentity : entity.instruction? = some instruction) :
    scanner.registry.get? instruction.signature = some instruction.template ∧
      scanner.Attends data instruction (Entity.paddingOf back) (Entity.tableOf back) ∧
      ∀ table ∈ Entity.tableOf back, ∃ next rest,
        back = (Entity.paddingOf back).toList ++ table :: next :: rest ∧
          next.offset = table.stop := by
  obtain rfl := Entity.eq_toEntity_of_instruction? hentity
  obtain ⟨signature, template, found, rest, -, htemplate, hdecode, heq, rfl, hrest⟩ :=
    h.exists_rest rfl rfl
  obtain rfl : instruction = found := Option.some.inj (congrArg Entity.instruction? heq)
  have hfound := (Instruction.eq_of_decode hdecode).2.1
  obtain ⟨padding, table, hbelongings, hattends⟩ := scanner.exists_belongings data instruction
  have hnext := hattends.nextOf_eq hrest.isBelonging_head?
  rw [hbelongings, List.append_assoc, hnext.1, hnext.2]
  refine ⟨?_, hattends, ?_⟩
  · rw [Instruction.signature, hfound, Registry.signature_of_get? htemplate]
    exact htemplate
  · intro entity hmem
    obtain rfl := Option.mem_def.1 hmem
    obtain ⟨stop, hfirst, htable⟩ := hattends.tabulates.isTable entity rfl
    obtain ⟨candidate, hcandidate⟩ := hfirst.2.1
    have hlast : (instruction.toEntity :: scanner.belongings data instruction).getLast? =
        some entity := by
      rw [hbelongings, Option.toList_some, ← List.cons_append, List.getLast?_concat]
    rw [hlast] at hrest
    -- The table goes up to a candidate, and so what follows it is the entity there.
    have hend : endOf (some entity) = stop := htable.stop_eq
    rw [← hend] at hcandidate
    obtain ⟨next, others, rfl, hoffset, -⟩ := hrest.exists_head hcandidate
    exact ⟨next, others, rfl, hoffset⟩

end

namespace Scanner

/-- Behind an instruction of a script there are its padding and its jump table, exactly when they
have to be there, and behind the table there is the candidate up to which it goes. Nowhere else is
there padding or a jump table. -/
theorem scan_attends {scanner : Scanner} {data : ByteArray} {script : Script}
    (hscan : scanner.scan data = .ok script) {front back : List Entity} {entity : Entity}
    (hsplit : script.entities.toList = front ++ entity :: back) :
    (∀ instruction, entity.instruction? = some instruction →
      scanner.registry.get? instruction.signature = some instruction.template ∧
        scanner.Attends data instruction (Entity.paddingOf back) (Entity.tableOf back) ∧
        ∀ table ∈ Entity.tableOf back, ∃ next rest,
          back = (Entity.paddingOf back).toList ++ table :: next :: rest ∧
            next.offset = table.stop) ∧
      (entity.kind = .padding → ∃ before, ∃ instruction : Instruction,
        front = before ++ [instruction.toEntity]) ∧
      (entity.kind = .jumpTable → ∃ before, ∃ (instruction : Instruction) (padding : Option Entity),
        front = before ++ instruction.toEntity :: padding.toList ∧
          ∀ found ∈ padding, found.kind = .padding) := by
  obtain ⟨entities, hcourse, rfl⟩ := scan_eq_ok_iff.1 hscan
  rw [Script.toList_ofSize_pushAll] at hsplit
  subst hsplit
  refine ⟨fun instruction => hcourse.attends, ?_, ?_⟩
  · intro hkind
    obtain ⟨instruction, before, behind, later, rfl, hlater⟩ :=
      hcourse.exists_owner rfl (by rw [hkind]; rfl)
    obtain ⟨padding, table, hbelongings, hattends⟩ := scanner.exists_belongings data instruction
    rw [hattends.eq_nil_of_padding (hbelongings.symm.trans hlater) hkind]
    exact ⟨before, instruction, rfl⟩
  · intro hkind
    obtain ⟨instruction, before, behind, later, rfl, hlater⟩ :=
      hcourse.exists_owner rfl (by rw [hkind]; rfl)
    obtain ⟨padding, table, hbelongings, hattends⟩ := scanner.exists_belongings data instruction
    rw [hattends.eq_padding_of_table (hbelongings.symm.trans hlater) hkind]
    exact ⟨before, instruction, padding, rfl, hattends.kind_padding⟩

/-- A message that ends between word boundaries and is an indexed jump, with a marker in the padding
and a table of one branch and half a word. -/
theorem scan_attends_switch :
    let scanner := { messages with indexedJump := some 0x25070012 }
    let data : ByteArray := ⟨#[0x25, 7, 0, 0x12, 0x20, 1, 0, 0, 0, 0x20, 2, 0, 0, 0, 0x68, 0x69, 0,
      0x25, 1, 0, 5, 0, 0, 0, 9, 0, 0x25, 1, 0, 0]⟩
    ∃ script instruction padding table back, scanner.scan data = .ok script ∧
      script.entities.toList = [] ++ instruction.toEntity :: back ∧
      Entity.paddingOf back = some padding ∧ Entity.tableOf back = some table ∧
      padding.offset = 17 ∧ padding.zeroesOnly = false ∧ table.offset = 20 ∧
      table.branches = #[5] ∧ scanner.Attends data instruction (some padding) (some table) := by
  intro scanner data
  have hview : (scanner.scan data).toOption.map (fun script =>
      (script.entities.toList.head?.bind Entity.instruction?).map fun instruction =>
        (decide (script.entities.toList =
            instruction.toEntity :: script.entities.toList.tail),
          Entity.paddingOf script.entities.toList.tail,
          Entity.tableOf script.entities.toList.tail)) =
      some (some (true, some ⟨17, ⟨#[0x25, 1, 0]⟩, .padding⟩,
        some ⟨20, ⟨#[5, 0, 0, 0, 9, 0]⟩, .jumpTable⟩)) := by decide +kernel
  obtain ⟨script, hscan, hseen⟩ := Scanner.exists_script hview
  obtain ⟨instruction, -, hseen⟩ := Option.map_eq_some_iff.1 hseen
  obtain ⟨hsame, hseen⟩ := Prod.mk.inj hseen
  obtain ⟨hpadding, htable⟩ := Prod.mk.inj hseen
  have hsplit : script.entities.toList =
      [] ++ instruction.toEntity :: script.entities.toList.tail := of_decide_eq_true hsame
  have hattends := ((scan_attends hscan hsplit).1 instruction rfl).2.1
  rw [hpadding, htable] at hattends
  exact ⟨script, instruction, _, _, _, hscan, hsplit, hpadding, htable, rfl, by decide +kernel,
    rfl, by decide, hattends⟩

end Scanner

end PacScript
