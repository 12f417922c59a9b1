import Mathlib.Data.List.Nodup
import Mathlib.Data.List.TakeWhile
import Std.Data.String.ToNat
import PacScript.Instruction.Lemmas
import PacScript.Proofs.Parameter

/-!
# The names of what a walk finds

A walk names what it finds for a declared parameter after it: by the name itself, or, for the
elements of a sequence, by the name with an index in brackets (`Walk.exists_argument`). A name
without a bracket can be read off both, as what stands in front of the first bracket. So the names
that a walk gives are all different when the declared ones are and have no bracket, whatever the
bytes are (`Template.IsWellNamed.nodup_walk`), and then its parameters form a set.
-/

namespace PacScript.Arguments

/-! ## Names of elements -/

/-- What stands in front of the first bracket of a name. -/
def stem (name : String) : List Char :=
  name.toList.takeWhile (· != '[')

/-- A name without a bracket is its own stem. -/
theorem stem_eq_toList {name : String} (h : '[' ∉ name.toList) : stem name = name.toList := by
  unfold stem
  rw [List.takeWhile_eq_self_iff]
  intro c hc
  have hne : c ≠ '[' := by
    rintro rfl
    exact h hc
  exact bne_iff_ne.2 hne

/-- The elements of a sequence have its name for their stem. -/
theorem stem_elementName {name : String} (h : '[' ∉ name.toList) (index : Nat) :
    stem (elementName name index) = name.toList := by
  have hsplit : (elementName name index).toList =
      name.toList ++ '[' :: ((toString index).toList ++ [']']) := by
    simp [elementName]
  unfold stem
  rw [hsplit, List.takeWhile_append]
  rw [show name.toList.takeWhile (· != '[') = name.toList from stem_eq_toList h]
  simp

/-- The name of an element is not that of its sequence. -/
theorem elementName_ne {name : String} (h : '[' ∉ name.toList) (index : Nat) :
    elementName name index ≠ name := by
  intro heq
  apply h
  rw [← heq]
  simp [elementName]

/-- Elements of different indices have different names. -/
theorem elementName_injective (name : String) : Function.Injective (elementName name) := by
  intro i j heq
  unfold elementName at heq
  rw [String.append_left_inj, String.append_right_inj] at heq
  exact Nat.repr_injective heq

/-- The names of a declared parameter and of the elements that it may have up to some number. -/
def names (name : String) (count : Nat) : List String :=
  name :: (List.range count).map (elementName name)

/-- If a name has no bracket, the elements of its list have different names, none of which is the
name itself. -/
theorem nodup_names {name : String} (h : '[' ∉ name.toList) (count : Nat) :
    (names name count).Nodup := by
  unfold names
  rw [List.nodup_cons]
  refine ⟨?_, List.nodup_range.map (elementName_injective name)⟩
  intro hmem
  obtain ⟨index, -, heq⟩ := List.mem_map.1 hmem
  exact elementName_ne h index heq

/-- All of them have the declared name for their stem. -/
theorem stem_of_mem_names {name other : String} {count : Nat} (h : '[' ∉ name.toList)
    (hmem : other ∈ names name count) : stem other = name.toList := by
  rcases List.mem_cons.1 hmem with rfl | helement
  · exact stem_eq_toList h
  · obtain ⟨index, -, rfl⟩ := List.mem_map.1 helement
    exact stem_elementName h index

/-! ## What a walk finds -/

namespace Walk

/-- The walk has found the given parameters since. -/
def Finds (walk next : Walk) (found : List Parameter) : Prop :=
  next.parameters.toList = walk.parameters.toList ++ found

/-- What is found on the way to a walk and from there on is found in all. -/
theorem Finds.trans {walk middle next : Walk} {front back : List Parameter}
    (hfront : walk.Finds middle front) (hback : middle.Finds next back) :
    walk.Finds next (front ++ back) := by
  unfold Finds at hfront hback ⊢
  rw [hback, hfront, List.append_assoc]

/-- A walk that goes nowhere finds nothing. -/
theorem Finds.refl (walk : Walk) : walk.Finds walk [] :=
  (List.append_nil _).symm

/-- A unit that is taken gives one parameter of the given name, or stops the walk. -/
theorem exists_take (walk : Walk) (name : String) (reading : Reading) :
    ∃ found, walk.Finds (walk.take name reading) found ∧
      (found.map Parameter.name).Sublist [name] := by
  cases reading with
  | complete label value next =>
    exact ⟨[⟨label, name, value⟩], Array.toList_push, List.Sublist.refl _⟩
  | stopped position => exact ⟨[], Finds.refl walk, List.nil_sublist _⟩

/-- A walk over a sequence gives its elements their names in order. -/
theorem exists_sequence (read : Nat → Reading) (name : String) (walk : Walk)
    (index remaining : Nat) :
    ∃ found, walk.Finds (walk.sequence read name index remaining) found ∧
      (found.map Parameter.name).Sublist
        ((List.range' index remaining).map (elementName name)) := by
  induction remaining generalizing walk index with
  | zero => exact ⟨[], Finds.refl walk, List.nil_sublist _⟩
  | succ remaining ih =>
    obtain ⟨first, hfirst, hname⟩ := exists_take walk (elementName name index) (read walk.position)
    rw [List.range'_succ, List.map_cons]
    simp only [sequence]
    split
    · -- The walk was stopped, so the other elements are not looked at.
      exact ⟨first, hfirst, hname.trans (List.singleton_sublist.2 List.mem_cons_self)⟩
    · obtain ⟨rest, hrest, hnames⟩ := ih (walk.take (elementName name index) (read walk.position))
        (index + 1)
      refine ⟨first ++ rest, hfirst.trans hrest, ?_⟩
      rw [List.map_append, ← List.singleton_append]
      exact hname.append hnames

/-- What a walk finds for a declared parameter has names of that parameter, in their order. -/
theorem exists_argument (data : ByteArray) (walk : Walk) (declaration : Declaration) :
    ∃ found count, walk.Finds (walk.argument data declaration) found ∧
      (found.map Parameter.name).Sublist (names declaration.name count) := by
  have htake : ∀ reading, ∃ found count,
      walk.Finds (walk.take declaration.name reading) found ∧
        (found.map Parameter.name).Sublist (names declaration.name count) := by
    intro reading
    obtain ⟨found, hfound, hname⟩ := exists_take walk declaration.name reading
    exact ⟨found, 0, hfound, hname⟩
  have hsequence : ∀ (walk : Walk) read count, ∃ found,
      walk.Finds (walk.sequence read declaration.name 0 count) found ∧
        (found.map Parameter.name).Sublist
          ((List.range count).map (elementName declaration.name)) := by
    intro walk read count
    rw [List.range_eq_range']
    exact exists_sequence read declaration.name walk 0 count
  unfold argument
  dsimp only
  split
  · exact htake _
  · exact htake _
  · exact htake _
  · split
    · exact htake _
    · rename_i count next hcount
      -- The count has the declared name, and the elements have theirs behind it.
      obtain ⟨first, hfirst, hname⟩ := exists_take walk declaration.name
        (.complete countLabel (.int count) next)
      obtain ⟨rest, hrest, hnames⟩ := hsequence (walk.take declaration.name
        (.complete countLabel (.int count) next)) (element data _) count.toNat
      refine ⟨first ++ rest, count.toNat, hfirst.trans hrest, ?_⟩
      rw [List.map_append, names, ← List.singleton_append]
      exact hname.append hnames
  · obtain ⟨found, hfound, hnames⟩ := hsequence walk (fixedWord data .integer)
      ((data.size - walk.position) / 4)
    exact ⟨found, _, hfound, hnames.trans (List.sublist_cons_self _ _)⟩
  · exact htake _
  · exact htake _
  · exact htake _

/-- What a walk finds for declared parameters with different names, none of which has a bracket, has
different names, each with a declared name for its stem. -/
theorem exists_arguments (data : ByteArray) {declarations : List Declaration} (walk : Walk)
    (hnodup : (declarations.map Declaration.name).Nodup)
    (hbracket : ∀ declaration ∈ declarations, '[' ∉ declaration.name.toList) :
    ∃ found, walk.Finds (walk.arguments data declarations) found ∧
      (found.map Parameter.name).Nodup ∧
      ∀ parameter ∈ found, ∃ declaration ∈ declarations,
        stem parameter.name = declaration.name.toList := by
  induction declarations generalizing walk with
  | nil => exact ⟨[], Finds.refl walk, List.nodup_nil, List.forall_mem_nil _⟩
  | cons declaration rest ih =>
    obtain ⟨hfresh, hrest⟩ := List.nodup_cons.1 hnodup
    have hplain := hbracket declaration List.mem_cons_self
    obtain ⟨found, count, hfound, hnames⟩ := exists_argument data walk declaration
    have hdistinct : (found.map Parameter.name).Nodup := (nodup_names hplain count).sublist hnames
    have hstem : ∀ parameter ∈ found, stem parameter.name = declaration.name.toList := by
      intro parameter hmem
      exact stem_of_mem_names hplain (hnames.subset (List.mem_map_of_mem hmem))
    simp only [arguments]
    split
    · refine ⟨found, hfound, hdistinct, ?_⟩
      intro parameter hmem
      exact ⟨declaration, List.mem_cons_self, hstem parameter hmem⟩
    · obtain ⟨others, hothers, hdistinct', hstem'⟩ := ih (walk.argument data declaration) hrest
        fun other hmem => hbracket other (List.mem_cons_of_mem _ hmem)
      refine ⟨found ++ others, hfound.trans hothers, ?_, ?_⟩
      · rw [List.map_append, List.nodup_append]
        refine ⟨hdistinct, hdistinct', ?_⟩
        -- A common name would have two declared names for its stem.
        intro name hname other hother heq
        obtain ⟨parameter, hparameter, rfl⟩ := List.mem_map.1 hname
        obtain ⟨parameter', hparameter', rfl⟩ := List.mem_map.1 hother
        obtain ⟨declared, hdeclared, hstem''⟩ := hstem' parameter' hparameter'
        have hsame : declaration.name = declared.name := by
          rw [← String.toList_inj, ← hstem parameter hparameter, heq, hstem'']
        apply hfresh
        rw [hsame]
        exact List.mem_map_of_mem hdeclared
      · intro parameter hmem
        rcases List.mem_append.1 hmem with hleft | hright
        · exact ⟨declaration, List.mem_cons_self, hstem parameter hleft⟩
        · obtain ⟨declared, hdeclared, hstem''⟩ := hstem' parameter hright
          exact ⟨declared, List.mem_cons_of_mem _ hdeclared, hstem''⟩

end Walk

end PacScript.Arguments

namespace PacScript

/-- The declared parameters have different names, and none of these has a bracket, which is for the
elements of sequences. -/
def Template.IsWellNamed (template : Template) : Prop :=
  (template.parameters.map Declaration.name).Nodup ∧
    ∀ declaration ∈ template.parameters, '[' ∉ declaration.name.toList

instance (template : Template) : Decidable template.IsWellNamed :=
  inferInstanceAs (Decidable (_ ∧ _))

namespace Template.IsWellNamed

variable {template : Template}

/-- A walk over the arguments of a well-named template finds no two parameters of one name. -/
theorem nodup_walk (h : template.IsWellNamed) (data : ByteArray) (offset : Nat) :
    ((template.walk data offset).parameters.toList.map Parameter.name).Nodup := by
  obtain ⟨found, hfound, hdistinct, -⟩ := Arguments.Walk.exists_arguments data
    (Arguments.Walk.start (offset + signatureSize)) h.1 h.2
  have hparameters : (template.walk data offset).parameters.toList = found :=
    Eq.trans hfound (List.nil_append _)
  rw [hparameters]
  exact hdistinct

/-- An instruction with a well-named template is decoded, whatever the bytes are. -/
theorem exists_decode (h : template.IsWellNamed) (data : ByteArray) (offset : Nat) :
    ∃ instruction, Instruction.decode data offset template = .ok instruction := by
  have hkeys : ((template.walk data offset).parameters.toList.map Parameter.key).Nodup := by
    apply List.Nodup.of_map Prod.snd
    rw [List.map_map]
    exact h.nodup_walk data offset
  unfold Instruction.decode
  simp only [ParameterSet.ofList_of_nodup offset hkeys]
  exact ⟨_, rfl⟩

end Template.IsWellNamed

end PacScript
