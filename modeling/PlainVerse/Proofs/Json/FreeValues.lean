import PlainVerse.Json.Reader
import PlainVerse.Proofs.Json.Lexing
import PlainVerse.Proofs.Traversal

/-!
# Values of any shape

A value that is read without a fixed shape has its members sorted by name, one for each name, and
its integers fit into 64 bits. Every such value without floating-point numbers is read back from
its tree, if the tree is not nested too deep; of any other value the members are sorted.
-/
namespace PlainVerse.Json

/-- Names go up from member to member. -/
def SortedByName {α : Type} (members : List (String × α)) : Prop :=
  members.Pairwise fun first second => first.1 < second.1

instance {α : Type} (members : List (String × α)) : Decidable (SortedByName members) :=
  inferInstanceAs (Decidable (members.Pairwise fun first second => first.1 < second.1))

theorem mem_insertMember {name : String} {value : Json} {members : List (String × Json)}
    {member : String × Json} (mem : member ∈ insertMember name value members) :
    member = (name, value) ∨ member ∈ members := by
  induction members with
  | nil => exact Or.inl (List.mem_singleton.1 mem)
  | cons first rest ih =>
      rw [insertMember] at mem
      split at mem
      · exact List.mem_cons.1 mem
      · split at mem
        · rcases List.mem_cons.1 mem with new | later
          · exact Or.inl new
          · exact Or.inr (List.mem_cons_of_mem _ later)
        · rcases List.mem_cons.1 mem with here | later
          · exact Or.inr (here ▸ List.mem_cons_self)
          · rcases ih later with new | old
            · exact Or.inl new
            · exact Or.inr (List.mem_cons_of_mem _ old)

theorem sortedByName_insertMember (name : String) (value : Json) {members : List (String × Json)}
    (sorted : SortedByName members) : SortedByName (insertMember name value members) := by
  induction members with
  | nil => exact List.pairwise_singleton _ _
  | cons first rest ih =>
      obtain ⟨lower, later⟩ := List.pairwise_cons.1 sorted
      rw [insertMember]
      split
      · rename_i before
        refine List.pairwise_cons.2 ⟨?_, sorted⟩
        intro member mem
        rcases List.mem_cons.1 mem with rfl | after
        · exact before
        · exact String.lt_trans before (lower member after)
      · rename_i notBefore
        split
        · rename_i same
          subst same
          exact List.pairwise_cons.2 ⟨lower, later⟩
        · rename_i other
          refine List.pairwise_cons.2 ⟨?_, ih later⟩
          intro member mem
          rcases mem_insertMember mem with rfl | old
          · by_contra notAfter
            exact other (String.le_antisymm (String.not_lt.1 notAfter) (String.not_lt.1 notBefore))
          · exact lower member old

/-- A name that comes after all others is put at the end. -/
theorem insertMember_last {name : String} (value : Json) {members : List (String × Json)}
    (last : ∀ member ∈ members, member.1 < name) :
    insertMember name value members = members ++ [(name, value)] := by
  induction members with
  | nil => rfl
  | cons first rest ih =>
      obtain ⟨here, later⟩ := List.forall_mem_cons.1 last
      have notBefore : ¬ name < first.1 := fun before =>
        String.lt_irrefl _ (String.lt_trans before here)
      have other : ¬ name = first.1 := fun same => String.lt_irrefl _ (same ▸ here)
      rw [insertMember, if_neg notBefore, if_neg other, ih later, List.cons_append]

theorem sortedByName_sortMembers (members : List (String × Json)) :
    SortedByName (sortMembers members) := by
  rw [sortMembers]
  have start : SortedByName ([] : List (String × Json)) := List.Pairwise.nil
  generalize ([] : List (String × Json)) = sorted at start
  induction members generalizing sorted with
  | nil => exact start
  | cons member rest ih => exact ih _ (sortedByName_insertMember member.1 member.2 start)

theorem mem_sortMembers {members : List (String × Json)} {member : String × Json}
    (mem : member ∈ sortMembers members) : member ∈ members := by
  have general : ∀ sorted : List (String × Json),
      member ∈ members.foldl (fun sorted member => insertMember member.1 member.2 sorted) sorted →
        member ∈ sorted ∨ member ∈ members := by
    clear mem
    induction members with
    | nil => exact fun _ => Or.inl
    | cons first rest ih =>
        intro sorted mem
        rcases ih _ mem with inserted | later
        · rcases mem_insertMember inserted with rfl | old
          · exact Or.inr List.mem_cons_self
          · exact Or.inl old
        · exact Or.inr (List.mem_cons_of_mem _ later)
  exact (general [] mem).resolve_left List.not_mem_nil

theorem sortMembers_eq_self {members : List (String × Json)} (sorted : SortedByName members) :
    sortMembers members = members := by
  have general : ∀ before : List (String × Json), SortedByName (before ++ members) →
      members.foldl (fun sorted member => insertMember member.1 member.2 sorted) before =
        before ++ members := by
    clear sorted
    induction members with
    | nil => exact fun before _ => (List.append_nil before).symm
    | cons first rest ih =>
        intro before sorted
        have last : ∀ member ∈ before, member.1 < first.1 := fun member mem =>
          (List.pairwise_append.1 sorted).2.2 member mem first List.mem_cons_self
        rw [List.foldl_cons, insertMember_last _ last, ih, List.append_assoc,
          List.singleton_append]
        rwa [List.append_assoc, List.singleton_append]
  exact general [] sorted

/-- An integer has to fit into 64 bits. -/
def InRange : Json → Prop
  | .number (.int n) => Fits n
  | _ => True

instance : DecidablePred InRange
  | .number (.int n) => inferInstanceAs (Decidable (Fits n))
  | .number (.float _) => isTrue trivial
  | .null | .bool _ | .string _ | .array _ | .object _ => isTrue trivial

/-- The members of an object are sorted. -/
def IsSorted : Json → Prop
  | .object members => SortedByName members
  | _ => True

instance : DecidablePred IsSorted
  | .object members => inferInstanceAs (Decidable (SortedByName members))
  | .null | .bool _ | .number _ | .string _ | .array _ => isTrue trivial

mutual

/-- A value with all members sorted. -/
def sorted : Json → Json
  | .array items => .array (sortedItems items)
  | .object members => .object (sortMembers (sortedMembers members))
  | json => json

def sortedItems : List Json → List Json
  | [] => []
  | item :: rest => item.sorted :: sortedItems rest

def sortedMembers : List (String × Json) → List (String × Json)
  | [] => []
  | (name, value) :: rest => (name, value.sorted) :: sortedMembers rest

end

theorem sorted_array (items : List Json) :
    (Json.array items).sorted = .array (items.map sorted) := by
  rw [sorted]
  congr 1
  induction items with
  | nil => rfl
  | cons item rest ih => rw [sortedItems, ih, List.map_cons]

theorem sorted_object (members : List (String × Json)) :
    (Json.object members).sorted =
      .object (sortMembers (members.map fun member => (member.1, member.2.sorted))) := by
  rw [sorted]
  congr 2
  induction members with
  | nil => rfl
  | cons member rest ih =>
      obtain ⟨name, value⟩ := member
      rw [sortedMembers, ih, List.map_cons]

theorem sorted_eq_self {json : Json} (h : json.All IsSorted) : json.sorted = json := by
  induction json using Json.induct with
  | null | bool | number | string => rfl
  | array items ih =>
      obtain ⟨-, later⟩ := all_array.1 h
      have same : items.map sorted = items.map id :=
        List.map_congr_left fun item mem => ih item mem (later item mem)
      rw [sorted_array, same, List.map_id]
  | object members ih =>
      obtain ⟨here, later⟩ := all_object.1 h
      have same : (members.map fun member => (member.1, member.2.sorted)) = members.map id :=
        List.map_congr_left fun member mem =>
          congrArg (Prod.mk member.1) (ih member mem (later member mem))
      rw [sorted_object, same, List.map_id, sortMembers_eq_self here]

/-- A tree that is not too deep is read as its value with all members sorted. -/
theorem ofWritten?_written {json : Json} (exactly : json.All NoFloat) (fits : json.All InRange)
    {room : Nat} (shallow : json.depth ≤ room) :
    ofWritten? room json.written = some json.sorted := by
  induction json using Json.induct generalizing room with
  | null => cases room <;> rfl
  | bool b => cases room <;> rfl
  | number n =>
      cases n with
      | int n =>
          have value := value?_numeral (fits _ List.mem_cons_self)
          cases room <;> rw [written, ofWritten?, value] <;> rfl
      | float x => exact absurd (exactly _ List.mem_cons_self) id
  | string s => cases room <;> rw [written, ofWritten?, string?_piecesOf] <;> rfl
  | array items ih =>
      rw [all_array] at exactly fits
      cases room with
      | zero => exact absurd shallow (Nat.not_succ_le_zero _)
      | succ room =>
          rw [depth_array_le] at shallow
          have each : ∀ item ∈ items, ofWritten? room item.written = some item.sorted :=
            fun item mem => ih item mem (exactly.2 item mem) (fits.2 item mem) (shallow item mem)
          rw [written_array, ofWritten?, mapM_map_eq_some each, sorted_array]
          rfl
  | object members ih =>
      rw [all_object] at exactly fits
      cases room with
      | zero => exact absurd shallow (Nat.not_succ_le_zero _)
      | succ room =>
          rw [depth_object_le] at shallow
          rw [written_object, ofWritten?, sorted_object,
            mapM_map_eq_some (g := fun member : String × Json => (member.1, member.2.sorted))]
          · rfl
          · intro member mem
            have value := ih member mem (exactly.2 member mem) (fits.2 member mem)
              (shallow member mem)
            simp only [string?_piecesOf, value]
            rfl

/-- A value that may be read without a fixed shape. -/
structure IsFree (json : Json) : Prop where
  inRange : json.All InRange
  isSorted : json.All IsSorted

instance (json : Json) : Decidable json.IsFree :=
  decidable_of_iff (json.All InRange ∧ json.All IsSorted)
    ⟨fun h => ⟨h.1, h.2⟩, fun h => ⟨h.inRange, h.isSorted⟩⟩

theorem isFree_scalar {json : Json} (alone : json.parts = [json]) (inRange : json.InRange)
    (isSorted : json.IsSorted) : json.IsFree := by
  constructor
  · rw [All, alone]
    exact List.forall_mem_singleton.2 inRange
  · rw [All, alone]
    exact List.forall_mem_singleton.2 isSorted

/-- Whatever is read is sorted and in range, and fits into the room that was given. -/
theorem isFree_of_ofWritten? {room : Nat} {tree : Written} {json : Json}
    (h : ofWritten? room tree = some json) : json.IsFree ∧ json.depth ≤ room := by
  induction tree using Written.induct generalizing room json with
  | null =>
      have value : Json.null = json := by cases room <;> exact Option.some.inj h
      subst value
      exact ⟨isFree_scalar rfl trivial trivial, Nat.zero_le _⟩
  | bool b =>
      have value : Json.bool b = json := by cases room <;> exact Option.some.inj h
      subst value
      exact ⟨isFree_scalar rfl trivial trivial, Nat.zero_le _⟩
  | number numeral =>
      have found : numeral.value?.map .number = some json := by cases room <;> exact h
      obtain ⟨n, value, rfl⟩ := Option.map_eq_some_iff.1 found
      refine ⟨isFree_scalar rfl ?_ trivial, Nat.zero_le _⟩
      cases n with
      | int n => exact fits_of_value? value
      | float x => trivial
  | string pieces =>
      have found : (string? pieces).map .string = some json := by cases room <;> exact h
      obtain ⟨text, -, rfl⟩ := Option.map_eq_some_iff.1 found
      exact ⟨isFree_scalar rfl trivial trivial, Nat.zero_le _⟩
  | array items ih =>
      cases room with
      | zero => cases h
      | succ room =>
          obtain ⟨values, read, rfl⟩ := Option.map_eq_some_iff.1 h
          have each : ∀ value ∈ values, value.IsFree ∧ value.depth ≤ room := by
            intro value mem
            obtain ⟨item, inside, here⟩ := exists_of_mapM_eq_some read value mem
            exact ih item inside here
          exact ⟨⟨all_array.2 ⟨trivial, fun value mem => (each value mem).1.inRange⟩,
            all_array.2 ⟨trivial, fun value mem => (each value mem).1.isSorted⟩⟩,
            depth_array_le.2 fun value mem => (each value mem).2⟩
  | object members ih =>
      cases room with
      | zero => cases h
      | succ room =>
          obtain ⟨values, read, h⟩ := Option.bind_eq_some_iff.1 h
          cases h
          have each : ∀ value ∈ sortMembers values, value.2.IsFree ∧ value.2.depth ≤ room := by
            intro value mem
            obtain ⟨member, inside, found⟩ :=
              exists_of_mapM_eq_some read value (mem_sortMembers mem)
            obtain ⟨name, -, later⟩ := Option.bind_eq_some_iff.1 found
            obtain ⟨json, here, same⟩ := Option.bind_eq_some_iff.1 later
            cases same
            exact ih member inside here
          exact ⟨⟨all_object.2 ⟨trivial, fun value mem => (each value mem).1.inRange⟩,
            all_object.2 ⟨sortedByName_sortMembers values,
              fun value mem => (each value mem).1.isSorted⟩⟩,
            depth_object_le.2 fun value mem => (each value mem).2⟩

/-- A free value without floating-point numbers is read back from its tree. -/
theorem IsFree.ofWritten?_written {json : Json} (free : json.IsFree) (exactly : json.All NoFloat)
    {room : Nat} (shallow : json.depth ≤ room) : ofWritten? room json.written = some json := by
  rw [Json.ofWritten?_written exactly free.inRange shallow, sorted_eq_self free.isSorted]

end PlainVerse.Json
