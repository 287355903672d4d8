import PlainVerse.Proofs.Json.FreeValues
import PlainVerse.Proofs.Json.Parsing

/-!
# Records, lists and maps

What the readers make of the tree of a value: a record finds the member of each name, a list reads
its items and a map reads its members. The other way round, whatever a reader has found stands one
level deeper in the tree.
-/
namespace PlainVerse

namespace OrderedMap
variable {α : Type}

theorem put_of_not_mem {key : String} (value : α) {entries : List (String × α)}
    (absent : key ∉ entries.map Prod.fst) : put key value entries = entries ++ [(key, value)] := by
  induction entries with
  | nil => rfl
  | cons entry rest ih =>
      rw [List.map_cons, List.mem_cons, not_or] at absent
      rw [put, if_neg (Ne.symm absent.1), ih absent.2, List.cons_append]

theorem mem_put {key : String} {value : α} {entries : List (String × α)} {entry : String × α}
    (mem : entry ∈ put key value entries) : entry = (key, value) ∨ entry ∈ entries := by
  induction entries with
  | nil => exact Or.inl (List.mem_singleton.1 mem)
  | cons first rest ih =>
      rw [put] at mem
      split at mem
      · rcases List.mem_cons.1 mem with new | later
        · exact Or.inl new
        · exact Or.inr (List.mem_cons_of_mem _ later)
      · rcases List.mem_cons.1 mem with here | later
        · exact Or.inr (here ▸ List.mem_cons_self)
        · rcases ih later with new | old
          · exact Or.inl new
          · exact Or.inr (List.mem_cons_of_mem _ old)

theorem ext {first second : OrderedMap α} (h : first.entries = second.entries) :
    first = second := by
  cases first
  cases second
  cases h
  rfl

/-- A map is made of its own entries. -/
theorem ofList_entries (map : OrderedMap α) : ofList map.entries = map := by
  have general : ∀ (rest : List (String × α)) (start : OrderedMap α),
      ((start.entries ++ rest).map Prod.fst).Nodup →
        (rest.foldl (fun map entry => map.insert entry.1 entry.2) start).entries =
          start.entries ++ rest := by
    intro rest
    induction rest with
    | nil => exact fun start _ => (List.append_nil _).symm
    | cons entry rest ih =>
        intro start distinct
        have absent : entry.1 ∉ start.entries.map Prod.fst := by
          rw [List.map_append, List.nodup_append] at distinct
          exact fun mem => distinct.2.2 _ mem _ List.mem_cons_self rfl
        have next : (start.insert entry.1 entry.2).entries = start.entries ++ [entry] :=
          put_of_not_mem entry.2 absent
        rw [List.foldl_cons, ih, next, List.append_assoc, List.singleton_append]
        rwa [next, List.append_assoc, List.singleton_append]
  exact ext (general map.entries .empty map.distinct)

theorem mem_ofList {entries : List (String × α)} {entry : String × α}
    (mem : entry ∈ (ofList entries).entries) : entry ∈ entries := by
  have general : ∀ start : OrderedMap α,
      entry ∈ (entries.foldl (fun map entry => map.insert entry.1 entry.2) start).entries →
        entry ∈ start.entries ∨ entry ∈ entries := by
    clear mem
    induction entries with
    | nil => exact fun _ => Or.inl
    | cons first rest ih =>
        intro start mem
        rcases ih _ mem with inserted | later
        · rcases mem_put inserted with rfl | old
          · exact Or.inr List.mem_cons_self
          · exact Or.inl old
        · exact Or.inr (List.mem_cons_of_mem _ later)
  exact (general .empty mem).resolve_left List.not_mem_nil

end OrderedMap

namespace Json

namespace Reader
variable {α : Type} {read : Reader α} {toJson : α → Json}

theorem text_written (room : Nat) (s : String) : text room (Json.string s).written = some s := by
  rw [written, text, string?_piecesOf]

theorem natural_written {bound n : Nat} (small : n < bound) (limit : bound ≤ UInt64.size)
    (room : Nat) : natural bound room (Json.ofNat n).written = some n := by
  have value : (Number.int n).numeral.value? = some (.int n) :=
    value?_numeral (fits_ofNat (Nat.lt_of_lt_of_le small limit))
  have inside : (0 : Int) ≤ n ∧ (n : Int) < bound := by omega
  rw [ofNat, written, natural, value]
  simp only [inside, and_self, if_true, Int.toNat_natCast]

theorem list_written {items : List α} {room : Nat}
    (each : ∀ item ∈ items, ∀ room, (toJson item).depth ≤ room →
      read room (toJson item).written = some item)
    (shallow : (Json.array (items.map toJson)).depth ≤ room) :
    list read room (Json.array (items.map toJson)).written = some items := by
  cases room with
  | zero => exact absurd shallow (Nat.not_succ_le_zero _)
  | succ room =>
      rw [depth_array_le, List.forall_mem_map] at shallow
      have all : (items.map (written ∘ toJson)).mapM (read room) = some (items.map id) :=
        mapM_map_eq_some fun item mem => each item mem room (shallow item mem)
      rw [written_array, List.map_map, list, all, List.map_id]

theorem members_written (members : List (String × Json)) (room : Nat) :
    Reader.members (room + 1) (Json.object members).written =
      some (members.map fun member => (member.1, member.2.written)) := by
  rw [written_object, Reader.members]
  apply mapM_map_eq_some
  intro member _
  exact congrArg (Option.map (·, member.2.written)) (string?_piecesOf member.1)

theorem map_written {map : OrderedMap α} {room : Nat}
    (each : ∀ entry ∈ map.entries, read room (toJson entry.2).written = some entry.2) :
    Reader.map read (room + 1)
      (Json.object (map.entries.map fun entry => (entry.1, toJson entry.2))).written =
        some map := by
  have values : (map.entries.map fun entry => (entry.1, (toJson entry.2).written)).mapM
      (fun member : String × Written => (read room member.2).map (member.1, ·)) =
        some (map.entries.map id) := by
    apply mapM_map_eq_some
    intro entry mem
    rw [each entry mem]
    rfl
  have members := members_written (map.entries.map fun entry => (entry.1, toJson entry.2)) room
  rw [List.map_map] at members
  rw [written_object] at members ⊢
  rw [Reader.map, members]
  change ((map.entries.map fun entry => (entry.1, (toJson entry.2).written)).mapM
      (fun member : String × Written => (read room member.2).map (member.1, ·))).bind _ = _
  rw [values, Option.bind_some, List.map_id, OrderedMap.ofList_entries]

end Reader

namespace Record
variable {α : Type} {read : Reader α} {members : List (String × Json)} {room : Nat}
  {name : String}

/-- The record that an object with the given members is read as. -/
def ofMembers (members : List (String × Json)) (room : Nat) : Record :=
  ⟨members.map fun member => (member.1, member.2.written), room⟩

theorem ofWritten?_written (members : List (String × Json)) (room : Nat) :
    Record.ofWritten? (room + 1) (Json.object members).written = some (ofMembers members room) := by
  rw [Record.ofWritten?, Reader.members_written]
  rfl

theorem ofNamed?_written (names : List String) (members : List (String × Json)) (room : Nat) :
    ofNamed? names (room + 1) (Json.object members).written = some (ofMembers members room) := by
  have object := ofWritten?_written members room
  rw [written_object] at object ⊢
  exact object

/-- Of members with distinct names at most one has a given name. -/
theorem filter_eq_lookup {members : List (String × Written)}
    (distinct : (members.map Prod.fst).Nodup) (name : String) :
    members.filter (·.1 = name) = ((members.lookup name).map (name, ·)).toList := by
  induction members with
  | nil => rfl
  | cons member rest ih =>
      obtain ⟨other, value⟩ := member
      obtain ⟨alone, later⟩ := List.nodup_cons.1 distinct
      by_cases same : other = name
      · subst same
        have none : rest.filter (·.1 = other) = [] := by
          rw [List.filter_eq_nil_iff]
          intro member mem found
          have inside : member.1 ∈ rest.map Prod.fst := List.mem_map_of_mem mem
          rw [of_decide_eq_true found] at inside
          exact alone inside
        rw [List.filter_cons_of_pos (by simp), none, List.lookup_cons_self]
        rfl
      · have test : (name == other) = false := beq_eq_false_iff_ne.2 (Ne.symm same)
        rw [List.filter_cons_of_neg (by simpa using same), ih later, List.lookup_cons, test]

theorem lookup_written (members : List (String × Json)) (name : String) :
    (members.map fun member => (member.1, member.2.written)).lookup name =
      (members.lookup name).map written := by
  induction members with
  | nil => rfl
  | cons member rest ih =>
      obtain ⟨other, value⟩ := member
      rw [List.map_cons, List.lookup_cons, List.lookup_cons, ih]
      cases name == other <;> rfl

section
variable (distinct : (members.map Prod.fst).Nodup)
include distinct

theorem member?_ofMembers :
    (ofMembers members room).member? name = some ((members.lookup name).map written) := by
  have names : ((members.map fun member => (member.1, member.2.written)).map Prod.fst).Nodup := by
    rwa [List.map_map]
  rw [member?, ofMembers, filter_eq_lookup names, lookup_written]
  cases members.lookup name <;> rfl

theorem required_ofMembers {json : Json} (found : members.lookup name = some json) :
    (ofMembers members room).required name read = read room json.written := by
  rw [required, member?_ofMembers distinct, found]
  rfl

theorem required_eq_none (missing : members.lookup name = none) :
    (ofMembers members room).required name read = none := by
  rw [required, member?_ofMembers distinct, missing]
  rfl

theorem withDefault_ofMembers {json : Json} {default : α}
    (found : members.lookup name = some json) :
    (ofMembers members room).withDefault name default read = read room json.written := by
  rw [withDefault, member?_ofMembers distinct, found]
  rfl

/-- A member that is left out when it has no value, and is never null. -/
theorem optional_ofMembers {toJson : α → Json} {value : Option α}
    (found : members.lookup name = value.map toJson) (solid : ∀ a, (toJson a).written ≠ .null)
    (back : ∀ a ∈ value, read room (toJson a).written = some a) :
    (ofMembers members room).optional name read = some value := by
  rw [optional, withDefault, member?_ofMembers distinct, found]
  cases value with
  | none => rfl
  | some a =>
      change read.nullable room (toJson a).written = _
      rw [Reader.nullable, back a rfl]
      · rfl
      · exact solid a

theorem optional_text {value : Option String} (found : members.lookup name = value.map string) :
    (ofMembers members room).optional name Reader.text = some value :=
  optional_ofMembers distinct found (fun _ => by simp [written]) fun text _ =>
    Reader.text_written room text

end

variable {record : Record} {value : Written}

/-- Whatever stands in a record is one level deeper than the record. -/
theorem depth_of_ofWritten? (h : Record.ofWritten? room value = some record) {n : Nat}
    (shallow : value.depth ≤ n) :
    ∃ k, n = k + 1 ∧ room = record.room + 1 ∧ ∀ member ∈ record.members, member.2.depth ≤ k := by
  cases room with
  | zero => cases h
  | succ room =>
      obtain ⟨members, read, rfl⟩ := Option.map_eq_some_iff.1 h
      cases value with
      | object entries =>
          cases n with
          | zero => exact absurd shallow (Nat.not_succ_le_zero _)
          | succ k =>
              rw [Written.depth_object_le] at shallow
              refine ⟨k, rfl, rfl, ?_⟩
              intro member mem
              obtain ⟨entry, inside, named⟩ := exists_of_mapM_eq_some read member mem
              obtain ⟨name, -, rfl⟩ := Option.map_eq_some_iff.1 named
              exact shallow entry inside
      | _ => cases read

theorem depth_of_ofNamed? {names : List String} (h : ofNamed? names room value = some record)
    {n : Nat} (shallow : value.depth ≤ n) :
    ∃ k, n = k + 1 ∧ room = record.room + 1 ∧ ∀ member ∈ record.members, member.2.depth ≤ k := by
  unfold ofNamed? at h
  split at h
  · rename_i room items
    obtain ⟨-, named⟩ := Option.ite_none_right_eq_some.1 h
    cases named
    cases n with
    | zero => exact absurd shallow (Nat.not_succ_le_zero _)
    | succ k =>
        rw [Written.depth_array_le] at shallow
        exact ⟨k, rfl, rfl, fun member mem => shallow member.2 (List.of_mem_zip mem).2⟩
  · exact depth_of_ofWritten? h shallow

theorem exists_of_member? {tree : Written} (h : record.member? name = some (some tree)) :
    ∃ member ∈ record.members, member.2 = tree := by
  unfold member? at h
  split at h
  · cases h
  · rename_i key value only
    cases h
    have mem : (key, tree) ∈ record.members.filter (·.1 = name) := by
      rw [only]
      exact List.mem_singleton_self _
    exact ⟨_, (List.mem_filter.1 mem).1, rfl⟩
  · cases h

theorem exists_of_required {a : α} (h : record.required name read = some a) :
    ∃ member ∈ record.members, read record.room member.2 = some a := by
  obtain ⟨found, member, h⟩ := Option.bind_eq_some_iff.1 h
  cases found with
  | none => cases h
  | some tree =>
      obtain ⟨entry, mem, rfl⟩ := exists_of_member? member
      exact ⟨entry, mem, h⟩

theorem exists_of_withDefault {a default : α}
    (h : record.withDefault name default read = some a) :
    a = default ∨ ∃ member ∈ record.members, read record.room member.2 = some a := by
  obtain ⟨found, member, h⟩ := Option.bind_eq_some_iff.1 h
  cases found with
  | none => exact Or.inl (Option.some.inj h).symm
  | some tree =>
      obtain ⟨entry, mem, rfl⟩ := exists_of_member? member
      exact Or.inr ⟨entry, mem, h⟩

theorem exists_of_optional {a : α} (h : record.optional name read = some (some a)) :
    ∃ member ∈ record.members, read record.room member.2 = some a := by
  rcases exists_of_withDefault h with missing | ⟨member, mem, found⟩
  · cases missing
  · refine ⟨member, mem, ?_⟩
    unfold Reader.nullable at found
    split at found
    · cases found
    · simpa using found

end Record

namespace Reader
variable {α : Type} {read : Reader α} {room : Nat} {value : Written}

theorem exists_of_list {items : List α} (h : list read room value = some items) {n : Nat}
    (shallow : value.depth ≤ n) :
    ∃ r k, room = r + 1 ∧ n = k + 1 ∧
      ∀ item ∈ items, ∃ tree : Written, tree.depth ≤ k ∧ read r tree = some item := by
  unfold list at h
  split at h
  · rename_i room trees
    cases n with
    | zero => exact absurd shallow (Nat.not_succ_le_zero _)
    | succ k =>
        rw [Written.depth_array_le] at shallow
        refine ⟨room, k, rfl, rfl, ?_⟩
        intro item mem
        obtain ⟨tree, inside, found⟩ := exists_of_mapM_eq_some h item mem
        exact ⟨tree, shallow tree inside, found⟩
  · cases h

theorem exists_of_map {map : OrderedMap α} (h : Reader.map read room value = some map) :
    ∃ r, room = r + 1 ∧ ∀ entry ∈ map.entries, ∃ tree, read r tree = some entry.2 := by
  unfold Reader.map at h
  split at h
  · rename_i room members
    obtain ⟨named, -, h⟩ := Option.bind_eq_some_iff.1 h
    obtain ⟨entries, values, h⟩ := Option.bind_eq_some_iff.1 h
    cases h
    refine ⟨room, rfl, ?_⟩
    intro entry mem
    obtain ⟨member, -, found⟩ := exists_of_mapM_eq_some values entry (OrderedMap.mem_ofList mem)
    obtain ⟨a, here, rfl⟩ := Option.map_eq_some_iff.1 found
    exact ⟨member.2, here⟩
  · cases h

end Reader

theorem all_textMap {p : Json → Prop} (object : ∀ members, p (.object members))
    (string : ∀ s, p (.string s)) (map : OrderedMap String) : (textMap map).All p := by
  rw [textMap, all_object, List.forall_mem_map]
  exact ⟨object _, fun entry _ => List.forall_mem_singleton.2 (string entry.2)⟩

theorem noFloat_string (s : String) : (Json.string s).All NoFloat :=
  List.forall_mem_singleton.2 trivial

theorem noFloat_textMap (map : OrderedMap String) : (textMap map).All NoFloat :=
  all_textMap (fun _ => trivial) (fun _ => trivial) map

theorem depth_textMap (map : OrderedMap String) : (textMap map).depth = 1 := by
  apply Nat.le_antisymm
  · rw [textMap, depth_object_le]
    intro member mem
    obtain ⟨entry, -, rfl⟩ := List.mem_map.1 mem
    exact Nat.le_refl 0
  · exact Nat.succ_le_succ (Nat.zero_le _)

theorem Reader.textMap_written (map : OrderedMap String) {room : Nat} (enough : 1 ≤ room) :
    Reader.map Reader.text room (textMap map).written = some map := by
  obtain ⟨room, rfl⟩ := Nat.exists_eq_add_of_le' enough
  exact Reader.map_written fun entry _ => Reader.text_written room entry.2

section
variable {map : OrderedMap Json} {room : Nat}

theorem Reader.freeMap_written (free : ∀ member ∈ map.entries, member.2.IsFree)
    (exactly : ∀ member ∈ map.entries, member.2.All NoFloat)
    (shallow : (Json.object map.entries).depth ≤ room) :
    Reader.map Json.ofWritten? room (Json.object map.entries).written = some map := by
  cases room with
  | zero => exact absurd shallow (Nat.not_succ_le_zero _)
  | succ room =>
      rw [depth_object_le] at shallow
      have back : ∀ entry ∈ map.entries,
          Json.ofWritten? room (id entry.2).written = some entry.2 := fun entry mem =>
        (free entry mem).ofWritten?_written (exactly entry mem) (shallow entry mem)
      have found := Reader.map_written back
      rwa [show (map.entries.map fun entry => (entry.1, id entry.2)) = map.entries from
        List.map_id map.entries] at found

theorem Reader.isFree_of_freeMap {tree : Written}
    (h : Reader.map Json.ofWritten? room tree = some map) :
    (∀ member ∈ map.entries, member.2.IsFree) ∧ (Json.object map.entries).depth ≤ room := by
  obtain ⟨room, rfl, each⟩ := Reader.exists_of_map h
  have facts : ∀ member ∈ map.entries, member.2.IsFree ∧ member.2.depth ≤ room := by
    intro member mem
    obtain ⟨tree, found⟩ := each member mem
    exact isFree_of_ofWritten? found
  exact ⟨fun member mem => (facts member mem).1,
    depth_object_le.2 fun member mem => (facts member mem).2⟩

end

/-- Both written forms of a value are read as `a`. -/
def ReadsBack {α : Type} (read : String → Option α) (json : Json) (a : α) : Prop :=
  read json.compact = some a ∧ read json.pretty = some a

theorem readsBack_of_render {α : Type} {read : String → Option α} {json : Json} {a : α}
    (h : ∀ {layout : Layout}, layout.Blank → read (json.render layout) = some a) :
    ReadsBack read json a :=
  ⟨h Layout.blank_compact, h Layout.blank_pretty⟩

/-- A text is read back if the value is read back from its tree. -/
theorem Reader.run_render {α : Type} {read : Reader α} {layout : Layout} (blank : layout.Blank)
    {json : Json} (exactly : json.All NoFloat) :
    read.run (json.render layout) = read depthLimit json.written := by
  rw [Reader.run, Written.read?_render blank exactly, Option.bind_some]

end Json
end PlainVerse
