import PlainVerse.Proofs.Json.Records

/-!
# Values as they are written

The value of a tree keeps the members of every object in the order in which they are written, also
those with the same name. All that a reader makes of a tree within the nesting limit depends on
this value alone, so what is read can be told from values. An edit of an object changes the order
of its members, adds a member that the object does not own, or edits an item of one of its lists.
-/
namespace PlainVerse.Json

/-- A member with its name read, given how values are read. -/
def memberWith? (value? : Written → Option Json) (member : List Piece × Written) :
    Option (String × Json) := do
  let key ← string? member.1
  let value ← value? member.2
  some (key, value)

/-- The value of a tree, with all members in the order in which they are written. -/
def asWritten? : (room : Nat) → Written → Option Json
  | _, .null => some .null
  | _, .bool b => some (.bool b)
  | _, .number n => n.value?.map .number
  | _, .string s => (string? s).map .string
  | 0, .array _ => none
  | 0, .object _ => none
  | room + 1, .array items => (items.mapM (asWritten? room)).map .array
  | room + 1, .object members =>
      (members.mapM (memberWith? (asWritten? room))).map .object

/-- The value of a text that is valid and not nested too deep. -/
def valueOf? (text : String) : Option Json := (Written.read? text).bind (asWritten? depthLimit)

@[simp]
theorem asWritten?_null (room : Nat) : asWritten? room .null = some .null := by
  cases room <;> rfl

@[simp]
theorem asWritten?_bool (room : Nat) (b : Bool) : asWritten? room (.bool b) = some (.bool b) := by
  cases room <;> rfl

@[simp]
theorem asWritten?_number (room : Nat) (numeral : Numeral) :
    asWritten? room (.number numeral) = numeral.value?.map .number := by
  cases room <;> rfl

@[simp]
theorem asWritten?_string (room : Nat) (pieces : List Piece) :
    asWritten? room (.string pieces) = (string? pieces).map .string := by
  cases room <;> rfl

theorem memberWith?_map (value? : Written → Option Json) (g : Json → Json) :
    memberWith? (fun tree => (value? tree).map g) =
      fun member => (memberWith? value? member).map fun named => (named.1, g named.2) := by
  funext member
  simp only [memberWith?]
  cases string? member.1 with
  | none => rfl
  | some key => cases value? member.2 <;> rfl

theorem ofWritten?_object (room : Nat) (members : List (List Piece × Written)) :
    ofWritten? (room + 1) (.object members) =
      (members.mapM (memberWith? (ofWritten? room))).map fun values =>
        .object (sortMembers values) := by
  change Option.bind _ _ = _
  exact Option.map_eq_bind.symm

/-- A value of any shape is the value as it is written, with its members sorted. -/
theorem ofWritten?_eq_map_sorted (room : Nat) :
    ofWritten? room = fun tree => (asWritten? room tree).map sorted := by
  induction room with
  | zero =>
      funext tree
      cases tree with
      | number numeral => exact (Option.map_map sorted Json.number numeral.value?).symm
      | string pieces => exact (Option.map_map sorted Json.string (string? pieces)).symm
      | _ => rfl
  | succ room ih =>
      funext tree
      cases tree with
      | number numeral => exact (Option.map_map sorted Json.number numeral.value?).symm
      | string pieces => exact (Option.map_map sorted Json.string (string? pieces)).symm
      | array items =>
          rw [ofWritten?, asWritten?, ih, mapM_map_value, Option.map_map, Option.map_map]
          congr 1
          funext values
          exact (sorted_array values).symm
      | object members =>
          rw [ofWritten?_object, asWritten?, ih, memberWith?_map, mapM_map_value, Option.map_map,
            Option.map_map]
          congr 1
          funext values
          exact (sorted_object values).symm
      | _ => rfl

theorem ofWritten?_of_asWritten? {room : Nat} {tree : Written} {value : Json}
    (h : asWritten? room tree = some value) : ofWritten? room tree = some value.sorted := by
  rw [ofWritten?_eq_map_sorted]
  exact congrArg (Option.map sorted) h

/-- The members of an object, in the order in which they are written. -/
abbrev Members := List (String × Json)

section
variable {α : Type}

def text? : Json → Option String
  | .string s => some s
  | _ => none

def natural? (bound : Nat) : Json → Option Nat
  | .number (.int n) => if 0 ≤ n ∧ n < bound then some n.toNat else none
  | _ => none

def nullable? (meaning : Json → Option α) : Json → Option (Option α)
  | .null => some none
  | value => (meaning value).map some

def list? (meaning : Json → Option α) : Json → Option (List α)
  | .array items => items.mapM meaning
  | _ => none

def members? : Json → Option Members
  | .object members => some members
  | _ => none

/-- The members of an object, or the items of an array under the first of the given names. -/
def membersAs? (names : List String) : Json → Option Members
  | .array items => if items.length ≤ names.length then some (names.zip items) else none
  | value => value.members?

def map? (meaning : Json → Option α) (value : Json) : Option (OrderedMap α) := do
  let entries ← value.members?
  let entries ← entries.mapM fun entry => (meaning entry.2).map (entry.1, ·)
  some (OrderedMap.ofList entries)

/-- What the only member of a name means, none if there is no such member. -/
def Members.find? (members : Members) (name : String) (meaning : Json → Option α) :
    Option (Option α) :=
  match members.filter (·.1 = name) with
  | [] => some none
  | [member] => (meaning member.2).map some
  | _ => none

def Members.required (members : Members) (name : String) (meaning : Json → Option α) : Option α :=
  (members.find? name meaning).join

def Members.withDefault (members : Members) (name : String) (default : α)
    (meaning : Json → Option α) : Option α :=
  (members.find? name meaning).map (·.getD default)

def Members.optional (members : Members) (name : String) (meaning : Json → Option α) :
    Option (Option α) :=
  members.withDefault name none (nullable? meaning)

end

section
variable {α : Type} {room : Nat} {read : Reader α} {meaning : Json → Option α}

/-- What is read from a tree is told from its value. -/
def Follows (room : Nat) (read : Reader α) (meaning : Json → Option α) : Prop :=
  ∀ ⦃tree : Written⦄ ⦃value : Json⦄, asWritten? room tree = some value →
    read room tree = meaning value

/-- The value of a tree has the shape of the tree. -/
inductive Matches : Nat → Written → Json → Prop
  | null {room : Nat} : Matches room .null .null
  | bool {room : Nat} {b : Bool} : Matches room (.bool b) (.bool b)
  | number {room : Nat} {numeral : Numeral} {n : Number} (found : numeral.value? = some n) :
      Matches room (.number numeral) (.number n)
  | string {room : Nat} {pieces : List Piece} {s : String} (found : string? pieces = some s) :
      Matches room (.string pieces) (.string s)
  | array {room : Nat} {items : List Written} {values : List Json}
      (found : items.mapM (asWritten? room) = some values) :
      Matches (room + 1) (.array items) (.array values)
  | object {room : Nat} {entries : List (List Piece × Written)} {members : Members}
      (found : entries.mapM (memberWith? (asWritten? room)) = some members) :
      Matches (room + 1) (.object entries) (.object members)

theorem matches_of_asWritten? {tree : Written} {value : Json}
    (h : asWritten? room tree = some value) : Matches room tree value := by
  cases tree with
  | null =>
      rw [asWritten?_null] at h
      cases h
      exact .null
  | bool b =>
      rw [asWritten?_bool] at h
      cases h
      exact .bool
  | number numeral =>
      rw [asWritten?_number] at h
      obtain ⟨n, found, rfl⟩ := Option.map_eq_some_iff.1 h
      exact .number found
  | string pieces =>
      rw [asWritten?_string] at h
      obtain ⟨s, found, rfl⟩ := Option.map_eq_some_iff.1 h
      exact .string found
  | array items =>
      cases room with
      | zero => cases h
      | succ room =>
          obtain ⟨values, found, rfl⟩ := Option.map_eq_some_iff.1 h
          exact .array found
  | object entries =>
      cases room with
      | zero => cases h
      | succ room =>
          obtain ⟨members, found, rfl⟩ := Option.map_eq_some_iff.1 h
          exact .object found

theorem follows_text (room : Nat) : Follows room Reader.text text? := by
  intro tree value h
  cases matches_of_asWritten? h with
  | string found => exact found
  | _ => rfl

theorem follows_natural (room bound : Nat) :
    Follows room (Reader.natural bound) (natural? bound) := by
  intro tree value h
  cases matches_of_asWritten? h with
  | @number _ numeral n found =>
      rw [Reader.natural, found]
      cases n <;> rfl
  | _ => rfl

theorem Follows.nullable (follows : Follows room read meaning) :
    Follows room read.nullable (nullable? meaning) := by
  intro tree value h
  cases matches_of_asWritten? h with
  | null => rfl
  | _ => exact congrArg (Option.map some) (follows h)

theorem Follows.list (follows : ∀ r, room = r + 1 → Follows r read meaning) :
    Follows room (Reader.list read) (list? meaning) := by
  intro tree value h
  cases matches_of_asWritten? h with
  | array found =>
      exact mapM_eq_of_forall₂ (fun _ _ here => follows _ rfl here) (mapM_eq_some_iff.1 found)
  | object _ => rfl
  | _ => cases room <;> rfl

/-- Written members and their values, one by one. -/
def Named (room : Nat) (written : List (String × Written)) (members : Members) : Prop :=
  List.Forall₂ (fun entry member => entry.1 = member.1 ∧
    asWritten? room entry.2 = some member.2) written members

theorem exists_named {entries : List (List Piece × Written)} {members : Members}
    (found : entries.mapM (memberWith? (asWritten? room)) = some members) :
    ∃ written, Reader.members (room + 1) (.object entries) = some written ∧
      Named room written members := by
  have each := mapM_eq_some_iff.1 found
  clear found
  induction each with
  | nil => exact ⟨[], rfl, .nil⟩
  | @cons entry member rest later here _ ih =>
      obtain ⟨pieces, tree⟩ := entry
      obtain ⟨key, name, here⟩ := Option.bind_eq_some_iff.1 here
      obtain ⟨value, inside, here⟩ := Option.bind_eq_some_iff.1 here
      cases here
      obtain ⟨written, read, named⟩ := ih
      refine ⟨(key, tree) :: written, ?_, .cons ⟨rfl, inside⟩ named⟩
      rw [Reader.members] at read ⊢
      have first : (string? pieces).map (·, tree) = some (key, tree) :=
        congrArg (Option.map (·, tree)) name
      rw [List.mapM_cons, read]
      exact congrArg (Option.bind · fun head => some (head :: written)) first

theorem named_zip (names : List String) {items : List Written} {values : List Json}
    (each : List.Forall₂ (fun tree value => asWritten? room tree = some value) items values) :
    Named room (names.zip items) (names.zip values) := by
  induction each generalizing names with
  | nil =>
      rw [List.zip_nil_right, List.zip_nil_right]
      exact .nil
  | cons here _ ih =>
      cases names with
      | nil => exact .nil
      | cons name rest => exact .cons ⟨rfl, here⟩ (ih rest)

theorem Follows.map (follows : ∀ r, room = r + 1 → Follows r read meaning) :
    Follows room (Reader.map read) (map? meaning) := by
  intro tree value h
  cases matches_of_asWritten? h with
  | @object room entries members found =>
      obtain ⟨written, named, each⟩ := exists_named found
      have values : (written.mapM fun entry => (read room entry.2).map (entry.1, ·)) =
          members.mapM fun member => (meaning member.2).map (member.1, ·) := by
        refine mapM_eq_of_forall₂ ?_ each
        intro entry member same
        rw [same.1, follows room rfl same.2]
      rw [Reader.map, named]
      exact congrArg (Option.bind · fun entries => some (OrderedMap.ofList entries)) values
  | array _ => rfl
  | _ => cases room <;> rfl

end

namespace Record
variable {α : Type} {record : Record} {members : Members} {read : Reader α}
  {meaning : Json → Option α}

/-- The members of a record have the given values. -/
def Means (record : Record) (members : Members) : Prop :=
  Named record.room record.members members

theorem follows_bind {room : Nat} {f : Record → Option α} {g : Members → Option α}
    (h : ∀ record members, room = record.room + 1 → Means record members → f record = g members) :
    Follows room (fun room tree => (Record.ofWritten? room tree).bind f)
      fun value => value.members?.bind g := by
  intro tree value written
  cases matches_of_asWritten? written with
  | @object room entries members found =>
      obtain ⟨named, read, each⟩ := exists_named found
      have here : Record.ofWritten? (room + 1) (.object entries) = some ⟨named, room⟩ := by
        rw [Record.ofWritten?, read, Option.map_some]
      change (Record.ofWritten? (room + 1) (.object entries)).bind f = g members
      rw [here]
      exact h ⟨named, room⟩ members rfl each
  | array _ => rfl
  | _ => cases room <;> rfl

/-- What is read from an array depends on the values of its items in the same way. -/
theorem follows_bind_named {room : Nat} {names : List String} {f : Record → Option α}
    {g : Members → Option α}
    (h : ∀ record members, room = record.room + 1 → Means record members → f record = g members) :
    Follows room (fun room tree => (Record.ofNamed? names room tree).bind f)
      fun value => (value.membersAs? names).bind g := by
  intro tree value written
  cases matches_of_asWritten? written with
  | @array room items values found =>
      have each := mapM_eq_some_iff.1 found
      change (if items.length ≤ names.length then some (⟨names.zip items, room⟩ : Record)
        else none).bind f = (if values.length ≤ names.length then some (names.zip values)
          else none).bind g
      rw [each.length_eq]
      split
      · exact h ⟨names.zip items, room⟩ (names.zip values) rfl (named_zip names each)
      · rfl
  | object found => exact follows_bind h written
  | _ => cases room <;> exact follows_bind h written

namespace Means

theorem filter (means : record.Means members) (name : String) :
    Named record.room (record.members.filter (·.1 = name)) (members.filter (·.1 = name)) := by
  refine List.rel_filter ?_ means
  intro entry member same
  simp [same.1]

theorem find?_eq (means : record.Means members) (follows : Follows record.room read meaning)
    (name : String) :
    members.find? name meaning = (record.member? name).bind fun found =>
      found.elim (some none) fun tree => (read record.room tree).map some := by
  have both := means.filter name
  rw [Members.find?, Record.member?]
  generalize record.members.filter (·.1 = name) = written at both ⊢
  generalize members.filter (·.1 = name) = found at both ⊢
  cases both with
  | nil => rfl
  | cons here rest =>
      cases rest with
      | nil => exact congrArg (Option.map some) (follows here.2).symm
      | cons _ _ => rfl

theorem required_eq (means : record.Means members) (follows : Follows record.room read meaning)
    (name : String) : record.required name read = members.required name meaning := by
  rw [Members.required, means.find?_eq follows, Record.required]
  cases record.member? name with
  | none => rfl
  | some found =>
      cases found with
      | none => rfl
      | some tree =>
          change read record.room tree = ((read record.room tree).map some).join
          cases read record.room tree <;> rfl

theorem withDefault_eq (means : record.Means members)
    (follows : Follows record.room read meaning) (name : String) (default : α) :
    record.withDefault name default read = members.withDefault name default meaning := by
  rw [Members.withDefault, means.find?_eq follows, Record.withDefault]
  cases record.member? name with
  | none => rfl
  | some found =>
      cases found with
      | none => rfl
      | some tree =>
          change read record.room tree = ((read record.room tree).map some).map (·.getD default)
          cases read record.room tree <;> rfl

theorem optional_eq (means : record.Means members) (follows : Follows record.room read meaning)
    (name : String) : record.optional name read = members.optional name meaning :=
  means.withDefault_eq follows.nullable name none

end Means
end Record

/-- One edit of an object in which the members with the names `own` count. The items of its list
`items` are edited by `inside`. -/
inductive Edit (own : Members → List String) (items : String) (inside : Json → Json → Prop) :
    Json → Json → Prop
  | reorder {members others : Members} (same : members.Perm others) :
      Edit own items inside (.object members) (.object others)
  | insert {members : Members} {name : String} {value : Json} (foreign : name ∉ own members) :
      Edit own items inside (.object members) (.object ((name, value) :: members))
  | item {before after : Members} {earlier later : List Json} {first second : Json}
      (edit : inside first second) :
      Edit own items inside
        (.object (before ++ (items, .array (earlier ++ first :: later)) :: after))
        (.object (before ++ (items, .array (earlier ++ second :: later)) :: after))

section
variable {α : Type} {own : Members → List String} {items name : String}
  {inside : Json → Json → Prop} {first second : Json} {members others : Members}
  {meaning : Json → Option α}

theorem Members.exists_of_required {a : α} (h : members.required name meaning = some a) :
    ∃ value, (name, value) ∈ members ∧ meaning value = some a := by
  rw [Members.required, Members.find?] at h
  split at h
  · cases h
  · rename_i member only
    have mem : member ∈ members.filter (·.1 = name) := by
      rw [only]
      exact List.mem_singleton_self _
    obtain ⟨inside, same⟩ := List.mem_filter.1 mem
    refine ⟨member.2, of_decide_eq_true same ▸ inside, ?_⟩
    cases found : meaning member.2 <;> rw [found] at h <;> exact h
  · cases h

/-- The order of the members does not matter: only two or more of one name have an order, and those
fail. -/
theorem Members.find?_of_perm (same : members.Perm others) :
    members.find? name meaning = others.find? name meaning := by
  have both := same.filter (fun member => decide (member.1 = name))
  rw [Members.find?, Members.find?]
  generalize members.filter (·.1 = name) = here at both ⊢
  generalize others.filter (·.1 = name) = there at both ⊢
  cases here with
  | nil => rw [List.nil_perm.1 both]
  | cons member rest =>
      cases rest with
      | nil => rw [List.singleton_perm.1 both]
      | cons _ _ =>
          have long := both.length_eq
          cases there with
          | nil => simp at long
          | cons _ more => cases more <;> [simp at long; rfl]

theorem Members.find?_replace {before after : Members} {key : String} {old new : Json}
    (same : key = name → meaning old = meaning new) :
    Members.find? (before ++ (key, old) :: after) name meaning =
      Members.find? (before ++ (key, new) :: after) name meaning := by
  rw [Members.find?, Members.find?, List.filter_append, List.filter_append]
  by_cases here : key = name
  · rw [List.filter_cons_of_pos (by simpa using here),
      List.filter_cons_of_pos (by simpa using here)]
    generalize before.filter (·.1 = name) = front
    generalize after.filter (·.1 = name) = back
    cases front with
    | nil =>
        cases back with
        | nil => exact congrArg (Option.map some) (same here)
        | cons _ _ => rfl
    | cons _ rest => cases rest <;> rfl
  · rw [List.filter_cons_of_neg (by simpa using here),
      List.filter_cons_of_neg (by simpa using here)]

/-- The members of a name mean the same in two objects. -/
def Members.Agree (members others : Members) (name : String) : Prop :=
  ∀ (α : Type) (meaning : Json → Option α), members.find? name meaning = others.find? name meaning

theorem Members.Agree.required (agree : members.Agree others name) (meaning : Json → Option α) :
    members.required name meaning = others.required name meaning :=
  congrArg Option.join (agree α meaning)

theorem Members.Agree.withDefault (agree : members.Agree others name) (default : α)
    (meaning : Json → Option α) :
    members.withDefault name default meaning = others.withDefault name default meaning :=
  congrArg (Option.map fun found : Option α => found.getD default) (agree α meaning)

/-- An edit of one item does not change what a list means. -/
def Respects (inside : Json → Json → Prop) (meaning : Json → Option α) : Prop :=
  ∀ earlier later first second, inside first second →
    meaning (.array (earlier ++ first :: later)) = meaning (.array (earlier ++ second :: later))

theorem respects_list (same : ∀ {first second}, inside first second →
    meaning first = meaning second) : Respects inside (list? meaning) := by
  intro earlier later first second edit
  simp only [list?, List.mapM_append, List.mapM_cons, same edit]

namespace Edit

/-- The members of the object's own mean the same after an edit. -/
theorem find?_eq (edit : Edit own items inside (.object members) (.object others))
    (counts : name ∈ own members)
    (respects : items = name → Respects inside meaning) :
    members.find? name meaning = others.find? name meaning := by
  cases edit with
  | reorder same => exact Members.find?_of_perm same
  | @insert _ added value foreign =>
      have other : ¬ added = name := fun same => foreign (same ▸ counts)
      rw [Members.find?, Members.find?, List.filter_cons_of_neg (by simpa using other)]
  | item step => exact Members.find?_replace fun same => respects same _ _ _ _ step

theorem agree (edit : Edit own items inside (.object members) (.object others))
    (counts : name ∈ own members) (other : items ≠ name) : members.Agree others name :=
  fun _ _ => edit.find?_eq counts fun same => absurd same other

theorem required_items (edit : Edit own items inside (.object members) (.object others))
    (counts : items ∈ own members) (respects : Respects inside meaning) :
    members.required items meaning = others.required items meaning :=
  congrArg Option.join (edit.find?_eq counts fun _ => respects)

/-- An edit changes one object into another. -/
theorem exists_members (edit : Edit own items inside first second) :
    ∃ members others, first = .object members ∧ second = .object others := by
  cases edit <;> exact ⟨_, _, rfl, rfl⟩

end Edit

end
end PlainVerse.Json
