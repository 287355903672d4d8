import PlainVerse.Json.Scalar
import PlainVerse.Json.Written

/-!
# Reading values from JSON trees

Every reader is given the number of arrays and objects that may still be entered, and fails where
a tree is nested deeper. A record is read member by member: a member of the record's own must not
occur twice, and members with other names are passed over without a look at their values. An array
is read as a record too, by position: its items are the values of the first members, in the order
in which the record declares them, and it holds no more items than there are members.
-/
namespace PlainVerse.Json

/-- How deep the arrays and objects of a text may be nested. -/
def depthLimit : Nat := 127

/-- Reads a value of any shape. Members are sorted by name. -/
def ofWritten? : (room : Nat) → Written → Option Json
  | _, .null => some .null
  | _, .bool b => some (.bool b)
  | _, .number n => n.value?.map .number
  | _, .string s => (string? s).map .string
  | 0, .array _ => none
  | 0, .object _ => none
  | room + 1, .array items => (items.mapM (ofWritten? room)).map .array
  | room + 1, .object members => do
      let members ← members.mapM fun (key, value) => do
        let key ← string? key
        let value ← ofWritten? room value
        some (key, value)
      some (.object (sortMembers members))

/-- Reads a text that holds a value of any shape. -/
def read? (text : String) : Option Json := (Written.read? text).bind (ofWritten? depthLimit)

/-- A way to read a value, given how many arrays and objects may still be entered. -/
abbrev Reader (α : Type) := (room : Nat) → Written → Option α

namespace Reader
variable {α : Type}

def text : Reader String
  | _, .string pieces => string? pieces
  | _, _ => none

/-- A natural number below `bound`. -/
def natural (bound : Nat) : Reader Nat
  | _, .number numeral =>
      match numeral.value? with
      | some (.int n) => if 0 ≤ n ∧ n < bound then some n.toNat else none
      | _ => none
  | _, _ => none

/-- A value that may be null. -/
def nullable (read : Reader α) : Reader (Option α)
  | _, .null => some none
  | room, value => (read room value).map some

def list (read : Reader α) : Reader (List α)
  | room + 1, .array items => items.mapM (read room)
  | _, _ => none

/-- The members of an object, with their names read. -/
def members : Reader (List (String × Written))
  | _ + 1, .object members => members.mapM fun (key, value) => (string? key).map (·, value)
  | _, _ => none

/-- An object as a map. Of several members with one name the last counts. -/
def map (read : Reader α) : Reader (OrderedMap α)
  | room + 1, .object entries => do
      let entries ← members (room + 1) (.object entries)
      let entries ← entries.mapM fun (key, value) => (read room value).map (key, ·)
      some (OrderedMap.ofList entries)
  | _, _ => none

end Reader

/-- What is read as a record, by the names of its members, and the room that is left inside it. -/
structure Record where
  members : List (String × Written)
  room : Nat

namespace Record
variable {α : Type}

def ofWritten? : Reader Record
  | 0, _ => none
  | room + 1, value => (Reader.members (room + 1) value).map (⟨·, room⟩)

/-- An object, or an array whose items are the values of the first of the named members. -/
def ofNamed? (names : List String) : Reader Record
  | room + 1, .array items =>
      if items.length ≤ names.length then some ⟨names.zip items, room⟩ else none
  | room, value => ofWritten? room value

/-- The value of a member, none if there is no such member; fails if there are two. -/
def member? (record : Record) (name : String) : Option (Option Written) :=
  match record.members.filter (·.1 = name) with
  | [] => some none
  | [(_, value)] => some (some value)
  | _ => none

/-- A member that must be present. -/
def required (record : Record) (name : String) (read : Reader α) : Option α := do
  match ← record.member? name with
  | none => none
  | some value => read record.room value

/-- A member that may be missing. -/
def withDefault (record : Record) (name : String) (default : α) (read : Reader α) : Option α := do
  match ← record.member? name with
  | none => some default
  | some value => read record.room value

/-- A member that may be missing or null. -/
def optional (record : Record) (name : String) (read : Reader α) : Option (Option α) :=
  record.withDefault name none read.nullable

end Record

/-- Reads a whole text. -/
def Reader.run {α : Type} (read : Reader α) (text : String) : Option α :=
  (Written.read? text).bind (read depthLimit)

end PlainVerse.Json
