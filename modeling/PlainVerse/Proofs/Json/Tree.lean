import PlainVerse.Json.Printer
import PlainVerse.Json.Written
import Mathlib.Data.List.Basic

/-!
# JSON values as trees

A value and the tree of its text have the same shape. Both are nested through lists, so what is
proved of all values goes by an induction whose hypothesis speaks of every item and member.
-/
namespace PlainVerse.Json

/-- Induction on a value: what holds of all items and members holds of the whole. -/
theorem induct {motive : Json → Prop} (null : motive .null) (bool : ∀ b, motive (.bool b))
    (number : ∀ n, motive (.number n)) (string : ∀ s, motive (.string s))
    (array : ∀ items, (∀ item ∈ items, motive item) → motive (.array items))
    (object : ∀ members, (∀ member ∈ members, motive member.2) → motive (.object members))
    (json : Json) : motive json :=
  @Json.rec motive (fun items => ∀ item ∈ items, motive item)
    (fun members => ∀ member ∈ members, motive member.2) (fun member => motive member.2)
    null bool number string array object
    (List.forall_mem_nil _) (fun _ _ first later => List.forall_mem_cons.2 ⟨first, later⟩)
    (List.forall_mem_nil _) (fun _ _ first later => List.forall_mem_cons.2 ⟨first, later⟩)
    (fun _ _ value => value) json

mutual

/-- How deep arrays and objects are nested. -/
def depth : Json → Nat
  | .array items => depthOfItems items + 1
  | .object members => depthOfMembers members + 1
  | _ => 0

def depthOfItems : List Json → Nat
  | [] => 0
  | item :: rest => max item.depth (depthOfItems rest)

def depthOfMembers : List (String × Json) → Nat
  | [] => 0
  | (_, value) :: rest => max value.depth (depthOfMembers rest)

end

theorem depth_array_le {items : List Json} {n : Nat} :
    (Json.array items).depth ≤ n + 1 ↔ ∀ item ∈ items, item.depth ≤ n := by
  rw [depth, Nat.add_le_add_iff_right]
  induction items with
  | nil => simp [depthOfItems]
  | cons item rest ih => rw [depthOfItems, Nat.max_le, ih, List.forall_mem_cons]

theorem depth_object_le {members : List (String × Json)} {n : Nat} :
    (Json.object members).depth ≤ n + 1 ↔ ∀ member ∈ members, member.2.depth ≤ n := by
  rw [depth, Nat.add_le_add_iff_right]
  induction members with
  | nil => simp [depthOfMembers]
  | cons member rest ih =>
      obtain ⟨name, value⟩ := member
      rw [depthOfMembers, Nat.max_le, ih, List.forall_mem_cons]

mutual

/-- A value and all values inside it. -/
def parts : Json → List Json
  | .array items => .array items :: partsOfItems items
  | .object members => .object members :: partsOfMembers members
  | json => [json]

def partsOfItems : List Json → List Json
  | [] => []
  | item :: rest => item.parts ++ partsOfItems rest

def partsOfMembers : List (String × Json) → List Json
  | [] => []
  | (_, value) :: rest => value.parts ++ partsOfMembers rest

end

/-- A condition holds of a value and of all values inside it. -/
def All (p : Json → Prop) (json : Json) : Prop := ∀ part ∈ json.parts, p part

instance (p : Json → Prop) [DecidablePred p] (json : Json) : Decidable (json.All p) :=
  List.decidableBAll p json.parts

theorem all_array {p : Json → Prop} {items : List Json} :
    (Json.array items).All p ↔ p (.array items) ∧ ∀ item ∈ items, item.All p := by
  rw [All, parts, List.forall_mem_cons]
  apply and_congr_right'
  induction items with
  | nil => simp [partsOfItems]
  | cons item rest ih => rw [partsOfItems, List.forall_mem_append, ih, List.forall_mem_cons, All]

theorem all_object {p : Json → Prop} {members : List (String × Json)} :
    (Json.object members).All p ↔ p (.object members) ∧ ∀ member ∈ members, member.2.All p := by
  rw [All, parts, List.forall_mem_cons]
  apply and_congr_right'
  induction members with
  | nil => simp [partsOfMembers]
  | cons member rest ih =>
      obtain ⟨name, value⟩ := member
      rw [partsOfMembers, List.forall_mem_append, ih, List.forall_mem_cons, All]

/-- Induction on a tree: what holds of all items and members holds of the whole. -/
theorem Written.induct {motive : Written → Prop} (null : motive .null)
    (bool : ∀ b, motive (.bool b)) (number : ∀ n, motive (.number n))
    (string : ∀ s, motive (.string s))
    (array : ∀ items, (∀ item ∈ items, motive item) → motive (.array items))
    (object : ∀ members, (∀ member ∈ members, motive member.2) → motive (.object members))
    (tree : Written) : motive tree :=
  @Written.rec motive (fun items => ∀ item ∈ items, motive item)
    (fun members => ∀ member ∈ members, motive member.2) (fun member => motive member.2)
    null bool number string array object
    (List.forall_mem_nil _) (fun _ _ first later => List.forall_mem_cons.2 ⟨first, later⟩)
    (List.forall_mem_nil _) (fun _ _ first later => List.forall_mem_cons.2 ⟨first, later⟩)
    (fun _ _ value => value) tree

namespace Written

mutual

def depth : Written → Nat
  | .array items => depthOfItems items + 1
  | .object members => depthOfMembers members + 1
  | _ => 0

def depthOfItems : List Written → Nat
  | [] => 0
  | item :: rest => max item.depth (depthOfItems rest)

def depthOfMembers : List (List Piece × Written) → Nat
  | [] => 0
  | (_, value) :: rest => max value.depth (depthOfMembers rest)

end

theorem depth_array_le {items : List Written} {n : Nat} :
    (Written.array items).depth ≤ n + 1 ↔ ∀ item ∈ items, item.depth ≤ n := by
  rw [depth, Nat.add_le_add_iff_right]
  induction items with
  | nil => simp [depthOfItems]
  | cons item rest ih => rw [depthOfItems, Nat.max_le, ih, List.forall_mem_cons]

theorem depth_object_le {members : List (List Piece × Written)} {n : Nat} :
    (Written.object members).depth ≤ n + 1 ↔ ∀ member ∈ members, member.2.depth ≤ n := by
  rw [depth, Nat.add_le_add_iff_right]
  induction members with
  | nil => simp [depthOfMembers]
  | cons member rest ih =>
      obtain ⟨name, value⟩ := member
      rw [depthOfMembers, Nat.max_le, ih, List.forall_mem_cons]

mutual

/-- The tokens of a tree. -/
def tokens : Written → List Token
  | .null => [.null]
  | .bool b => [.bool b]
  | .number n => [.number n]
  | .string s => [.string s]
  | .array items => .openArray :: ([.comma].intercalate (itemTokens items) ++ [.closeArray])
  | .object members =>
      .openObject :: ([.comma].intercalate (memberTokens members) ++ [.closeObject])

def itemTokens : List Written → List (List Token)
  | [] => []
  | item :: rest => item.tokens :: itemTokens rest

def memberTokens : List (List Piece × Written) → List (List Token)
  | [] => []
  | (key, value) :: rest => (.string key :: .colon :: value.tokens) :: memberTokens rest

end

theorem itemTokens_eq_map (items : List Written) : itemTokens items = items.map tokens := by
  induction items with
  | nil => rfl
  | cons item rest ih => rw [itemTokens, ih, List.map_cons]

theorem memberTokens_eq_map (members : List (List Piece × Written)) :
    memberTokens members =
      members.map fun member => .string member.1 :: .colon :: member.2.tokens := by
  induction members with
  | nil => rfl
  | cons member rest ih =>
      obtain ⟨key, value⟩ := member
      rw [memberTokens, ih, List.map_cons]

end Written

/-- A character as it is written in a string. -/
def pieceOf (c : Char) : Piece :=
  if c.toNat < 0x20 ∧ c ∉ ['\x08', '\x0c', '\n', '\r', '\t'] then .unit c.toNat else .char c

def piecesOf (text : String) : List Piece := text.toList.map pieceOf

/-- The digits of an integer. Other numbers are left out here. -/
def Number.numeral : Number → Numeral
  | .int n => ⟨n < 0, Text.decimal n.natAbs, [], none⟩
  | .float _ => ⟨false, [], [], none⟩

mutual

/-- The tree of the text that a value is written as. -/
def written : Json → Written
  | .null => .null
  | .bool b => .bool b
  | .number n => .number n.numeral
  | .string s => .string (piecesOf s)
  | .array items => .array (writtenItems items)
  | .object members => .object (writtenMembers members)

def writtenItems : List Json → List Written
  | [] => []
  | item :: rest => item.written :: writtenItems rest

def writtenMembers : List (String × Json) → List (List Piece × Written)
  | [] => []
  | (name, value) :: rest => (piecesOf name, value.written) :: writtenMembers rest

end

theorem written_array (items : List Json) :
    (Json.array items).written = .array (items.map written) := by
  rw [written]
  congr 1
  induction items with
  | nil => rfl
  | cons item rest ih => rw [writtenItems, ih, List.map_cons]

theorem written_object (members : List (String × Json)) :
    (Json.object members).written =
      .object (members.map fun member => (piecesOf member.1, member.2.written)) := by
  rw [written]
  congr 1
  induction members with
  | nil => rfl
  | cons member rest ih =>
      obtain ⟨name, value⟩ := member
      rw [writtenMembers, ih, List.map_cons]

theorem writeItems_eq_map (layout : Layout) (depth : Nat) (items : List Json) :
    writeItems layout depth items = items.map (write layout depth) := by
  induction items with
  | nil => rfl
  | cons item rest ih => rw [writeItems, ih, List.map_cons]

theorem writeMembers_eq_map (layout : Layout) (depth : Nat) (members : List (String × Json)) :
    writeMembers layout depth members = members.map fun member =>
      quoted member.1 ++ ':' :: (layout.gap ++ write layout depth member.2) := by
  induction members with
  | nil => rfl
  | cons member rest ih =>
      obtain ⟨name, value⟩ := member
      rw [writeMembers, ih, List.map_cons]

end PlainVerse.Json
