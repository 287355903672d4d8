import PlainVerse.Binary64
import PlainVerse.OrderedMap

/-!
# JSON values

The members of an object are a list, in the order in which they are written. Values that are read
without a fixed shape have their members sorted by name, one for each name.
-/
namespace PlainVerse

inductive Json.Number where
  | int (value : Int)
  | float (value : Binary64)
deriving DecidableEq, Repr

inductive Json where
  | null
  | bool (value : Bool)
  | number (value : Json.Number)
  | string (value : String)
  | array (items : List Json)
  | object (members : List (String × Json))

namespace Json

/-- A word is written as the number it is. -/
instance : Coe UInt32 Nat := ⟨UInt32.toNat⟩

def ofNat (n : Nat) : Json := .number (.int n)

def strings (items : List String) : Json := .array (items.map .string)

/-- A map of texts as an object, with its keys in their order. -/
def textMap (map : OrderedMap String) : Json :=
  .object (map.entries.map fun entry => (entry.1, .string entry.2))

/-- Adds a member to members sorted by name, or replaces the one of that name. -/
def insertMember (name : String) (value : Json) : List (String × Json) → List (String × Json)
  | [] => [(name, value)]
  | (other, old) :: rest =>
      if name < other then (name, value) :: (other, old) :: rest
      else if name = other then (name, value) :: rest
      else (other, old) :: insertMember name value rest

/-- Members sorted by name; of several with one name the last is kept. -/
def sortMembers (members : List (String × Json)) : List (String × Json) :=
  members.foldl (fun sorted member => insertMember member.1 member.2 sorted) []

end Json
end PlainVerse
