import PlainVerse.Json
import PlainVerse.OrderedMap

/-!
# Plans

A plan is a list of operations that are carried out in order. An input of an operation is either a
literal, marked by `utf8:`, or the name of an earlier operation's output. A reference to a name
that no earlier operation has put out dangles.
-/
namespace PlainVerse

inductive Plan.Op where
  | compress
  | compare
  | attest
  | explain
deriving DecidableEq, Repr

namespace Plan

def Op.name : Op → String
  | .compress => "compress"
  | .compare => "compare"
  | .attest => "attest"
  | .explain => "explain"

/-- The operation of a given name. -/
def Op.ofName? : String → Option Op
  | "compress" => some .compress
  | "compare" => some .compare
  | "attest" => some .attest
  | "explain" => some .explain
  | _ => none

def literalMark : String := "utf8:"

def isLiteral (value : String) : Bool := literalMark.toList.isPrefixOf value.toList

structure Entry where
  op : Op
  inputs : OrderedMap String
  params : Option (OrderedMap Json)
  out : Option String

namespace Entry

def ofOp (op : Op) : Entry := ⟨op, .empty, none, none⟩

def withInput (entry : Entry) (name value : String) : Entry :=
  { entry with inputs := entry.inputs.insert name value }

def withParam (entry : Entry) (name : String) (value : Json) : Entry :=
  { entry with params := some ((entry.params.getD .empty).insert name value) }

def withOut (entry : Entry) (name : String) : Entry := { entry with out := some name }

/-- The inputs that are not literals, with their values. -/
def references (entry : Entry) : List (String × String) :=
  entry.inputs.entries.filter fun input => !isLiteral input.2

end Entry

/-- An input of the entry with the given index that refers to no earlier output. -/
structure Dangling where
  entry : Nat
  input : String
  reference : String
deriving DecidableEq, Repr

/-- The dangling references of entries that are numbered from `index` on, when the names in
`bound` have been put out before them. -/
def danglingFrom (index : Nat) (bound : List String) : List Entry → List Dangling
  | [] => []
  | entry :: rest =>
      ((entry.references.filter fun input => !bound.contains input.2).map fun input =>
        ⟨index, input.1, input.2⟩) ++ danglingFrom (index + 1) (entry.out.toList ++ bound) rest

end Plan

structure Plan where
  version : String
  entries : List Plan.Entry

def Plan.dangling (plan : Plan) : List Plan.Dangling := danglingFrom 0 [] plan.entries

end PlainVerse
