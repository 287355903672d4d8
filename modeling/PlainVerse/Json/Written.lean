import PlainVerse.Json.Token

/-!
# JSON texts as trees

A JSON text is a tree of tokens. The tree is built by a machine that reads one token at a time and
keeps the arrays and objects that are still open on a stack, so it accepts texts of any depth.
-/
namespace PlainVerse.Json

inductive Written where
  | null
  | bool (value : Bool)
  | number (value : Numeral)
  | string (pieces : List Piece)
  | array (items : List Written)
  | object (members : List (List Piece × Written))

namespace Written

/-- An open array or object: what it holds so far, the last part first. In an object the value of
`key` is still to come. -/
inductive Frame where
  | items (before : List Written)
  | members (before : List (List Piece × Written)) (key : List Piece)

/-- What may come next, inside the open arrays and objects of `stack`. -/
inductive State where
  | value (stack : List Frame)
  | firstItem (stack : List Frame)
  | firstKey (stack : List Frame)
  | key (before : List (List Piece × Written)) (stack : List Frame)
  | colon (before : List (List Piece × Written)) (key : List Piece) (stack : List Frame)
  | complete (value : Written) (stack : List Frame)

/-- The state after the first token of a value. -/
def enter (stack : List Frame) : Token → Option State
  | .null => some (.complete .null stack)
  | .bool b => some (.complete (.bool b) stack)
  | .number n => some (.complete (.number n) stack)
  | .string s => some (.complete (.string s) stack)
  | .openArray => some (.firstItem stack)
  | .openObject => some (.firstKey stack)
  | _ => none

def step : State → Token → Option State
  | .value stack, token => enter stack token
  | .firstItem stack, .closeArray => some (.complete (.array []) stack)
  | .firstItem stack, token => enter (.items [] :: stack) token
  | .firstKey stack, .closeObject => some (.complete (.object []) stack)
  | .firstKey stack, .string key => some (.colon [] key stack)
  | .key before stack, .string key => some (.colon before key stack)
  | .colon before key stack, .colon => some (.value (.members before key :: stack))
  | .complete v (.items before :: stack), .comma => some (.value (.items (v :: before) :: stack))
  | .complete v (.items before :: stack), .closeArray =>
      some (.complete (.array (v :: before).reverse) stack)
  | .complete v (.members before key :: stack), .comma => some (.key ((key, v) :: before) stack)
  | .complete v (.members before key :: stack), .closeObject =>
      some (.complete (.object ((key, v) :: before).reverse) stack)
  | _, _ => none

/-- The whole text must be one value. -/
def ofTokens? (tokens : List Token) : Option Written :=
  match tokens.foldlM step (.value []) with
  | some (.complete value []) => some value
  | _ => none

def read? (text : String) : Option Written := (tokens? text.toList).bind ofTokens?

end Written
end PlainVerse.Json
