import PlainVerse.Json
import PlainVerse.Binary64.Shortest
import PlainVerse.Text.Decimal

/-!
# Writing JSON

A value is written either without any blanks, or with every item and member on a line of its own.
The two forms differ only in the blanks, so one printer takes the blanks as its layout. Empty
arrays and objects are written without blanks in both.
-/
namespace PlainVerse.Json

/-- The blanks before an item at a given depth, and those between a name and its value. -/
structure Layout where
  lineBreak : Nat → List Char
  gap : List Char

def Layout.compact : Layout := ⟨fun _ => [], []⟩

/-- Two spaces for each level. -/
def Layout.pretty : Layout := ⟨fun depth => '\n' :: List.replicate (2 * depth) ' ', [' ']⟩

def hexDigit (n : Nat) : Char := Nat.digitChar n

/-- Quotes, backslashes and control characters are escaped; all else stands for itself. -/
def escapeChar (c : Char) : List Char :=
  match c with
  | '"' => ['\\', '"']
  | '\\' => ['\\', '\\']
  | '\x08' => ['\\', 'b']
  | '\x0c' => ['\\', 'f']
  | '\n' => ['\\', 'n']
  | '\r' => ['\\', 'r']
  | '\t' => ['\\', 't']
  | c =>
      if c.toNat < 0x20 then
        ['\\', 'u', '0', '0', hexDigit (c.toNat / 16), hexDigit (c.toNat % 16)]
      else [c]

def quoted (text : String) : List Char := '"' :: (text.toList.flatMap escapeChar ++ ['"'])

def Number.text : Number → List Char
  | .int n => if n < 0 then '-' :: Text.decimal n.natAbs else Text.decimal n.natAbs
  | .float x => x.text

/-- Parts with a comma before all but the first. -/
def commaSeparated : List (List Char) → List Char
  | [] => []
  | first :: rest => first ++ rest.flatMap (',' :: ·)

/-- Parts at a depth between two brackets, which close on their own line one level up. -/
def bracketed (layout : Layout) (depth : Nat) (opening closing : Char)
    (parts : List (List Char)) : List Char :=
  if parts.isEmpty then [opening, closing]
  else
    opening :: (commaSeparated (parts.map (layout.lineBreak (depth + 1) ++ ·)) ++
      (layout.lineBreak depth ++ [closing]))

mutual

def write (layout : Layout) (depth : Nat) : Json → List Char
  | .null => ['n', 'u', 'l', 'l']
  | .bool true => ['t', 'r', 'u', 'e']
  | .bool false => ['f', 'a', 'l', 's', 'e']
  | .number n => n.text
  | .string s => quoted s
  | .array items => bracketed layout depth '[' ']' (writeItems layout (depth + 1) items)
  | .object members =>
      bracketed layout depth '\x7b' '\x7d' (writeMembers layout (depth + 1) members)

def writeItems (layout : Layout) (depth : Nat) : List Json → List (List Char)
  | [] => []
  | item :: rest => write layout depth item :: writeItems layout depth rest

def writeMembers (layout : Layout) (depth : Nat) : List (String × Json) → List (List Char)
  | [] => []
  | (name, value) :: rest =>
      (quoted name ++ ':' :: (layout.gap ++ write layout depth value)) ::
        writeMembers layout depth rest

end

def render (layout : Layout) (value : Json) : String := String.ofList (write layout 0 value)

def compact (value : Json) : String := render .compact value

def pretty (value : Json) : String := render .pretty value

end PlainVerse.Json
