import PlainVerse.OrderedMap
import PlainVerse.Text.Scan
import PlainVerse.Text.WordChar
import PlainVerse.ToolPath

/-!
# The forms of single lines

Each recogniser looks at one trimmed line and returns the parts of the statement that the line
makes or opens. A line that begins with a keyword but lacks the rest of its form is not accepted.
-/
namespace PlainVerse.Poem

open Text

/-- `name NAME` -/
def name? (text : List Char) : Option String := do
  let name ← afterWord? "name".toList text
  if name ≠ [] then some (String.ofList (trim name)) else none

/-- What stands after the blanks that follow a topic. -/
def payload? (text : List Char) : Option String := do
  let payload ← afterBlanks? text
  if payload ≠ [] then some (String.ofList (trim payload)) else none

/-- `emit "TOPIC" PAYLOAD`, where the payload may be missing. -/
def emit? (text : List Char) : Option (String × Option String) := do
  let rest ← afterWord? "emit".toList text
  let rest ← after? ['"'] rest
  let (topic, rest) ← run? (· != '"') rest
  let rest ← after? ['"'] rest
  some (String.ofList topic, payload? rest)

/-- `when CONDITION:` -/
def condition? (text : List Char) : Option String := do
  let rest ← afterWord? "when".toList text
  let (condition, _) ← splitOnce? ':' rest
  if trim condition ≠ [] then some (String.ofList (trim condition)) else none

def isQuoteMark (c : Char) : Bool := c = '"' || c = '\''

/-- One argument `KEY: VALUE`; quotes around the value do not belong to it. -/
def argument? (text : List Char) : Option (String × String) :=
  (splitOnce? ':' text).map fun (key, value) =>
    (String.ofList (trim key), String.ofList (dropEnds isQuoteMark (trim value)))

/-- Arguments separated by commas. What has no colon is left out. -/
def arguments (text : List Char) : OrderedMap String :=
  .ofList ((text.splitOn ',').filterMap argument?)

/-- The text between the parentheses after a tool path, if there is any. -/
def parenthesized? (text : List Char) : Option (List Char) := do
  let rest ← after? ['('] (text.dropWhile isBlank)
  let (inside, rest) ← run? (· != ')') rest
  let _ ← after? [')'] rest
  some inside

def isToolChar (c : Char) : Bool := !isBlank c && c != '('

/-- `use TOOL(KEY: VALUE, …)`, where the arguments may be missing. -/
def invoke? (text : List Char) : Option (ToolPath × OrderedMap String) := do
  let rest ← afterWord? "use".toList text
  let (tool, rest) ← run? isToolChar rest
  let args := ((parenthesized? rest).map arguments).getD .empty
  some (ToolPath.ofDotted (String.ofList tool), args)

/-- `remember KEY: VALUE` -/
def remember? (text : List Char) : Option (String × String) := do
  let rest ← afterWord? "remember".toList text
  let (key, rest) ← run? isWord rest
  let rest ← after? [':'] rest
  let value := rest.dropWhile isBlank
  if value ≠ [] then some (String.ofList key, String.ofList (trim value)) else none

/-- `gene NAME:` -/
def geneName? (text : List Char) : Option String := do
  let rest ← afterWord? "gene".toList text
  let (name, rest) ← run? isWord rest
  let _ ← after? [':'] rest
  some (String.ofList name)

end PlainVerse.Poem
