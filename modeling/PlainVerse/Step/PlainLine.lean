import PlainVerse.Step
import PlainVerse.Text.Decimal
import PlainVerse.Text.DecimalDigit
import PlainVerse.Text.Fold
import PlainVerse.Text.Scan

/-!
# Plain lines

A plain line is one command. Keywords are read in any case, and exactly one space stands between
the parts of a command. A line that is no command becomes a comment, so every text has steps.
-/
namespace PlainVerse.Step

open Text

def isInk (c : Char) : Bool := !isBlank c

/-- A non-empty text without blanks that reaches to the end. -/
def inkToEnd? (text : List Char) : Option (List Char) :=
  if text ≠ [] ∧ text.all isInk then some text else none

/-- `download URL to PATH` -/
def download? (line : List Char) : Option (List Step) := do
  let rest ← afterFolded? "download ".toList line
  let (url, rest) ← run? isInk rest
  let rest ← afterFolded? " to ".toList rest
  let path ← inkToEnd? rest
  some [httpGet (String.ofList url), writeLast (String.ofList path)]

/-- `run "COMMAND"`, where the last quote ends the line. -/
def runQuoted? (line : List Char) : Option (List Step) := do
  let rest ← afterFolded? "run \"".toList line
  let command := rest.dropLast
  if rest.getLast? = some '"' ∧ command ≠ [] then some [run (String.ofList command)] else none

/-- `run COMMAND` -/
def runPlain? (line : List Char) : Option (List Step) := do
  let rest ← afterFolded? "run ".toList line
  if rest ≠ [] then some [run (String.ofList rest)] else none

/-- The unit of an interval and the colon after it. -/
def afterUnit? (text : List Char) : Option (List Char) :=
  afterFolded? "s: ".toList text <|> afterFolded? " sec: ".toList text <|>
    afterFolded? " seconds: ".toList text

/-- `every Ns: COMMAND`, also with ` sec` or ` seconds` as the unit. -/
def every? (line : List Char) : Option (List Step) := do
  let rest ← afterFolded? "every ".toList line
  let (digits, rest) ← run? isDecimalDigit rest
  let command ← afterUnit? rest
  let interval ← word64? digits
  if command ≠ [] then some [loop interval (String.ofList command)] else none

/-- `sleep N` -/
def sleep? (line : List Char) : Option (List Step) := do
  let digits ← afterFolded? "sleep ".toList line
  let seconds ← word64? digits
  some [sleep seconds]

/-- `write 'DATA' to PATH`. The path is the last part without blanks, so it is read from the end;
the data may hold quotes. -/
def write? (line : List Char) : Option (List Step) := do
  let rest ← afterFolded? "write '".toList line
  let (path, before) ← run? isInk rest.reverse
  let data ← afterFolded? " ot '".toList before
  some [writeData (String.ofList path.reverse) (String.ofList data.reverse)]

/-- The steps of a trimmed line. The quoted form of `run` is tried before the plain one. -/
def ofLine (line : List Char) : List Step :=
  (download? line <|> runQuoted? line <|> runPlain? line <|> every? line <|> sleep? line <|>
    write? line).getD [comment (String.ofList line)]

end PlainVerse.Step

namespace PlainVerse.StepProgram

/-- The trimmed lines of a text that are not empty. -/
def plainLines (text : String) : List (List Char) :=
  ((text.toList.splitOn '\n').map Text.trim).filter (!·.isEmpty)

def compile (text : String) : StepProgram := ⟨(plainLines text).flatMap Step.ofLine⟩

end PlainVerse.StepProgram
