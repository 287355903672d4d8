import PlainVerse.Poem.Directive
import PlainVerse.Poem.Phrase
import PlainVerse.Poem.Score

/-!
# Reading poems

Every line that is not empty belongs to exactly one statement. Most statements are one line long.
The body of a trigger is made of the lines below it that are indented deeper than its header, as
long as they are indented at least as deep as the first of them; empty lines do not end it. The
directives of a gene reach to the next empty line. Reading a poem never fails.
-/
namespace PlainVerse.Poem

/-- What a line at the top level makes: a statement of its own, or the header of a block. -/
inductive Opening where
  | single (statement : Statement)
  | trigger (condition : String)
  | gene (name : String)

def textOf (cap : UInt8) (line : Line) : Statement :=
  .text line.number (String.ofList line.text) (lineScore line.raw cap)

/-- The forms are tried in a fixed order. -/
def openingOf (cap : UInt8) (line : Line) : Opening :=
  if let some name := name? line.text then .single (.name line.number name)
  else if let some (topic, payload) := emit? line.text then
    .single (.emit line.number topic payload)
  else if let some condition := condition? line.text then .trigger condition
  else if let some (tool, args) := invoke? line.text then .single (.invoke line.number tool args)
  else if let some (key, value) := remember? line.text then
    .single (.remember line.number key value)
  else if let some name := geneName? line.text then .gene name
  else .single (textOf cap line)

/-- Inside a trigger only signals and tools are recognised. -/
def childOf (cap : UInt8) (line : Line) : Statement :=
  if let some (topic, payload) := emit? line.text then .emit line.number topic payload
  else if let some (tool, args) := invoke? line.text then .invoke line.number tool args
  else textOf cap line

/-- The lines of a block with the given least indent, without empty ones, and the lines from the
first one that is indented less. -/
def takeBlock (indent : Nat) : List Line → List Line × List Line
  | [] => ([], [])
  | line :: rest =>
      if line.isEmpty then takeBlock indent rest
      else if indent ≤ line.indent then
        let (block, after) := takeBlock indent rest
        (line :: block, after)
      else ([], line :: rest)

/-- The body below a header: its first line must be indented deeper than the header, and sets the
least indent of the others. -/
def bodyBelow (header : Line) (lines : List Line) : List Line × List Line :=
  match lines.find? (!·.isEmpty) with
  | some first => if header.indent < first.indent then takeBlock first.indent lines else ([], lines)
  | none => ([], lines)

theorem takeBlock_length (indent : Nat) (lines : List Line) :
    (takeBlock indent lines).2.length ≤ lines.length := by
  induction lines with
  | nil => exact Nat.le_refl _
  | cons line rest ih =>
      simp only [takeBlock]
      split
      · exact Nat.le_succ_of_le ih
      · split
        · exact Nat.le_succ_of_le ih
        · exact Nat.le_refl _

theorem bodyBelow_length (header : Line) (lines : List Line) :
    (bodyBelow header lines).2.length ≤ lines.length := by
  unfold bodyBelow
  split
  · split
    · exact takeBlock_length _ _
    · exact Nat.le_refl _
  · exact Nat.le_refl _

def statementsOf (cap : UInt8) : List Line → List Statement
  | [] => []
  | line :: rest =>
      if line.isEmpty then statementsOf cap rest
      else
        match openingOf cap line with
        | .single statement => statement :: statementsOf cap rest
        | .trigger condition =>
            let body := bodyBelow line rest
            .trigger line.number condition (body.1.map (childOf cap)) :: statementsOf cap body.2
        | .gene name =>
            .gene line.number (.ofLines name (rest.takeWhile (!·.isEmpty))) ::
              statementsOf cap (rest.dropWhile (!·.isEmpty))
termination_by lines => lines.length
decreasing_by
  · simp
  · simp
  · have := bodyBelow_length line rest
    simp only [List.length_cons]
    omega
  · have := (List.dropWhile_sublist (!·.isEmpty) (l := rest)).length_le
    simp only [List.length_cons]
    omega

/-- The name that the first name statement gives. -/
def nameOf (statements : List Statement) : Option String :=
  statements.findSome? fun
    | .name _ name => some name
    | _ => none

def parse (source : String) (cap : UInt8) : Program :=
  let statements := statementsOf cap (Line.ofSource source)
  ⟨statements, nameOf statements, source⟩

end PlainVerse.Poem
