import PlainVerse.Poem.Line
import PlainVerse.Poem.Statement
import PlainVerse.Text.Scan

/-!
# Directives of a gene

The lines below the header of a gene are directives of the form `KEY: VALUE`. Of several with one
key the last counts. Other lines are dropped.
-/
namespace PlainVerse.Poem

open Text

/-- A value without the double quotes around it. -/
def directiveValue (value : List Char) : String :=
  String.ofList (dropEnds (· = '"') (trim value))

/-- Items separated by commas, with or without brackets around them. Empty items are dropped. -/
def directiveList (value : List Char) : List String :=
  let inside := dropWhileEnd (· = ']') ((trim value).dropWhile (· = '['))
  (((inside.splitOn ',').map trim).filter (!·.isEmpty)).map String.ofList

namespace GeneDecl

def ofName (name : String) : GeneDecl := ⟨name, none, none, [], []⟩

def withDirective (gene : GeneDecl) (line : Line) : GeneDecl :=
  match splitOnce? ':' line.text with
  | none => gene
  | some (key, value) =>
      match String.ofList (trim key) with
      | "desc" => { gene with desc := some (directiveValue value) }
      | "cmd" => { gene with cmd := some (directiveValue value) }
      | "inputs" => { gene with inputs := directiveList value }
      | "outputs" => { gene with outputs := directiveList value }
      | _ => gene

def ofLines (name : String) (lines : List Line) : GeneDecl :=
  lines.foldl withDirective (ofName name)

end GeneDecl
end PlainVerse.Poem
