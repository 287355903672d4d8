import PlainVerse.CommandLine.Arguments
import PlainVerse.Poem.Parse
import PlainVerse.Step.Json
import PlainVerse.Step.PlainLine

/-!
# Running the command line

The program reads one text and prints one JSON value with a line feed after it. What it does
depends only on its arguments, on standard input and on the contents of files.
-/
namespace PlainVerse.CommandLine

/-- The exit code and what is printed on standard output. -/
structure Outcome where
  exit : UInt32
  stdout : String
deriving DecidableEq, Repr

namespace Outcome

def rejected : Outcome := ⟨2, ""⟩

def unreadable : Outcome := ⟨1, ""⟩

def printed (exit : UInt32) (value : Json) : Outcome := ⟨exit, value.pretty ++ "\n"⟩

end Outcome

/-- Compiling fails if there is an error, or if references dangle and that is not allowed. -/
def compileExit (strict : Bool) : Except Command.CompileError Plan → UInt32
  | .error _ => 1
  | .ok plan => if strict && !plan.dangling.isEmpty then 1 else 0

def Task.perform (task : Task) (text : String) : Outcome :=
  match task with
  | .compile options strict =>
      let result := Command.compile options text
      .printed (compileExit strict result) (Command.outcome result)
  | .plain => .printed 0 (StepProgram.compile text).toJson
  | .parse cap => .printed 0 (Poem.parse text cap).toJson
  | .lower options =>
      .printed 0 (Gene.Document.ofProgram (Poem.parse text Poem.defaultCap) options).toJson
  | .introns => .printed 0 (Poem.Profile.ofSource text).toJson

/-- Words are joined by single spaces. -/
def joined (words : List String) : String := String.intercalate " " words

/-- The text of a source: words are used as they are, bytes must be readable and UTF-8. -/
def Source.text? (files : String → Option ByteArray) (stdin : Option ByteArray) :
    Source → Option String
  | .file path => (files path).bind String.fromUTF8?
  | .words given => some (joined given)
  | .standardInput => stdin.bind String.fromUTF8?

/-- What cannot be read has no bytes. -/
def run (files : String → Option ByteArray) (stdin : Option ByteArray) (arguments : List String) :
    Outcome :=
  match Request.ofArguments? arguments with
  | none => .rejected
  | some request =>
      match request.source.text? files stdin with
      | none => .unreadable
      | some text => request.task.perform text

end PlainVerse.CommandLine
