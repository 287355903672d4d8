import PlainVerse.Json
import PlainVerse.OrderedMap

/-!
# Steps

A step is a kind of action with named arguments. The constructors below make the steps that plain
lines stand for; steps of other kinds can be read from JSON.
-/
namespace PlainVerse

structure Step where
  kind : String
  args : OrderedMap Json

/-- The steps of a text, in the order of its lines. -/
structure StepProgram where
  steps : List Step

namespace Step

def ofArgs (kind : String) (args : List (String × Json)) : Step := ⟨kind, .ofList args⟩

def httpGet (url : String) : Step := ofArgs "http_get" [("url", .string url)]

/-- Writes what the step before has fetched. -/
def writeLast (path : String) : Step :=
  ofArgs "write_file" [("path", .string path), ("from_last", .bool true)]

def writeData (path data : String) : Step :=
  ofArgs "write_file" [("path", .string path), ("data", .string data)]

def run (command : String) : Step := ofArgs "run" [("cmd", .string command)]

/-- The body is a JSON value, whose members are sorted by name. -/
def loop (interval : UInt64) (command : String) : Step :=
  ofArgs "loop" [("interval", .ofNat interval.toNat),
    ("body", .array [.object [("args", .object [("cmd", .string command)]),
      ("kind", .string "run")]])]

def sleep (seconds : UInt64) : Step := ofArgs "sleep" [("seconds", .ofNat seconds.toNat)]

def comment (text : String) : Step := ofArgs "comment" [("text", .string text)]

def isComment (step : Step) : Bool := step.kind = "comment"

end Step
end PlainVerse
