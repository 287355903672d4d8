import PlainVerse.Json.Reader
import PlainVerse.Step

/-!
# Steps in JSON
-/
namespace PlainVerse

open Json (Reader Record)

namespace Step

def toJson (step : Step) : Json :=
  .object [("kind", .string step.kind), ("args", .object step.args.entries)]

def read : Reader Step := fun room value => do
  let record ← Record.ofNamed? ["kind", "args"] room value
  let kind ← record.required "kind" Reader.text
  let args ← record.required "args" (Reader.map Json.ofWritten?)
  some ⟨kind, args⟩

end Step

namespace StepProgram

def toJson (program : StepProgram) : Json :=
  .object [("steps", .array (program.steps.map Step.toJson))]

def read : Reader StepProgram := fun room value => do
  let record ← Record.ofNamed? ["steps"] room value
  let steps ← record.required "steps" (Reader.list Step.read)
  some ⟨steps⟩

def ofText? (text : String) : Option StepProgram := read.run text

end StepProgram
end PlainVerse
