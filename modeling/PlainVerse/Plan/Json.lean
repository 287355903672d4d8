import PlainVerse.Json.Reader
import PlainVerse.Plan

/-!
# Plans in JSON

An entry is written with its operation, inputs, parameters and output, in this order; parameters
and output only if it has them. When a plan is read the members may come in any order, and plans
and entries may also be arrays of their parts.
-/
namespace PlainVerse.Plan

def Entry.toJson (entry : Entry) : Json :=
  .object ([("op", .string entry.op.name), ("in", Json.textMap entry.inputs)] ++
    (entry.params.toList.map fun params => ("params", .object params.entries)) ++
    (entry.out.toList.map fun out => ("out", .string out)))

def toJson (plan : Plan) : Json :=
  .object [("version", .string plan.version), ("plan", .array (plan.entries.map Entry.toJson))]

open Json (Reader Record Written)

/-- An operation is given by its name, or by an object whose only member has its name and is
null. -/
def Op.read : Reader Op
  | _, .string pieces => (Json.string? pieces).bind ofName?
  | _ + 1, .object [(pieces, .null)] => (Json.string? pieces).bind ofName?
  | _, _ => none

def Entry.read : Reader Entry := fun room value => do
  let record ← Record.ofNamed? ["op", "in", "params", "out"] room value
  let op ← record.required "op" Op.read
  let inputs ← record.required "in" (Reader.map Reader.text)
  let params ← record.optional "params" (Reader.map Json.ofWritten?)
  let out ← record.optional "out" Reader.text
  some ⟨op, inputs, params, out⟩

def read : Reader Plan := fun room value => do
  let record ← Record.ofNamed? ["version", "plan"] room value
  let version ← record.required "version" Reader.text
  let entries ← record.required "plan" (Reader.list Entry.read)
  some ⟨version, entries⟩

def ofText? (text : String) : Option Plan := read.run text

end PlainVerse.Plan
