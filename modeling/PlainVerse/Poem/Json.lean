import PlainVerse.Json.Reader
import PlainVerse.Poem.Statement

/-!
# Programs in JSON

A statement is one object, which holds the number of its line, the word for its kind and its
parts. When a statement is read all members of the object must be readable, also those that are
not its own. Members of a program or of a gene that are not its own are passed over. Programs and
genes, but not statements, may also be arrays of their parts.
-/
namespace PlainVerse.Poem

open Json (Reader Record Written)

def member? (name : String) (value : Option String) : List (String × Json) :=
  value.toList.map fun text => (name, .string text)

namespace GeneDecl

def members (decl : GeneDecl) : List (String × Json) :=
  [("name", .string decl.name)] ++ member? "desc" decl.desc ++ member? "cmd" decl.cmd ++
    [("inputs", Json.strings decl.inputs), ("outputs", Json.strings decl.outputs)]

def ofRecord? (record : Record) : Option GeneDecl := do
  let name ← record.required "name" Reader.text
  let desc ← record.optional "desc" Reader.text
  let cmd ← record.optional "cmd" Reader.text
  let inputs ← record.withDefault "inputs" [] (Reader.list Reader.text)
  let outputs ← record.withDefault "outputs" [] (Reader.list Reader.text)
  some ⟨name, desc, cmd, inputs, outputs⟩

def read : Reader GeneDecl := fun room value =>
  (Record.ofNamed? ["name", "desc", "cmd", "inputs", "outputs"] room value).bind ofRecord?

def ofText? (text : String) : Option GeneDecl := read.run text

end GeneDecl

namespace Statement

/-- A statement's object: line, kind, and the parts. -/
def object (line : Nat) (kind : Kind) (parts : List (String × Json)) : Json :=
  .object (("line", .ofNat line) :: ("type", .string kind.word) :: parts)

mutual

def toJson : Statement → Json
  | .name line given => object line .name [("name", .string given)]
  | .emit line topic payload =>
      object line .emit (("topic", .string topic) :: member? "payload" payload)
  | .trigger line condition children =>
      object line .trigger
        [("condition", .string condition), ("children", .array (listToJson children))]
  | .invoke line tool args =>
      object line .invoke [("tool", .string tool.dotted), ("kwargs", Json.textMap args)]
  | .remember line key value =>
      object line .remember [("key", .string key), ("value", .string value)]
  | .gene line decl => object line .gene decl.members
  | .text line words points =>
      object line .text [("text", .string words), ("score", .ofNat points.toNat)]

def listToJson : List Statement → List Json
  | [] => []
  | statement :: rest => statement.toJson :: listToJson rest

end

/-- A kind is given by its word, or by its position among the kinds. -/
def readKind : Reader Kind
  | _, .string pieces => (Json.string? pieces).bind Kind.ofWord?
  | room, value => (Reader.natural UInt64.size room value).bind fun index => Kind.all[index]?

/-- Reads the parts of a statement, given how the statements inside it are read. -/
def readWith (inside : Reader (List Statement)) : Reader Statement := fun room value => do
  let record ← Record.ofWritten? room value
  let line ← record.required "line" (Reader.natural UInt64.size)
  match ← record.required "type" readKind with
  | .name => return .name line (← record.required "name" Reader.text)
  | .emit =>
      let topic ← record.required "topic" Reader.text
      return .emit line topic (← record.optional "payload" Reader.text)
  | .trigger =>
      let condition ← record.required "condition" Reader.text
      return .trigger line condition (← record.required "children" inside)
  | .invoke =>
      let tool ← record.required "tool" Reader.text
      let args ← record.withDefault "kwargs" .empty (Reader.map Reader.text)
      return .invoke line (.ofDotted tool) args
  | .remember =>
      let key ← record.required "key" Reader.text
      return .remember line key (← record.required "value" Reader.text)
  | .gene => return .gene line (← GeneDecl.ofRecord? record)
  | .text =>
      let words ← record.required "text" Reader.text
      let points ← record.required "score" (Reader.natural UInt8.size)
      return .text line words (UInt8.ofNat points)

/-- Reads the parts of a statement. Two levels of nesting lie between it and the statements inside
it. -/
def readParts : Reader Statement
  | room + 2, value => readWith (Reader.list fun _ => readParts room) (room + 2) value
  | room, value => readWith (fun _ _ => none) room value

def read : Reader Statement := fun room value => do
  let _ ← Json.ofWritten? room value
  readParts room value

end Statement

namespace Program

def toJson (program : Program) : Json :=
  .object ([("statements", .array (Statement.listToJson program.statements))] ++
    member? "name" program.name ++ [("source", .string program.source)])

def read : Reader Program := fun room value => do
  let record ← Record.ofNamed? ["statements", "name", "source"] room value
  let statements ← record.required "statements" (Reader.list Statement.read)
  let name ← record.optional "name" Reader.text
  let source ← record.withDefault "source" "" Reader.text
  some ⟨statements, name, source⟩

def ofText? (text : String) : Option Program := read.run text

end Program
end PlainVerse.Poem
