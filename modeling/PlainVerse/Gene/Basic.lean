import PlainVerse.Digest
import PlainVerse.Gene.Summary

/-!
# Genes

A gene is a named unit with operations. The estimate of a gene counts how often each operation
occurs in it, in the order of first occurrence; the counts are words of 32 bits. Genes come from
declarations, from triggers, from signals and tools that stand alone, and as the default gene of a
program.
-/
namespace PlainVerse

open Poem

/-- What a gene of a particular origin has in addition. -/
inductive Gene.Detail where
  | plain
  | trigger (condition : String) (body : List Gene.Summary)
  | signal (topic : String) (payload : Json)
  | tool (path : String) (args : OrderedMap String)

structure Gene where
  name : String
  desc : String
  cmd : Option String
  inputs : List String
  outputs : List String
  ops : List String
  estimate : OrderedMap UInt32
  tags : List String
  statements : List Gene.Summary
  detail : Gene.Detail

namespace Gene

def emitOp : String := "pheromone.emit"

def listenOp : String := "event.listen"

def toolOp (path : ToolPath) : String := "tool:" ++ path.dotted

/-- The tag of every gene. -/
def tag : String := "bio_poetica"

/-- A gene without operations. -/
def bare (name desc : String) (tags : List String) (detail : Detail) : Gene where
  name := name
  desc := desc
  cmd := none
  inputs := []
  outputs := []
  ops := []
  estimate := .empty
  tags := tags
  statements := []
  detail := detail

/-- Appends an operation and counts it. -/
def pushOp (gene : Gene) (op : String) : Gene :=
  { gene with
    ops := gene.ops ++ [op]
    estimate := gene.estimate.insert op ((gene.estimate.get? op).getD 0 + 1) }

def declared (decl : GeneDecl) : Gene :=
  { bare decl.name (decl.desc.getD ("Bio_Poetica gene: " ++ decl.name)) [tag] .plain with
    cmd := decl.cmd
    inputs := decl.inputs
    outputs := decl.outputs }.pushOp emitOp

/-- The gene of a trigger, named after a digest of its condition. -/
def trigger (condition : String) (children : List Statement) : Gene :=
  ({ bare ("trigger:when_" ++ Digest.short condition) ("Trigger when " ++ condition)
      ["trigger", tag] (.trigger condition (children.map Summary.ofStatement)) with
    inputs := ["event"]
    outputs := ["triggered"] }.pushOp listenOp).pushOp emitOp

/-- The gene of a signal outside every declared gene. -/
def emit (topic : String) (payload : Option String) : Gene :=
  { bare ("emit:" ++ topic) ("Emit " ++ topic ++ " signal") ["signal", tag]
      (.signal topic (payloadValue payload)) with
    outputs := ["signal"] }.pushOp emitOp

/-- The gene of a tool outside every declared gene. -/
def tool (path : ToolPath) (args : OrderedMap String) : Gene :=
  { bare ("tool:" ++ path.join "_") ("Use " ++ path.dotted ++ " tool") ["tool", tag]
      (.tool path.dotted args) with
    inputs := args.keys
    outputs := ["result"] }.pushOp (toolOp path)

/-- The gene that takes in the statements of a program without declared genes. -/
def fallback (name : String) (cmd : Option String) (statements : List Summary) : Gene :=
  { bare name "Main Bio_Poetica flow" [tag, "auto_generated"] .plain with
    cmd := cmd
    outputs := ["result"]
    statements := statements }.pushOp emitOp

def summaries (list : List Summary) : Json := .array (list.map Summary.toJson)

def Detail.members : Detail → List (String × Json)
  | .plain => []
  | .trigger condition body =>
      [("x-condition", .string condition), ("x-body", summaries body)]
  | .signal topic payload => [("x-topic", .string topic), ("x-payload", payload)]
  | .tool path args => [("x-tool", .string path), ("x-args", Json.textMap args)]

def estimateJson (gene : Gene) : Json :=
  .object (gene.estimate.entries.map fun entry => (entry.1, .ofNat entry.2))

def toJson (gene : Gene) : Json :=
  .object ([("name", .string gene.name), ("desc", .string gene.desc),
    ("cmd", (gene.cmd.map Json.string).getD .null), ("inputs", Json.strings gene.inputs),
    ("outputs", Json.strings gene.outputs), ("ops", Json.strings gene.ops),
    ("estimate", gene.estimateJson), ("tags", Json.strings gene.tags)] ++
    (if gene.statements.isEmpty then [] else [("x-statements", summaries gene.statements)]) ++
    gene.detail.members)

end Gene
end PlainVerse
