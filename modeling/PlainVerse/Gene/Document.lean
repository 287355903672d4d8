import PlainVerse.Gene.Basic

/-!
# Gene documents

The statements of a program are bundled under genes from first to last. A declared gene stays open
until the next declaration, and takes in the signals, tools and other statements that follow it;
those before the first declaration wait for it. Triggers become genes of their own and take in
nothing. Without any declaration, signals and tools become genes of their own as well, and a
default gene takes in the rest.
-/
namespace PlainVerse.Gene

open Poem

/-- The name and command of the default gene. -/
structure Options where
  name : String := "bio:main"
  cmd : Option String := none
deriving DecidableEq, Repr

/-- A declared gene that is still open, and the genes that came after it. -/
structure OpenGene where
  gene : Gene
  followers : List Gene

/-- The genes so far, and the summaries that wait for the open gene to be closed or for the first
gene to be declared. -/
structure Bundle where
  closed : List Gene
  current : Option OpenGene
  waiting : List Summary

namespace Bundle

def empty : Bundle := ⟨[], none, []⟩

/-- Gives the summaries that wait to the open gene, if there is one, and closes it. -/
def close (bundle : Bundle) : Bundle :=
  match bundle.current with
  | none => bundle
  | some ⟨gene, followers⟩ =>
      let gene := { gene with statements := gene.statements ++ bundle.waiting }
      ⟨bundle.closed ++ gene :: followers, none, []⟩

/-- Adds a gene of its own. -/
def addGene (bundle : Bundle) (gene : Gene) : Bundle :=
  match bundle.current with
  | none => { bundle with closed := bundle.closed ++ [gene] }
  | some ⟨openGene, followers⟩ =>
      { bundle with current := some ⟨openGene, followers ++ [gene]⟩ }

def wait (bundle : Bundle) (statement : Statement) : Bundle :=
  { bundle with waiting := bundle.waiting ++ [.ofStatement statement] }

/-- Adds an operation to the open gene. Without one the statement becomes the gene `alone`. -/
def attach (bundle : Bundle) (statement : Statement) (op : String) (alone : Gene) : Bundle :=
  match bundle.current with
  | none => bundle.addGene alone
  | some ⟨gene, followers⟩ =>
      { bundle with current := some ⟨gene.pushOp op, followers⟩ }.wait statement

def add (bundle : Bundle) (statement : Statement) : Bundle :=
  match statement with
  | .gene _ decl => { bundle.close with current := some ⟨declared decl, []⟩ }
  | .trigger _ condition children => bundle.addGene (trigger condition children)
  | .emit _ topic payload => bundle.attach statement emitOp (emit topic payload)
  | .invoke _ path args => bundle.attach statement (toolOp path) (tool path args)
  | .name .. | .remember .. | .text .. => bundle.wait statement

/-- The genes of a program whose statements have all been added. -/
def genes (bundle : Bundle) (options : Options) : List Gene :=
  let done := bundle.close
  if !done.waiting.isEmpty || done.closed.isEmpty then
    done.closed ++ [fallback options.name options.cmd done.waiting]
  else done.closed

end Bundle

structure Document where
  genes : List Gene
  programName : String
  level : UInt32

namespace Document

def ofProgram (program : Program) (options : Options) : Document where
  genes := (program.statements.foldl Bundle.add .empty).genes options
  programName := program.name.getD "unnamed"
  level := program.totalScore

/-- The first gene of a given name. -/
def gene? (document : Document) (name : String) : Option Gene :=
  document.genes.find? (·.name = name)

def toJson (document : Document) : Json :=
  .object [("krsp_version", .string "1"), ("source", .string tag),
    ("genes", .array (document.genes.map Gene.toJson)),
    ("meta", .object [("program_name", .string document.programName),
      ("consciousness_level", .ofNat document.level), ("dna_mutations", .array [])])]

end Document
end PlainVerse.Gene
