import PlainVerse.OrderedMap
import PlainVerse.ToolPath

/-!
# Statements and programs

A poem is read as a list of statements, each with the number of its line. Only triggers have
statements inside them. A line that is nothing else is a line of text and carries a score.
-/
namespace PlainVerse.Poem

/-- A gene with the properties that the lines below its header give it. -/
structure GeneDecl where
  name : String
  desc : Option String
  cmd : Option String
  inputs : List String
  outputs : List String
deriving DecidableEq, Repr

inductive Statement where
  | name (line : Nat) (name : String)
  | emit (line : Nat) (topic : String) (payload : Option String)
  | trigger (line : Nat) (condition : String) (children : List Statement)
  | invoke (line : Nat) (tool : ToolPath) (args : OrderedMap String)
  | remember (line : Nat) (key value : String)
  | gene (line : Nat) (decl : GeneDecl)
  | text (line : Nat) (text : String) (score : UInt8)

inductive Kind where
  | name
  | emit
  | trigger
  | invoke
  | remember
  | gene
  | text
deriving DecidableEq, Repr

namespace Kind

def all : List Kind := [.name, .emit, .trigger, .invoke, .remember, .gene, .text]

/-- The word for a kind of statement in JSON. -/
def word : Kind → String
  | .name => "name"
  | .emit => "emit"
  | .trigger => "when"
  | .invoke => "use"
  | .remember => "remember"
  | .gene => "gene"
  | .text => "text"

def ofWord? (word : String) : Option Kind := all.find? (·.word = word)

end Kind

namespace Statement

def line : Statement → Nat
  | .name line _ | .emit line _ _ | .trigger line _ _ | .invoke line _ _ | .remember line _ _
  | .gene line _ | .text line _ _ => line

def kind : Statement → Kind
  | .name .. => .name
  | .emit .. => .emit
  | .trigger .. => .trigger
  | .invoke .. => .invoke
  | .remember .. => .remember
  | .gene .. => .gene
  | .text .. => .text

/-- Only lines of text have a score. -/
def score : Statement → UInt32
  | .text _ _ score => score.toUInt32
  | _ => 0

def children : Statement → List Statement
  | .trigger _ _ children => children
  | _ => []

mutual

/-- A statement and all statements inside it, each before its own. -/
def nodes : Statement → List Statement
  | .trigger line condition children => .trigger line condition children :: nodesOf children
  | statement => [statement]

def nodesOf : List Statement → List Statement
  | [] => []
  | statement :: rest => nodes statement ++ nodesOf rest

end
end Statement

structure Program where
  statements : List Statement
  name : Option String
  source : String

namespace Program

def nodes (program : Program) : List Statement := Statement.nodesOf program.statements

def nodeCount (program : Program) : Nat := program.nodes.length

/-- The sum, as a word, of the scores of the statements that are not inside another one. -/
def totalScore (program : Program) : UInt32 :=
  @List.sum UInt32 _ ⟨0⟩ (program.statements.map Statement.score)

end Program
end PlainVerse.Poem
