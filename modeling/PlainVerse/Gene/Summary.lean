import PlainVerse.Json.Reader
import PlainVerse.Poem.Json

/-!
# Summaries of statements

A summary is a statement without the statements inside it, as it is listed under a gene. The
payload of a signal is a JSON value there: the value that its text denotes, or else the text
itself as a string, or null if there is no payload.
-/
namespace PlainVerse.Gene

open Poem

def payloadValue : Option String → Json
  | none => .null
  | some text => (Json.read? text).getD (.string text)

inductive Summary.Content where
  | name (name : String)
  | emit (topic : String) (payload : Json)
  | trigger (condition : String)
  | invoke (tool : String) (args : OrderedMap String)
  | remember (key value : String)
  | gene (name : String)
  | text (text : String) (score : UInt8)

structure Summary where
  line : Nat
  content : Summary.Content

namespace Summary

def contentOf : Statement → Content
  | .name _ given => .name given
  | .emit _ topic payload => .emit topic (payloadValue payload)
  | .trigger _ condition _ => .trigger condition
  | .invoke _ tool args => .invoke tool.dotted args
  | .remember _ key value => .remember key value
  | .gene _ decl => .gene decl.name
  | .text _ words points => .text words points

def ofStatement (statement : Statement) : Summary := ⟨statement.line, contentOf statement⟩

def Content.kind : Content → Kind
  | .name .. => .name
  | .emit .. => .emit
  | .trigger .. => .trigger
  | .invoke .. => .invoke
  | .remember .. => .remember
  | .gene .. => .gene
  | .text .. => .text

def Content.members : Content → List (String × Json)
  | .name given => [("name", .string given)]
  | .emit topic payload => [("topic", .string topic), ("payload", payload)]
  | .trigger condition => [("text", .string condition)]
  | .invoke tool args => [("tool", .string tool), ("args", Json.textMap args)]
  | .remember key value => [("key", .string key), ("value", .string value)]
  | .gene given => [("name", .string given)]
  | .text words points => [("text", .string words), ("score", .ofNat points.toNat)]

def toJson (summary : Summary) : Json :=
  .object (("type", .string summary.content.kind.word) :: ("line", .ofNat summary.line) ::
    summary.content.members)

end Summary
end PlainVerse.Gene
