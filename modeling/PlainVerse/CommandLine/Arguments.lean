import PlainVerse.Command.Compile
import PlainVerse.Gene.Document
import PlainVerse.Poem.Score

/-!
# Command-line arguments

The first argument names a task. The others are options and words of text, in any order. The value
of an option is attached by an equals sign or is the next argument, which must not look like an
option. After `--` every argument is a word. An option may be given once, and an input file only
without words. There are no help pages: an argument that asks for one is rejected like any other
that has no meaning.
-/
namespace PlainVerse.CommandLine

inductive Flag where
  | file
  | seed
  | codec
  | strict
  | scoreCap
  | defaultGene
  | defaultCmd
deriving DecidableEq, Repr

inductive Verb where
  | compile
  | plain
  | parse
  | lower
  | introns
deriving DecidableEq, Repr

def Flag.name : Flag → String
  | .file => "file"
  | .seed => "seed"
  | .codec => "codec"
  | .strict => "strict"
  | .scoreCap => "score-cap"
  | .defaultGene => "default-gene"
  | .defaultCmd => "default-cmd"

/-- All options but one take a value. -/
def Flag.takesValue : Flag → Bool
  | .strict => false
  | _ => true

namespace Verb

def all : List Verb := [.compile, .plain, .parse, .lower, .introns]

def name : Verb → String
  | .compile => "compile"
  | .plain => "plain"
  | .parse => "parse"
  | .lower => "lower"
  | .introns => "introns"

def ofName? (name : String) : Option Verb := all.find? (·.name = name)

def flags : Verb → List Flag
  | .compile => [.file, .seed, .codec, .strict]
  | .plain => [.file]
  | .parse => [.file, .scoreCap]
  | .lower => [.file, .defaultGene, .defaultCmd]
  | .introns => [.file]

def flag? (verb : Verb) (name : List Char) : Option Flag :=
  verb.flags.find? (·.name.toList = name)

end Verb

/-- An argument by itself. -/
inductive Argument where
  | word
  | separator
  | flag (flag : Flag) (attached : Option (List Char))
  | unknown

/-- The value after the letter of a short option; an equals sign in front does not belong to it. -/
def attachedValue : List Char → Option (List Char)
  | [] => none
  | '=' :: value => some value
  | value => some value

/-- A long option by its name and what follows the first equals sign. -/
def longArgument (verb : Verb) (text : List Char) : Argument :=
  let (name, attached) :=
    match text.dropWhile (· != '=') with
    | [] => (text, none)
    | _ :: value => (text.takeWhile (· != '='), some value)
  match verb.flag? name with
  | some flag => .flag flag attached
  | none => .unknown

/-- Arguments with a hyphen in front are options; a hyphen alone is a word. -/
def argumentOf (verb : Verb) (argument : String) : Argument :=
  match argument.toList with
  | ['-', '-'] => .separator
  | '-' :: '-' :: text => longArgument verb text
  | '-' :: 'f' :: text => .flag .file (attachedValue text)
  | '-' :: _ :: _ => .unknown
  | _ => .word

/-- Whether an argument can be the value of the option before it. -/
def isValue (argument : String) : Bool :=
  match argument.toList with
  | '-' :: _ :: _ => false
  | _ => true

/-- The options with their values, and the words, both in the order given. -/
structure Arguments where
  options : List (Flag × String)
  words : List String
deriving DecidableEq, Repr

namespace Arguments

def addWord (word : String) (arguments : Arguments) : Arguments :=
  { arguments with words := word :: arguments.words }

def addOption (flag : Flag) (value : String) (arguments : Arguments) : Arguments :=
  { arguments with options := (flag, value) :: arguments.options }

def collect? (verb : Verb) : List String → Option Arguments
  | [] => some ⟨[], []⟩
  | argument :: rest =>
      match argumentOf verb argument with
      | .word => (collect? verb rest).map (addWord argument)
      | .separator => some ⟨[], rest⟩
      | .unknown => none
      | .flag flag none =>
          if flag.takesValue then
            match rest with
            | [] => none
            | value :: rest =>
                if isValue value then (collect? verb rest).map (addOption flag value) else none
          else (collect? verb rest).map (addOption flag "")
      | .flag flag (some value) =>
          if flag.takesValue then
            (collect? verb rest).map (addOption flag (String.ofList value))
          else none

def value? (arguments : Arguments) (flag : Flag) : Option String := arguments.options.lookup flag

/-- No option is given twice, and no words are given beside a file. -/
def isConsistent (arguments : Arguments) : Bool :=
  (arguments.options.map Prod.fst).Nodup &&
    ((arguments.value? .file).isNone || arguments.words.isEmpty)

end Arguments

/-- A seed may have a plus sign in front. -/
def seed? (value : String) : Option UInt64 :=
  match value.toList with
  | '+' :: digits => Text.word64? digits
  | digits => Text.word64? digits

/-- A cap may have a sign in front, so a negative zero is a zero. -/
def cap? (value : String) : Option UInt8 :=
  let cap (bound : Nat) (digits : List Char) := (Text.decimal? bound digits).map UInt8.ofNat
  match value.toList with
  | '+' :: digits => cap UInt8.size digits
  | '-' :: digits => cap 1 digits
  | digits => cap UInt8.size digits

/-- The value of an option if it is given; fails if it has no meaning. -/
def given? {α : Type} (value : Option String) (meaning : String → Option α) (default : α) :
    Option α :=
  match value with
  | none => some default
  | some text => meaning text

/-- What is done with the input. -/
inductive Task where
  | compile (options : Command.Options) (strict : Bool)
  | plain
  | parse (cap : UInt8)
  | lower (options : Gene.Options)
  | introns
deriving DecidableEq, Repr

/-- Where the input comes from. -/
inductive Source where
  | file (path : String)
  | words (words : List String)
  | standardInput
deriving DecidableEq, Repr

structure Request where
  task : Task
  source : Source
deriving DecidableEq, Repr

namespace Request

def task? (verb : Verb) (arguments : Arguments) : Option Task :=
  match verb with
  | .compile => do
      let defaults : Command.Options := {}
      let seed ← given? (arguments.value? .seed) seed? defaults.seed
      let codec := (arguments.value? .codec).getD defaults.codec
      some (.compile { defaults with codec := codec, seed := seed }
        (arguments.value? .strict).isSome)
  | .plain => some .plain
  | .parse => (given? (arguments.value? .scoreCap) cap? Poem.defaultCap).map .parse
  | .lower =>
      let defaults : Gene.Options := {}
      some (.lower ⟨(arguments.value? .defaultGene).getD defaults.name,
        (arguments.value? .defaultCmd).or defaults.cmd⟩)
  | .introns => some .introns

/-- The name of a file must not be empty. -/
def source? (arguments : Arguments) : Option Source :=
  match arguments.value? .file with
  | some path => if path = "" then none else some (.file path)
  | none => some (if arguments.words.isEmpty then .standardInput else .words arguments.words)

def ofArguments? : List String → Option Request
  | [] => none
  | name :: rest => do
      let verb ← Verb.ofName? name
      let arguments ← Arguments.collect? verb rest
      if !arguments.isConsistent then none
      else
        let task ← task? verb arguments
        let source ← source? arguments
        some ⟨task, source⟩

end Request
end PlainVerse.CommandLine
