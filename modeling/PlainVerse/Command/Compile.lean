import PlainVerse.AliasTable
import PlainVerse.Command.Clause
import PlainVerse.Json.Printer
import PlainVerse.Plan.Json
import PlainVerse.Text.LowerCase

/-!
# From commands to plans

A command is trimmed and lowered, and then the families of clauses are carried out in a fixed
order, wherever their clauses stand: compress, compare, attest, explain. Results of compress and
compare clauses get names that later clauses can refer to.
-/
namespace PlainVerse.Command

open Plan (Entry)

inductive CompileError where
  | emptyPayload
  | undefinedRef (name : String)
  | invalidSeed (digits : String)
deriving DecidableEq, Repr

namespace CompileError

def kind : CompileError → String
  | .emptyPayload => "EMPTY_PAYLOAD"
  | .undefinedRef _ => "UNDEFINED_REF"
  | .invalidSeed _ => "INVALID_SEED"

def message : CompileError → String
  | .emptyPayload => "EMPTY_PAYLOAD"
  | .undefinedRef name => "UNDEFINED_REF:" ++ name
  | .invalidSeed digits => "INVALID_SEED:" ++ digits

def toJson (error : CompileError) : Json := .object [("error", .string error.message)]

end CompileError

structure Options where
  version : String := "0.1"
  codec : String := "fibpi3d"
  seed : UInt64 := 42
deriving DecidableEq, Repr

/-- The names and entries so far, and the result of the last compress clause. -/
structure Context where
  aliases : AliasTable
  lastCompress : Option String
  entries : List Entry

namespace Context

def empty : Context := ⟨.empty, none, []⟩

def addEntry (context : Context) (entry : Entry) : Context :=
  { context with entries := context.entries ++ [entry] }

end Context

def normalize (text : String) : String :=
  String.ofList (Text.lower (Text.trim text.toList))

/-- The seed of a compress clause. Digits of other scripts than ASCII have no value here. -/
def seedOf (options : Options) : Option String → Except CompileError UInt64
  | none => .ok options.seed
  | some digits =>
      match Text.word64? digits.toList with
      | some seed => .ok seed
      | none => .error (.invalidSeed digits)

/-- The name that a clause gives to its result, or a new one. -/
def resultName (aliases : AliasTable) : Option String → String × AliasTable
  | some name => (name, aliases)
  | none => aliases.fresh "r"

def compressEntry (options : Options) (payload : String) (seed : UInt64) (name : String) :
    Entry :=
  (Entry.ofOp .compress).withInput "payload" (Plan.literalMark ++ payload)
    |>.withParam "use" (.string options.codec)
    |>.withParam "seed" (.ofNat seed.toNat)
    |>.withOut name

def compress (options : Options) (context : Context) (clause : CompressClause) :
    Except CompileError Context := do
  if clause.payload = "" then throw .emptyPayload
  let seed ← seedOf options clause.seed
  let (name, aliases) := resultName context.aliases clause.name
  return { context with aliases := aliases.define name, lastCompress := some name }.addEntry
    (compressEntry options clause.payload seed name)

/-- The names to compare. Without a pair the last compress result is compared with itself. -/
def compared (context : Context) (text : String) : Except CompileError (String × String) :=
  match comparePair? text with
  | some (a, b) =>
      if !context.aliases.isDefined a then .error (.undefinedRef a)
      else if !context.aliases.isDefined b then .error (.undefinedRef b)
      else .ok (a, b)
  | none =>
      match context.lastCompress with
      | some last => .ok (last, last)
      | none => .error (.undefinedRef "no_compress_found")

def compareEntry (a b name : String) : Entry :=
  (Entry.ofOp .compare).withInput "a" a |>.withInput "b" b |>.withOut name

def compare (context : Context) (text : String) : Except CompileError Context := do
  let (a, b) ← compared context text
  let (name, aliases) := context.aliases.fresh "cmp"
  return { context with aliases := aliases.define name }.addEntry (compareEntry a b name)

def attestEntry (artifact name : String) : Entry :=
  (Entry.ofOp .attest).withInput "artifact" artifact |>.withOut name

/-- The output of an attest entry gets a name that nothing can refer to. -/
def attest (context : Context) : Context :=
  let (name, aliases) := context.aliases.fresh "att"
  { context with aliases := aliases }.addEntry
    (attestEntry (context.lastCompress.getD "r1") name)

/-- What an explain entry is about: the name given, or the name that was defined last. -/
def explained (context : Context) (text : String) : Except CompileError String :=
  match explainTarget? text with
  | some name =>
      if context.aliases.isDefined name then .ok name else .error (.undefinedRef name)
  | none => .ok (context.aliases.last.getD "unknown")

def explainEntry (target : String) : Entry :=
  (Entry.ofOp .explain).withInput "ref" target |>.withOut "_explanation"

def explain (context : Context) (text : String) : Except CompileError Context := do
  let target ← explained context text
  return context.addEntry (explainEntry target)

/-- Carries out one family on a normalized text. Without its keyword nothing happens. -/
def perform (options : Options) (text : String) (context : Context) :
    Family → Except CompileError Context
  | .compress => (compressClauses text).foldlM (compress options) context
  | .compare => if Family.compare.isPresent text then compare context text else .ok context
  | .attest => .ok (if Family.attest.isPresent text then attest context else context)
  | .explain => if Family.explain.isPresent text then explain context text else .ok context

def compile (options : Options) (text : String) : Except CompileError Plan := do
  let text := normalize text
  if text = "" then throw .emptyPayload
  let context ← Family.all.foldlM (perform options text) Context.empty
  return ⟨options.version, context.entries⟩

/-- What compiling has led to, in JSON: the plan, or an object that holds the error. -/
def outcome : Except CompileError Plan → Json
  | .ok plan => plan.toJson
  | .error error => error.toJson

def compileText (text : String) : String := (outcome (compile {} text)).pretty

end PlainVerse.Command
