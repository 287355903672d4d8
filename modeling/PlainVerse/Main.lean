import PlainVerse.CommandLine.Run

/-!
# The program

Only the input that a request asks for is read.
-/
namespace PlainVerse.CommandLine

def readFile? (path : String) : IO (Option ByteArray) := do
  try
    return some (← IO.FS.readBinFile path)
  catch _ =>
    return none

/-- The bytes of a request's input; none if they cannot be read. -/
def readInput? : Source → IO (Option ByteArray)
  | .file path => readFile? path
  | .words _ => return some .empty
  | .standardInput => do
      try
        return some (← (← IO.getStdin).readBinToEnd)
      catch _ =>
        return none

def execute (arguments : List String) : IO Outcome := do
  match Request.ofArguments? arguments with
  | none => return .rejected
  | some request =>
      let bytes ← readInput? request.source
      return run (fun _ => bytes) bytes arguments

end PlainVerse.CommandLine

def main (arguments : List String) : IO UInt32 := do
  let outcome ← PlainVerse.CommandLine.execute arguments
  IO.print outcome.stdout
  return outcome.exit
