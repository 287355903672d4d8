/-!
# Tool paths

A tool is named by a path, whose segments are separated by dots when it is written.
-/
namespace PlainVerse

structure ToolPath where
  segments : List String
deriving DecidableEq, Repr

namespace ToolPath

def ofDotted (dotted : String) : ToolPath :=
  ⟨(dotted.toList.splitOn '.').map String.ofList⟩

def join (path : ToolPath) (separator : String) : String :=
  String.ofList (separator.toList.intercalate (path.segments.map String.toList))

def dotted (path : ToolPath) : String := path.join "."

end ToolPath
end PlainVerse
