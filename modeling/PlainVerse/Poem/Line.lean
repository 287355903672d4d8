import PlainVerse.Text.Blank

/-!
# Lines of a poem

The lines of a source are numbered from one. A line is known by its text, which is trimmed, and by
its indent, which counts the blank characters in front of the text.
-/
namespace PlainVerse.Poem

structure Line where
  number : Nat
  raw : List Char
deriving DecidableEq, Repr

def indentWidth (raw : List Char) : Nat := (raw.takeWhile Text.isBlank).length

namespace Line

def text (line : Line) : List Char := Text.trim line.raw

def indent (line : Line) : Nat := indentWidth line.raw

def isEmpty (line : Line) : Bool := line.text.isEmpty

def ofSource (source : String) : List Line :=
  ((source.toList.splitOn '\n').zipIdx 1).map fun (raw, number) => ⟨number, raw⟩

end Line
end PlainVerse.Poem
