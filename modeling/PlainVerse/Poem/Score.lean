import PlainVerse.Json
import PlainVerse.Poem.Line
import PlainVerse.Text.Scan

/-!
# Scores and whitespace profiles

The score of a line measures its use of blanks: half of its indent, and how often certain patterns
of blanks are found in it. These are two or more spaces, a space after a tab, and spaces at the end.
Runs of line feeds count as well where a text has several lines. Scores are capped and never
influence how a poem is read.
-/
namespace PlainVerse.Poem

open Text

/-- A form of text that takes at least one character wherever it is found. -/
structure Pattern where
  after? : List Char → Option (List Char)
  shorter : ∀ {text rest : List Char}, after? text = some rest → rest.length < text.length

namespace Pattern

/-- How often a pattern is found from left to right. The search goes on behind what was found. -/
def hits (pattern : Pattern) : List Char → Nat
  | [] => 0
  | x :: tail =>
      match _h : pattern.after? (x :: tail) with
      | some rest => 1 + pattern.hits rest
      | none => pattern.hits tail
termination_by text => text.length
decreasing_by
  · exact pattern.shorter _h
  · exact Nat.lt_add_one _

/-- A maximal run of `c` that is accepted together with what follows it. -/
def run (c : Char) (accept : (run rest : List Char) → Bool) : Pattern where
  after? text :=
    (run? (· = c) text).bind fun found => if accept found.1 found.2 then some found.2 else none
  shorter := by
    intro text rest h
    obtain ⟨⟨run, tail⟩, found, kept⟩ := Option.bind_eq_some_iff.1 h
    obtain ⟨-, rfl⟩ : accept run tail ∧ tail = rest := by simpa using kept
    have length := run?_length found
    have filled := run?_length_pos found
    omega

/-- Two or more `c`. -/
def repeated (c : Char) : Pattern := run c fun run _ => 2 ≤ run.length

/-- Spaces at the end of the text. -/
def finalSpaces : Pattern := run ' ' fun _ rest => rest.isEmpty

def tabSpace : Pattern where
  after? := Text.after? ['\t', ' ']
  shorter := by
    intro text rest h
    have length := after?_length h
    simp only [List.length_cons, List.length_nil] at length
    omega

/-- The patterns that count for a score. -/
def scored : List Pattern := [repeated ' ', tabSpace, finalSpaces, repeated '\n']

end Pattern

def patternHits (text : List Char) : Nat :=
  (Pattern.scored.map (·.hits text)).foldr (· + ·) 0

/-- The score of a text before it is capped. -/
def rawScore (text : List Char) : Nat := indentWidth text / 2 + patternHits text

def defaultCap : UInt8 := 7

/-- The score of a text, at most `cap`. -/
def lineScore (text : List Char) (cap : UInt8) : UInt8 :=
  if rawScore text < UInt8.size then min (UInt8.ofNat (rawScore text)) cap else cap

/-- Whitespace statistics of a source: its blank characters, its runs of spaces and of line feeds,
and the indents of the lines that are not empty. -/
structure Profile where
  blanks : Nat
  doubleSpaces : Nat
  emptyLines : Nat
  indents : List Nat
deriving DecidableEq, Repr

def Profile.ofSource (source : String) : Profile where
  blanks := source.toList.countP Text.isBlank
  doubleSpaces := (Pattern.repeated ' ').hits source.toList
  emptyLines := (Pattern.repeated '\n').hits source.toList
  indents := ((Line.ofSource source).filter (!·.isEmpty)).map Line.indent

def Profile.toJson (profile : Profile) : Json :=
  .object [("total_whitespace", .ofNat profile.blanks),
    ("double_spaces", .ofNat profile.doubleSpaces),
    ("empty_lines", .ofNat profile.emptyLines),
    ("indentation_levels", .array (profile.indents.map .ofNat))]

end PlainVerse.Poem
