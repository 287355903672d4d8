import PlainVerse.Text.CodePoints

/-!
# Blank characters and trimming

Blank characters are those with the White_Space property: the ASCII blanks, the next-line control,
the no-break space, and the spaces and separators of the general punctuation block. The zero-width
space and the byte order mark are not among them.
-/
namespace PlainVerse.Text

def blankCodePoints : CodePoints :=
  ⟨[(0x0009, 0x000D), (0x0020, 0x0020), (0x0085, 0x0085), (0x00A0, 0x00A0), (0x1680, 0x1680),
    (0x2000, 0x200A), (0x2028, 0x2029), (0x202F, 0x202F), (0x205F, 0x205F), (0x3000, 0x3000)]⟩

def isBlank (c : Char) : Bool := blankCodePoints.contains c.toNat

/-- Drops characters from the end while `p` holds. -/
def dropWhileEnd (p : Char → Bool) (text : List Char) : List Char :=
  (text.reverse.dropWhile p).reverse

/-- Drops characters from both ends while `p` holds. -/
def dropEnds (p : Char → Bool) (text : List Char) : List Char :=
  dropWhileEnd p (text.dropWhile p)

def trim (text : List Char) : List Char := dropEnds isBlank text

end PlainVerse.Text
