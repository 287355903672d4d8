/-!
# Keywords in any case

Simple case folding, as far as it leads to the letters of ASCII. Beyond the capital letters of
ASCII these are the long s and the Kelvin sign.
-/
namespace PlainVerse.Text

def foldChar (c : Char) : Char :=
  if c = '\u017f' then 's' else if c = '\u212a' then 'k' else c.toLower

/-- What follows `word`, in any case, at the start of a text. -/
def afterFolded? : (word text : List Char) → Option (List Char)
  | [], text => some text
  | _ :: _, [] => none
  | w :: word, c :: text => if w = foldChar c then afterFolded? word text else none

end PlainVerse.Text
