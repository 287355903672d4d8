/-!
# Sets of code points

A property of characters is stored as the maximal intervals of its code points. The intervals are
listed in increasing order, so the search stops at the first one that begins after the code point.
-/
namespace PlainVerse.Text

structure CodePoints where
  intervals : List (Nat × Nat)
deriving DecidableEq, Repr

def CodePoints.search (c : Nat) : List (Nat × Nat) → Bool
  | [] => false
  | (first, last) :: rest =>
      if c < first then false else if c ≤ last then true else search c rest

def CodePoints.contains (set : CodePoints) (c : Nat) : Bool := search c set.intervals

end PlainVerse.Text
