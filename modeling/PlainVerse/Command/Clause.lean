import PlainVerse.Text.DecimalDigit
import PlainVerse.Text.Scan
import PlainVerse.Text.WordChar

/-!
# Clauses of a command

Clauses are found anywhere in a text, each family on its own. A compress clause is
`compress payload 'p'` with an optional `using seed=n` and then an optional `as x`; there may be
several of them, and they do not overlap. A compare clause is `compare a with b` and an explain
clause is `explain e`; the leftmost of each counts. One or more blanks stand between the words.
-/
namespace PlainVerse.Command

open Text

inductive Family where
  | compress
  | compare
  | attest
  | explain
deriving DecidableEq, Repr

namespace Family

/-- The order in which the families are carried out. -/
def all : List Family := [.compress, .compare, .attest, .explain]

def keyword : Family → String
  | .compress => "compress"
  | .compare => "compare"
  | .attest => "attest"
  | .explain => "explain"

/-- A family is present if its keyword occurs, even inside other words. -/
def isPresent (family : Family) (text : String) : Bool :=
  occurs family.keyword.toList text.toList

end Family

structure CompressClause where
  payload : String
  seed : Option String
  name : Option String
deriving DecidableEq, Repr

def isQuote (c : Char) : Bool := c = '"' || c = '\''

/-- A payload between two quotes, which need not be of one kind. -/
def payload? : List Char → Option (List Char × List Char)
  | [] => none
  | opening :: text =>
      if isQuote opening then
        match text.dropWhile (!isQuote ·) with
        | [] => none
        | _ :: rest => some (text.takeWhile (!isQuote ·), rest)
      else none

/-- The digits after `using seed=`. -/
def seed? (text : List Char) : Option (List Char × List Char) := do
  let text ← afterBlanks? text
  let text ← afterWord? "using".toList text
  let text ← after? "seed=".toList text
  run? isDecimalDigit text

/-- The name after `as`. -/
def name? (text : List Char) : Option (List Char × List Char) := do
  let text ← afterBlanks? text
  let text ← afterWord? "as".toList text
  run? isWord text

/-- A part that may be missing: without it nothing is taken. -/
def optional (part : List Char → Option (List Char × List Char)) (text : List Char) :
    Option (List Char) × List Char :=
  match part text with
  | some (found, rest) => (some found, rest)
  | none => (none, text)

/-- A compress clause at the start of a text, and what follows it. -/
def compressClause? (text : List Char) : Option (CompressClause × List Char) := do
  let text ← afterWord? "compress".toList text
  let text ← afterWord? "payload".toList text
  let (payload, text) ← payload? text
  let (seed, text) := optional seed? text
  let (name, text) := optional name? text
  some (⟨String.ofList payload, seed.map String.ofList, name.map String.ofList⟩, text)

theorem afterWord?_length {word text rest : List Char} (h : afterWord? word text = some rest) :
    word.length + rest.length ≤ text.length := by
  obtain ⟨middle, hmiddle, hrest⟩ := Option.bind_eq_some_iff.1 h
  have := after?_length hmiddle
  have := afterBlanks?_length hrest
  omega

theorem payload?_length {text payload rest : List Char}
    (h : payload? text = some (payload, rest)) : rest.length ≤ text.length := by
  unfold payload? at h
  split at h
  · simp at h
  · rename_i opening tail
    split at h
    · have := (List.dropWhile_sublist (!isQuote ·) (l := tail)).length_le
      split at h
      · simp at h
      · rename_i hdrop
        simp only [Option.some.injEq, Prod.mk.injEq] at h
        rw [hdrop, h.2, List.length_cons] at this
        rw [List.length_cons]
        omega
    · simp at h

theorem seed?_length {text digits rest : List Char} (h : seed? text = some (digits, rest)) :
    rest.length ≤ text.length := by
  simp only [seed?, Option.bind_eq_bind, Option.bind_eq_some_iff] at h
  obtain ⟨a, ha, b, hb, c, hc, hd⟩ := h
  have := afterBlanks?_length ha
  have := afterWord?_length hb
  have := after?_length hc
  have := run?_length hd
  omega

theorem name?_length {text word rest : List Char} (h : name? text = some (word, rest)) :
    rest.length ≤ text.length := by
  simp only [name?, Option.bind_eq_bind, Option.bind_eq_some_iff] at h
  obtain ⟨a, ha, b, hb, hc⟩ := h
  have := afterBlanks?_length ha
  have := afterWord?_length hb
  have := run?_length hc
  omega

theorem optional_length (part : List Char → Option (List Char × List Char))
    (hpart : ∀ text found rest, part text = some (found, rest) → rest.length ≤ text.length)
    (text : List Char) : (optional part text).2.length ≤ text.length := by
  unfold optional
  split
  · rename_i h
    exact hpart _ _ _ h
  · exact Nat.le_refl _

theorem compressClause?_length {text rest : List Char} {clause : CompressClause}
    (h : compressClause? text = some (clause, rest)) : rest.length < text.length := by
  simp only [compressClause?, Option.bind_eq_bind, Option.bind_eq_some_iff, Option.some.injEq] at h
  obtain ⟨a, ha, b, hb, ⟨p, c⟩, hc, he⟩ := h
  simp only [Prod.mk.injEq] at he
  have := afterWord?_length ha
  have := afterWord?_length hb
  have := payload?_length hc
  have := optional_length seed? (fun _ _ _ => seed?_length) c
  have := optional_length name? (fun _ _ _ => name?_length) (optional seed? c).2
  have : 0 < "compress".toList.length := by decide
  rw [← he.2]
  omega

/-- The compress clauses of a text from left to right; each begins after the one before it. -/
def compressClausesIn (text : List Char) : List CompressClause :=
  match _h : compressClause? text with
  | some (clause, rest) => clause :: compressClausesIn rest
  | none =>
      match text with
      | [] => []
      | _ :: tail => compressClausesIn tail
termination_by text.length
decreasing_by
  · exact compressClause?_length _h
  · simp

def compressClauses (text : String) : List CompressClause := compressClausesIn text.toList

/-- The two names of a compare clause at the start of a text. -/
def comparePairAt? (text : List Char) : Option (String × String) := do
  let text ← afterWord? "compare".toList text
  let (a, text) ← run? isWord text
  let text ← afterBlanks? text
  let text ← afterWord? "with".toList text
  let (b, _) ← run? isWord text
  some (String.ofList a, String.ofList b)

def comparePair? (text : String) : Option (String × String) :=
  leftmost? comparePairAt? text.toList

/-- The name of an explain clause at the start of a text. -/
def explainTargetAt? (text : List Char) : Option String := do
  let text ← afterWord? "explain".toList text
  let (name, _) ← run? isWord text
  some (String.ofList name)

def explainTarget? (text : String) : Option String := leftmost? explainTargetAt? text.toList

end PlainVerse.Command
