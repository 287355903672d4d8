import PlainVerse.Text.Blank

/-!
# Recognising text from the left

Small recognisers over a list of characters. Each returns what follows the part it accepts, so
that a longer form is a chain of them. Runs of characters are always taken as long as possible.
-/
namespace PlainVerse.Text

/-- What follows `word` at the start of a text. -/
def after? : (word text : List Char) → Option (List Char)
  | [], text => some text
  | _ :: _, [] => none
  | w :: word, c :: text => if w = c then after? word text else none

/-- A non-empty maximal run of characters with `p`, and what follows it. -/
def run? (p : Char → Bool) (text : List Char) : Option (List Char × List Char) :=
  match text.takeWhile p with
  | [] => none
  | run => some (run, text.dropWhile p)

/-- What follows one or more blanks. -/
def afterBlanks? (text : List Char) : Option (List Char) :=
  (run? isBlank text).map Prod.snd

/-- What follows `word` and one or more blanks. -/
def afterWord? (word text : List Char) : Option (List Char) :=
  (after? word text).bind afterBlanks?

/-- The first position, from the left, at which `accept` succeeds. -/
def leftmost? {α : Type} (accept : List Char → Option α) : List Char → Option α
  | [] => accept []
  | c :: text => accept (c :: text) <|> leftmost? accept text

/-- Whether `word` occurs in a text. -/
def occurs (word text : List Char) : Bool := (leftmost? (after? word) text).isSome

/-- The parts before and after the first `separator`. -/
def splitOnce? (separator : Char) (text : List Char) : Option (List Char × List Char) :=
  match text.dropWhile (· != separator) with
  | [] => none
  | _ :: rest => some (text.takeWhile (· != separator), rest)

theorem after?_length {word text rest : List Char} (h : after? word text = some rest) :
    text.length = word.length + rest.length := by
  induction word generalizing text with
  | nil => simp_all [after?]
  | cons w word ih =>
      cases text with
      | nil => simp [after?] at h
      | cons c text =>
          simp only [after?] at h
          split at h
          · simp only [List.length_cons, ih h]
            omega
          · simp at h

theorem run?_length {p : Char → Bool} {text run rest : List Char}
    (h : run? p text = some (run, rest)) : text.length = run.length + rest.length := by
  have split := List.takeWhile_append_dropWhile (p := p) (l := text)
  unfold run? at h
  split at h
  · simp at h
  · simp only [Option.some.injEq, Prod.mk.injEq] at h
    rw [← h.1, ← h.2, ← List.length_append, split]

theorem run?_length_pos {p : Char → Bool} {text run rest : List Char}
    (h : run? p text = some (run, rest)) : 0 < run.length := by
  unfold run? at h
  split at h
  · simp at h
  · rename_i nonempty
    simp only [Option.some.injEq, Prod.mk.injEq] at h
    rw [← h.1]
    exact List.length_pos_iff.2 nonempty

theorem afterBlanks?_length {text rest : List Char} (h : afterBlanks? text = some rest) :
    rest.length ≤ text.length := by
  obtain ⟨⟨run, tail⟩, hrun, rfl⟩ := Option.map_eq_some_iff.1 h
  have := run?_length hrun
  simp only
  omega

end PlainVerse.Text
