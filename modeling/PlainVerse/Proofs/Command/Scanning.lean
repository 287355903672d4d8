import PlainVerse.Command.Clause
import PlainVerse.Proofs.Text.Normal

/-!
# How clauses are looked for

What each of the three searches needs to find at a position of the text, and how the scan for
compress clauses moves on. A compress clause starts inside a part without blanks only if the part
ends with its keyword and the text goes on with the second word of the clause.
-/
namespace PlainVerse.Command

open Text

theorem beginsWith_comparePairAt? :
    BeginsWith comparePairAt? Family.compare.keyword.toList :=
  beginsWith_afterWord? "compare".toList

theorem beginsWith_explainTargetAt? :
    BeginsWith explainTargetAt? Family.explain.keyword.toList :=
  beginsWith_afterWord? "explain".toList

theorem isBlank_of_isQuote {c : Char} (h : isQuote c = true) : isBlank c = false := by
  rcases (by simpa [isQuote] using h : c = '"' ∨ c = '\'') with rfl | rfl
  · decide
  · decide

theorem payload?_quoted {quote : Char} {payload : List Char} (quotes : isQuote quote = true)
    (inside : ∀ c ∈ payload, isQuote c = false) (rest : List Char) :
    payload? (quote :: (payload ++ quote :: rest)) = some (payload, rest) := by
  have inside' : ∀ c ∈ payload, (!isQuote c) = true := by simpa using inside
  have stop : Stops (!isQuote ·) (quote :: rest) := stops_cons (by simp [quotes]) rest
  simp only [payload?, quotes, if_true]
  rw [stop.dropWhile_eq inside', stop.takeWhile_eq inside']

theorem seed?_eq_none {text : List Char}
    (other : ∀ middle, afterBlanks? text = some middle → ¬ "using".toList <+: middle) :
    seed? text = none := by
  rw [← Option.not_isSome_iff_eq_none]
  intro accepted
  obtain ⟨found, h⟩ := Option.isSome_iff_exists.1 accepted
  obtain ⟨middle, blanks, later⟩ := Option.bind_eq_some_iff.1 h
  exact other middle blanks
    (beginsWith_afterWord? "using".toList middle (Option.isSome_of_mem later))

theorem name?_eq_none {text : List Char}
    (other : ∀ middle, afterBlanks? text = some middle → ¬ "as".toList <+: middle) :
    name? text = none := by
  rw [← Option.not_isSome_iff_eq_none]
  intro accepted
  obtain ⟨found, h⟩ := Option.isSome_iff_exists.1 accepted
  obtain ⟨middle, blanks, later⟩ := Option.bind_eq_some_iff.1 h
  exact other middle blanks
    (beginsWith_afterWord? "as".toList middle (Option.isSome_of_mem later))

theorem compressClausesIn_nil : compressClausesIn [] = [] := by
  rw [compressClausesIn.eq_def]
  rfl

theorem compressClausesIn_of_some {text rest : List Char} {clause : CompressClause}
    (h : compressClause? text = some (clause, rest)) :
    compressClausesIn text = clause :: compressClausesIn rest := by
  rw [compressClausesIn.eq_def]
  split
  · rename_i found
    rw [h] at found
    cases found
    rfl
  · rename_i none
    rw [h] at none
    cases none

theorem compressClausesIn_cons_of_none {c : Char} {text : List Char}
    (h : compressClause? (c :: text) = none) :
    compressClausesIn (c :: text) = compressClausesIn text := by
  rw [compressClausesIn.eq_def]
  split
  · rename_i found
    rw [h] at found
    cases found
  · rfl

/-- A part of the text in which no clause starts is passed over. -/
theorem compressClausesIn_append {part rest : List Char}
    (refused : ∀ suffix, suffix <:+ part → suffix ≠ [] → compressClause? (suffix ++ rest) = none) :
    compressClausesIn (part ++ rest) = compressClausesIn rest := by
  induction part with
  | nil => rfl
  | cons c part ih =>
      have here : compressClause? (c :: (part ++ rest)) = none :=
        refused (c :: part) (List.suffix_refl _) (List.cons_ne_nil _ _)
      rw [List.cons_append, compressClausesIn_cons_of_none here]
      apply ih
      intro suffix inside
      exact refused suffix (inside.trans (List.suffix_cons c part))

/-- A compress clause begins with its two fixed words. -/
theorem afterWord?_of_compressClause? {text rest : List Char} {clause : CompressClause}
    (h : compressClause? text = some (clause, rest)) :
    ∃ middle, afterWord? "compress".toList text = some middle ∧ "payload".toList <+: middle := by
  obtain ⟨middle, compress, later⟩ := Option.bind_eq_some_iff.1 h
  refine ⟨middle, compress, ?_⟩
  exact beginsWith_afterWord? "payload".toList middle (Option.isSome_of_mem later)

section
variable {part text : List Char}

/-- No clause starts inside a part without blanks, unless the part ends with the keyword and the
second word comes next. -/
theorem compressClause?_part (single : ∀ c ∈ part, isBlank c = false)
    (ended : ∀ c ∈ text.head?, isBlank c = true)
    (other : part = "compress".toList →
      ∀ middle, afterBlanks? text = some middle → ¬ "payload".toList <+: middle) :
    compressClause? (part ++ text) = none := by
  rw [← Option.not_isSome_iff_eq_none]
  intro accepted
  obtain ⟨⟨clause, rest⟩, found⟩ := Option.isSome_iff_exists.1 accepted
  obtain ⟨middle, compress, payload⟩ := afterWord?_of_compressClause? found
  obtain ⟨whole, blanks⟩ := afterWord?_of_part (forall_mem_of_all (by decide)) single ended compress
  exact other whole middle blanks payload

theorem compressClausesIn_part (single : ∀ c ∈ part, isBlank c = false)
    (ended : ∀ c ∈ text.head?, isBlank c = true)
    (other : ∀ middle, afterBlanks? text = some middle → ¬ "payload".toList <+: middle) :
    compressClausesIn (part ++ text) = compressClausesIn text := by
  apply compressClausesIn_append
  intro suffix inside _
  exact compressClause?_part (fun c mem => single c (inside.subset mem)) ended fun _ => other

theorem compressClausesIn_short (solid : part.all (!isBlank ·) = true)
    (ended : ∀ c ∈ text.head?, isBlank c = true)
    (short : part.length < "compress".toList.length) :
    compressClausesIn (part ++ text) = compressClausesIn text := by
  have single : ∀ c ∈ part, isBlank c = false := by simpa using solid
  apply compressClausesIn_append
  intro suffix inside _
  apply compressClause?_part (fun c mem => single c (inside.subset mem)) ended
  intro whole
  have length := inside.length_le
  rw [whole] at length
  omega

theorem compressClausesIn_blank {c : Char} (h : isBlank c = true) (text : List Char) :
    compressClausesIn (c :: text) = compressClausesIn text := by
  apply compressClausesIn_cons_of_none
  apply compressClause?_part (List.forall_mem_nil _)
  · intro d head
    rwa [← Option.some.inj head]
  · intro whole
    exact absurd whole (by decide)

end

end PlainVerse.Command
