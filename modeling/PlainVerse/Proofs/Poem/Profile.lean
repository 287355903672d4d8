import PlainVerse.Proofs.Poem.LineAccounting
import PlainVerse.Proofs.Poem.Rows
import PlainVerse.Proofs.Poem.Scoring
import PlainVerse.Proofs.Text.Trim

/-!
# The whitespace profile and the lines of a poem

The profile of a source is counted over the whole text, and a poem is read line by line. The two
agree. A run of spaces never crosses a line feed, so it can be counted in its row. A line feed is
itself a blank that stands in no row. The indents are those of the rows with text, and each of these
rows is the line of a statement or is swallowed by a gene.
-/
namespace PlainVerse.Poem

open Text

/-- What is counted in two parts of a text, and `between` more for the line feed that separates
them, can be counted row by row. -/
theorem eq_sum_rows {f : List Char → Nat} {between : Nat}
    (parts : ∀ row rest, f (row ++ '\n' :: rest) = f row + between + f rest)
    (source : String) :
    f source.toList =
      ((rows source).map f).sum + between * source.toList.count '\n' := by
  have joined : ∀ list : List (List Char), list ≠ [] →
      f (['\n'].intercalate list) + between =
        (list.map f).sum + between * list.length := by
    intro list nonempty
    induction list with
    | nil => exact absurd rfl nonempty
    | cons row rest ih =>
        cases rest with
        | nil => simp
        | cons next rest =>
            have later := ih (List.cons_ne_nil next rest)
            have here := parts row (['\n'].intercalate (next :: rest))
            rw [List.intercalate_cons_cons, List.append_assoc, List.singleton_append, here,
              List.map_cons, List.sum_cons, List.length_cons, Nat.mul_add]
            omega
  have whole := joined (rows source) (List.splitOn_ne_nil _ _)
  have together : ['\n'].intercalate (rows source) = source.toList := List.intercalate_splitOn '\n'
  rw [together, length_rows, Nat.mul_add] at whole
  omega

/-- The long runs that begin before something else than `c` end there. -/
theorem filter_longRuns_append {c : Char} {front rest : List Char} (stop : rest.head? ≠ some c) :
    (longRuns c (front ++ rest)).filter (·.1 < front.length) = longRuns c front := by
  have inFront : ∀ n, n < front.length → (front ++ rest)[n]? = front[n]? :=
    fun n small => List.getElem?_append_left small
  have atEnd : (front ++ rest)[front.length]? ≠ some c := by
    rwa [List.getElem?_append_right (Nat.le_refl _), Nat.sub_self, ← List.head?_eq_getElem?]
  ext ⟨first, last⟩
  rw [Finset.mem_filter, mem_longRuns, mem_longRuns]
  constructor
  · intro h
    obtain ⟨⟨long, run⟩, early⟩ := h
    have upto : last ≤ front.length := by
      by_contra beyond
      exact atEnd (run.inside front.length (Nat.le_of_lt early) (by omega))
    refine ⟨long, fun n low high => ?_, ?_, fun more => ?_⟩
    · rw [← inFront n (by omega)]
      exact run.inside n low high
    · have left := run.left
      rwa [inFront (first - 1) (by omega)] at left
    · have small : last < front.length := (List.getElem?_eq_some_iff.1 more).choose
      exact run.right ((inFront last small).trans more)
  · intro h
    obtain ⟨long, run⟩ := h
    have final := run.inside (last - 1) (by omega) (by omega)
    have upto : last - 1 < front.length := (List.getElem?_eq_some_iff.1 final).choose
    refine ⟨⟨long, fun n low high => ?_, ?_, fun more => ?_⟩, by omega⟩
    · rw [inFront n (by omega)]
      exact run.inside n low high
    · rw [inFront (first - 1) (by omega)]
      exact run.left
    · by_cases small : last < front.length
      · exact run.right ((inFront last small).symm.trans more)
      · obtain rfl : last = front.length := by omega
        exact atEnd more

/-- A run of something else than line feeds stands on one side of each line feed. -/
theorem card_longRuns_feed {c : Char} (other : c ≠ '\n') (row rest : List Char) :
    (longRuns c (row ++ '\n' :: rest)).card =
      (longRuns c row).card + 0 + (longRuns c rest).card := by
  have stop : ('\n' :: rest).head? ≠ some c := by simpa using other.symm
  rw [card_longRuns_append (fun next => absurd next stop), filter_longRuns_append stop,
    card_longRuns_cons fun same => absurd same.symm other, Nat.add_zero]

theorem countP_isBlank_feed (row rest : List Char) :
    (row ++ '\n' :: rest).countP isBlank = row.countP isBlank + 1 + rest.countP isBlank := by
  rw [List.countP_append, List.countP_cons_of_pos (by decide)]
  omega

theorem indents_ofSource (source : String) :
    (Profile.ofSource source).indents =
      ((rows source).filter (·.any (!isBlank ·))).map indentWidth := by
  have text : ∀ line : Line, (!line.isEmpty) = line.raw.any (!isBlank ·) := by
    intro line
    rw [Bool.eq_iff_iff, Bool.not_eq_true', Line.isEmpty, Line.text, List.isEmpty_eq_false_iff,
      Ne, trim_eq_nil_iff, List.any_eq_true]
    simp
  have kept : (Line.ofSource source).filter (!·.isEmpty) =
      (Line.ofSource source).filter ((·.any (!isBlank ·)) ∘ Line.raw) :=
    List.filter_congr fun line _ => text line
  have raws : (Line.ofSource source).map Line.raw = rows source :=
    map_raw_numbered 1 (rows source)
  rw [← raws, List.filter_map, List.map_map, ← kept]
  rfl

/-- As many indents are listed as there are lines with text. -/
theorem length_indents (source : String) :
    (Profile.ofSource source).indents.length =
      (List.range' 1 (rows source).length).countP (fun n => decide (NonBlankAt source n)) := by
  rw [Profile.ofSource, List.length_map, ← List.countP_eq_length_filter, rows,
    ← Line.numbers_ofSource, List.countP_map]
  apply List.countP_congr
  intro line mem
  simp [nonBlankAt_number mem]

/-- The profile of a source, which is counted over the whole text, agrees with its rows and with
what is read from them. It lists the indents of the rows with text, and each of these rows is either
the line of a statement or swallowed by a gene. Its runs of spaces are those of the rows, its runs
of line feeds are those of the text, and its blanks are those of the rows and the line feeds between
them. -/
theorem profile_agrees_with_rows (source : String) (cap : UInt8) :
    (Profile.ofSource source).indents =
      ((rows source).filter (·.any (!isBlank ·))).map indentWidth ∧
    (Profile.ofSource source).indents.length = (parse source cap).nodeCount +
      (List.range' 1 (rows source).length).countP (fun n => decide (SwallowedAt source cap n)) ∧
    (Profile.ofSource source).doubleSpaces =
      ((rows source).map fun row => (longRuns ' ' row).card).sum ∧
    (Profile.ofSource source).emptyLines = (longRuns '\n' source.toList).card ∧
    (Profile.ofSource source).blanks =
      source.toList.count '\n' + ((rows source).map (·.countP isBlank)).sum := by
  refine ⟨indents_ofSource source, ?_, ?_, Pattern.hits_repeated '\n' source.toList, ?_⟩
  · rw [length_indents]
    exact (nodeCount_add_swallowed source cap).symm
  · have runs := eq_sum_rows (f := fun text => (longRuns ' ' text).card)
      (card_longRuns_feed (by decide)) source
    rw [Nat.zero_mul, Nat.add_zero] at runs
    exact (Pattern.hits_repeated ' ' source.toList).trans runs
  · have blanks := eq_sum_rows countP_isBlank_feed source
    rw [Nat.one_mul, Nat.add_comm] at blanks
    exact blanks

end PlainVerse.Poem
