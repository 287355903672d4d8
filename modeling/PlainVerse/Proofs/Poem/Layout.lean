import PlainVerse.Proofs.Poem.Relabeling
import PlainVerse.Proofs.Poem.Rows
import PlainVerse.Proofs.Poem.Scoring
import PlainVerse.Proofs.Text.Trim
import Mathlib.Data.List.Forall2

/-!
# What the layout of a poem decides

The statements of a poem depend on the text of its lines and on how the indents of the lines with
text compare, and on nothing else of its blanks. Only the scores of lines of text see more. Line
endings with a carriage return, blanks at the end of lines and a margin in front of all lines leave
the order of the indents as it is.
-/
namespace PlainVerse.Poem

/-- All scores are taken away. -/
def Relabeling.unscored : Relabeling := ⟨id, fun _ => 0⟩

/-- Two programs with one name and the same statements, down to the numbers of the lines, where
scores are not looked at. -/
def SameStructure (first second : Program) : Prop :=
  first.name = second.name ∧
    first.statements.map (Statement.relabel .unscored) =
      second.statements.map (Statement.relabel .unscored)

/-- Two sources with as many rows, where the trimmed rows are the same and the indents of the rows
with text compare alike. -/
structure SameLayout (source other : String) : Prop where
  text : (rows source).map Text.trim = (rows other).map Text.trim
  order : ∀ first ∈ (rows source).zip (rows other), ∀ second ∈ (rows source).zip (rows other),
    Text.trim first.1 ≠ [] → Text.trim second.1 ≠ [] →
      (indentWidth first.1 < indentWidth second.1 ↔ indentWidth first.2 < indentWidth second.2)

theorem lineScore_zero (raw : List Char) : lineScore raw 0 = 0 := by
  rw [← UInt8.toNat_inj, toNat_lineScore]
  exact Nat.zero_min _

theorem SameLayout.trim_eq {source other : String} (layout : SameLayout source other)
    {pair : List Char × List Char} (mem : pair ∈ (rows source).zip (rows other)) :
    Text.trim pair.1 = Text.trim pair.2 := by
  have same : List.Forall₂ Eq ((rows source).map Text.trim) ((rows other).map Text.trim) := by
    rw [List.forall₂_eq_eq_eq]
    exact layout.text
  rw [List.forall₂_map_left_iff, List.forall₂_map_right_iff] at same
  exact (List.forall₂_iff_zip.1 same).2 mem

theorem alikeLines_of_sameLayout {source other : String} (layout : SameLayout source other)
    (cap : UInt8) :
    AlikeLines .unscored cap 0 ((Line.ofSource source).zip (Line.ofSource other)) := by
  constructor
  · intro pair mem
    obtain ⟨number, raw⟩ := exists_rows_of_mem_zip mem
    exact ⟨number, (layout.trim_eq raw).symm, lineScore_zero pair.2.raw⟩
  · intro first mem second mem' text text'
    obtain ⟨-, raw⟩ := exists_rows_of_mem_zip mem
    obtain ⟨-, raw'⟩ := exists_rows_of_mem_zip mem'
    exact (layout.order _ raw _ raw' (by simpa [Line.isEmpty, Line.text] using text)
      (by simpa [Line.isEmpty, Line.text] using text')).symm

/-- A cap of zero shows the statements without their scores. -/
theorem statementsOf_zero (cap : UInt8) (lines : List Line) :
    statementsOf 0 lines = (statementsOf cap lines).map (Statement.relabel .unscored) :=
  statementsOf_rescored (fun _ => rfl) lineScore_zero lines

theorem sameStructure_of_sameLayout {source other : String} (layout : SameLayout source other)
    (cap : UInt8) : SameStructure (parse source cap) (parse other cap) := by
  have length : (Line.ofSource source).length = (Line.ofSource other).length := by
    have rows := congrArg List.length layout.text
    simpa [Line.ofSource_eq, numbered] using rows
  have alike := (alikeLines_of_sameLayout layout cap).statementsOf
  rw [List.map_fst_zip length.le, List.map_snd_zip length.ge, statementsOf_zero cap] at alike
  refine ⟨?_, alike.symm⟩
  have name := congrArg nameOf alike
  rw [nameOf_relabel, nameOf_relabel] at name
  exact name.symm

theorem indentWidth_append {row : List Char} (text : Text.trim row ≠ []) (more : List Char) :
    indentWidth (row ++ more) = indentWidth row := by
  have ended : (row.takeWhile Text.isBlank).length ≠ row.length := by
    intro whole
    have all : row.takeWhile Text.isBlank = row :=
      (List.takeWhile_prefix _).eq_of_length whole
    apply text
    rw [Text.trim_eq_nil_iff, ← all]
    exact fun c mem => List.mem_takeWhile_imp mem
  rw [indentWidth, indentWidth, List.takeWhile_append, if_neg ended]

theorem indentWidth_margin {margin : List Char} (blank : ∀ c ∈ margin, Text.isBlank c = true)
    (row : List Char) : indentWidth (margin ++ row) = margin.length + indentWidth row := by
  rw [indentWidth, indentWidth, List.takeWhile_append_of_pos blank, List.length_append]

/-- The rows of one source are those of another, all of them with text moved by the same width. -/
theorem sameLayout_of_offset {source other : String} (width : Nat)
    (moved : List.Forall₂ (fun row row' => Text.trim row' = Text.trim row ∧
        (Text.trim row ≠ [] → indentWidth row' = width + indentWidth row))
      (rows source) (rows other)) :
    SameLayout source other := by
  obtain ⟨-, each⟩ := List.forall₂_iff_zip.1 moved
  constructor
  · rw [← List.forall₂_eq_eq_eq, List.forall₂_map_left_iff, List.forall₂_map_right_iff]
    exact moved.imp fun row row' facts => facts.1.symm
  · rintro ⟨row, row'⟩ mem ⟨second, second'⟩ mem' text text'
    have first := (each mem).2 text
    have later := (each mem').2 text'
    simp only [first, later]
    omega

/-- A row with blanks behind it. -/
def Padded (row longer : List Char) : Prop :=
  ∃ blanks, (∀ c ∈ blanks, Text.isBlank c = true) ∧ longer = row ++ blanks

/-- The source with a carriage return in front of every line feed. -/
def withReturns (source : String) : String :=
  String.ofList (source.toList.flatMap fun c => if c = '\n' then ['\r', '\n'] else [c])

/-- The source with a margin in front of every row. -/
def withMargin (margin : List Char) (source : String) : String :=
  ofRows ((rows source).map (margin ++ ·))

theorem sameLayout_of_padded {source other : String}
    (padded : List.Forall₂ Padded (rows source) (rows other)) : SameLayout source other := by
  refine sameLayout_of_offset 0 (padded.imp ?_)
  rintro row _ ⟨blanks, blank, rfl⟩
  refine ⟨Text.trim_append_blanks blank row, fun text => ?_⟩
  rw [indentWidth_append text, Nat.zero_add]

theorem sameLayout_withMargin {margin : List Char}
    (blank : ∀ c ∈ margin, Text.isBlank c = true ∧ c ≠ '\n') (source : String) :
    SameLayout source (withMargin margin source) := by
  have blanks : ∀ c ∈ margin, Text.isBlank c = true := fun c mem => (blank c mem).1
  have split : rows (withMargin margin source) = (rows source).map (margin ++ ·) := by
    apply rows_ofRows
    · simp [rows, List.splitOn_ne_nil]
    · rw [List.forall_mem_map]
      intro row mem inside
      rcases List.mem_append.1 inside with early | late
      · exact (blank _ early).2 rfl
      · exact not_mem_of_mem_rows mem late
  apply sameLayout_of_offset margin.length
  rw [split, List.forall₂_map_right_iff, List.forall₂_same]
  intro row _
  exact ⟨Text.trim_blanks_append blanks row, fun _ => indentWidth_margin blanks row⟩

theorem padded_withReturns (source : String) :
    List.Forall₂ Padded (rows source) (rows (withReturns source)) := by
  rw [rows, rows, withReturns, String.toList_ofList]
  induction source.toList with
  | nil => exact .cons ⟨[], List.forall_mem_nil _, rfl⟩ .nil
  | cons c rest ih =>
      by_cases feed : c = '\n'
      · have shorter : Padded [] ['\r'] := ⟨['\r'], Text.forall_mem_of_all (by decide), rfl⟩
        simpa [feed, List.splitOn_cons_eq_if_modifyHead] using And.intro shorter ih
      · have keep : ∀ {first second : List (List Char)}, List.Forall₂ Padded first second →
            List.Forall₂ Padded (first.modifyHead (c :: ·)) (second.modifyHead (c :: ·)) := by
          intro first second h
          cases h with
          | nil => exact .nil
          | cons here later =>
              obtain ⟨blanks, blank, rfl⟩ := here
              exact .cons ⟨blanks, blank, rfl⟩ later
        simpa [feed, List.splitOn_cons_eq_if_modifyHead] using keep ih

/-- A poem with the same layout as another has its name and its statements, except for the scores
of lines of text. So has a poem with carriage returns at the ends of its lines, with other blanks
there, or with a margin of blanks in front of every line. -/
theorem structure_depends_on_layout (cap : UInt8) :
    (∀ source other, SameLayout source other →
      SameStructure (parse source cap) (parse other cap)) ∧
    (∀ source, SameStructure (parse source cap) (parse (withReturns source) cap)) ∧
    (∀ source other, List.Forall₂ Padded (rows source) (rows other) →
      SameStructure (parse source cap) (parse other cap)) ∧
    (∀ source margin, (∀ c ∈ margin, Text.isBlank c = true ∧ c ≠ '\n') →
      SameStructure (parse source cap) (parse (withMargin margin source) cap)) := by
  have padded : ∀ source other, List.Forall₂ Padded (rows source) (rows other) →
      SameStructure (parse source cap) (parse other cap) := fun source other padded =>
    sameStructure_of_sameLayout (sameLayout_of_padded padded) cap
  refine ⟨fun source other layout => sameStructure_of_sameLayout layout cap, fun source => ?_,
    padded, fun source margin blank => ?_⟩
  · exact padded source _ (padded_withReturns source)
  · exact sameStructure_of_sameLayout (sameLayout_withMargin blank source) cap

/-- Tabs instead of spaces, a deeper margin and other indents that compare alike, where a body ends
and a line of it lies deeper. -/
theorem structure_depends_on_layout_tabs :
    SameLayout "when a:\n  b\n   c\n\n d" "\twhen a:\n\t\t\t\tb \n         c\n  \n\t\td\r" ∧
      SameStructure (parse "when a:\n  b\n   c\n\n d" 7)
        (parse "\twhen a:\n\t\t\t\tb \n         c\n  \n\t\td\r" 7) ∧
      List.Forall₂ Padded (rows "a\nb") (rows "a\t\nb") ∧
      SameStructure (parse "a\nb" 7) (parse "a\t\nb" 7) ∧
      (∀ c ∈ ['\t', '\u00a0'], Text.isBlank c = true ∧ c ≠ '\n') ∧
      SameStructure (parse "a\n b" 7) (parse (withMargin ['\t', '\u00a0'] "a\n b") 7) := by
  have layout : SameLayout "when a:\n  b\n   c\n\n d"
      "\twhen a:\n\t\t\t\tb \n         c\n  \n\t\td\r" := ⟨by decide +kernel, by decide +kernel⟩
  have padded : List.Forall₂ Padded (rows "a\nb") (rows "a\t\nb") :=
    .cons ⟨['\t'], Text.forall_mem_of_all (by decide), rfl⟩
      (.cons ⟨[], List.forall_mem_nil _, rfl⟩ .nil)
  have blank : ∀ c ∈ ['\t', '\u00a0'], Text.isBlank c = true ∧ c ≠ '\n' :=
    Text.forall_mem_of_all (by decide)
  exact ⟨layout, (structure_depends_on_layout 7).1 _ _ layout, padded,
    (structure_depends_on_layout 7).2.2.1 _ _ padded, blank,
    (structure_depends_on_layout 7).2.2.2 _ _ blank⟩

end PlainVerse.Poem
