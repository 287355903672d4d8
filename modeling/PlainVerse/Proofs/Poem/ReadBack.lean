import PlainVerse.Proofs.Poem.Reading
import PlainVerse.Proofs.Poem.Recognition
import PlainVerse.Proofs.Poem.Relabeling
import PlainVerse.Proofs.Poem.RoundTrip

/-!
# Poems are read as they were written

The rows of a written poem are read one statement after the other: the header of a statement is
recognised, the indented rows below it make up its block, and the block ends before the next header
or at an empty row. So reading a written poem gives its statements again, at the lines where they
are written, in whatever style.
-/
namespace PlainVerse.Poem

open Text

/-- A line with a phrase in it is not empty. -/
theorem IsPhrase.isEmpty_line {phrase : List Char} (isPhrase : IsPhrase phrase) {line : Line}
    (inside : phrase ⊆ line.raw) : line.isEmpty = false := by
  obtain ⟨c, rest, rfl⟩ := List.exists_cons_of_ne_nil isPhrase.nonempty
  have solid : isBlank c = false := isPhrase.bare.1 c rfl
  rw [Line.isEmpty, Bool.eq_false_iff, ne_eq, List.isEmpty_iff, Line.text, trim_eq_nil_iff]
  intro blank
  exact absurd (blank c (inside List.mem_cons_self)) (by simp [solid])

theorem IsPhrase.indent_line {phrase : List Char} (isPhrase : IsPhrase phrase) (number : Nat) :
    (⟨number, phrase⟩ : Line).indent = 0 := by
  have none : phrase.takeWhile isBlank = [] := isPhrase.bare.1.takeWhile_eq (List.forall_mem_nil _)
  rw [Line.indent, indentWidth, none, List.length_nil]

theorem nonBlank_numbered_empty (start n : Nat) :
    nonBlank (numbered start (List.replicate n [])) = [] := by
  rw [nonBlank, List.filter_eq_nil_iff]
  intro line mem
  have raw : line.raw = [] := List.eq_of_mem_replicate (raw_mem_of_mem_numbered mem)
  simp [Line.isEmpty, Line.text, raw, trim, dropEnds, dropWhileEnd]

theorem Reads.after_empty {cap : UInt8} {statements : List Statement} {rows : List (List Char)}
    (start n : Nat) (reads : Reads cap (numbered (start + n) rows) statements) :
    Reads cap (numbered start (List.replicate n [] ++ rows)) statements := by
  induction n generalizing start with
  | zero => exact reads
  | succ n ih =>
      rw [List.replicate_succ, List.cons_append, numbered_cons]
      apply Reads.blank rfl
      apply ih
      rwa [Nat.add_right_comm]

namespace Style
variable (style : Style) {cap : UInt8}

section
variable {children : List Statement} (spellable : ∀ child ∈ children, child.IsSpellableInside)
  (start : Nat)
include spellable

theorem child_line {line : Line} (mem : line ∈ numbered start (children.map style.childRow)) :
    line.isEmpty = false ∧ line.indent = style.indent := by
  obtain ⟨number, raw⟩ := line
  obtain ⟨child, inside, rfl⟩ := List.mem_map.1 (raw_mem_of_mem_numbered mem)
  have phrase := style.isPhrase_child (spellable child inside)
  refine ⟨phrase.isEmpty_line (List.subset_append_right _ _), ?_⟩
  rw [Line.indent, indentWidth, childRow, Stops.takeWhile_eq (isBlank_spaces _) phrase.bare.1,
    spaces, List.length_replicate]

theorem map_childOf :
    (numbered start (children.map style.childRow)).map (childOf cap) =
      List.zipWith (Statement.onLine cap) (numbered start (children.map style.childRow))
        children := by
  induction children generalizing start with
  | nil => rfl
  | cons child rest ih =>
      rw [List.forall_mem_cons] at spellable
      have row : (⟨start, style.childRow child⟩ : Line).text = style.header child := by
        rw [Line.text, childRow, trim_blanks_append (isBlank_spaces _),
          (style.isPhrase_child spellable.1).trim_eq]
      rw [List.map_cons, numbered_cons, List.map_cons, List.zipWith_cons_cons, ih spellable.2,
        childOf_spelled spellable.1 row]

end

/-- The children of a trigger are its body, since they are all indented alike. -/
theorem isBody_children {children : List Statement}
    (spellable : ∀ child ∈ children, child.IsSpellableInside) (start : Nat) {header : Line}
    (margin : header.indent = 0) {after : List Line}
    (flush : ∀ next ∈ after.head?, next.indent = 0) :
    IsBody header (numbered start (children.map style.childRow)) after where
  deeper := by
    intro first head
    have first := (style.child_line spellable start (List.mem_of_mem_head? head)).2
    rw [margin, first]
    refine ⟨style.indented, fun line mem => ?_, fun next found => ?_⟩
    · rw [(style.child_line spellable start mem).2]
    · rw [flush next found]
      exact style.indented
  absent := by
    intro _ next found
    rw [flush next found]
    exact Nat.zero_le _

theorem exists_key_of_mem_directives {decl : GeneDecl} {row : List Char}
    (mem : row ∈ style.directives decl) :
    ∃ key : String, IsPhrase key.toList ∧ key.toList ⊆ row := by
  have text : ∀ key value, row ∈ style.textDirective key value → key.toList ⊆ row := by
    intro key value mem
    cases value with
    | none => cases mem
    | some text =>
        rw [List.mem_singleton.1 mem]
        exact List.subset_append_left _ _
  have list : ∀ key items, row ∈ style.listDirective key items → key.toList ⊆ row := by
    intro key items mem
    unfold listDirective at mem
    split at mem
    · cases mem
    · rw [List.mem_singleton.1 mem]
      exact List.subset_append_left _ _
  simp only [directives, List.mem_append] at mem
  rcases mem with desc | cmd | inputs | outputs
  · exact ⟨"desc", by decide, text _ _ desc⟩
  · exact ⟨"cmd", by decide, text _ _ cmd⟩
  · exact ⟨"inputs", by decide, list _ _ inputs⟩
  · exact ⟨"outputs", by decide, list _ _ outputs⟩

/-- A row below a gene has its key in it, even if it says nothing. -/
theorem isEmpty_directive {decl : GeneDecl} {start number : Nat} {line : Line}
    (mem : line ∈ numbered start (style.below (.gene number decl))) : line.isEmpty = false := by
  obtain ⟨number, raw⟩ := line
  obtain ⟨row, inside, rfl⟩ := List.mem_map.1 (raw_mem_of_mem_numbered mem)
  obtain ⟨key, phrase, subset⟩ := style.exists_key_of_mem_directives inside
  exact phrase.isEmpty_line (List.subset_append_of_subset_right _ subset)

/-- One statement is read from its rows, if no indented row follows them and an empty row ends the
block of a gene. -/
theorem reads_statement {statement : Statement} (spellable : statement.IsSpellable) (start : Nat)
    {after : List Line} {others : List Statement} (reads : Reads cap after others)
    (flush : ∀ next ∈ (nonBlank after).head?, next.indent = 0)
    (ended : statement.kind = .gene → ∀ next ∈ after.head?, next.isEmpty = true) :
    Reads cap
      (⟨start, style.header statement⟩ :: (numbered (start + 1) (style.below statement) ++ after))
      (style.placedAt cap start statement :: others) := by
  have phrase := style.isPhrase_header spellable
  have row : Line.text ⟨start, style.header statement⟩ = style.header statement := phrase.trim_eq
  have filled : Line.isEmpty ⟨start, style.header statement⟩ = false :=
    phrase.isEmpty_line (List.Subset.refl _)
  have opening : openingOf cap ⟨start, style.header statement⟩ = _ :=
    openingOf_spelled spellable row
  cases statement with
  | trigger line condition children =>
      have lines : nonBlank (numbered (start + 1) (children.map style.childRow)) =
          numbered (start + 1) (children.map style.childRow) := by
        rw [nonBlank, List.filter_eq_self]
        intro child mem
        simp [(style.child_line spellable.2.2 (start + 1) mem).1]
      have body := style.isBody_children spellable.2.2 (start + 1)
        (phrase.indent_line start) flush
      have reads := Reads.trigger filled opening (lines.symm ▸ body) reads
      rw [lines, style.map_childOf spellable.2.2] at reads
      exact reads
  | gene line decl =>
      have block : ∀ other ∈ numbered (start + 1) (style.below (.gene line decl)),
          other.isEmpty = false := fun other mem => style.isEmpty_directive mem
      have reads := Reads.gene filled opening block (ended rfl) reads
      rw [GeneDecl.ofLines_spelled style spellable] at reads
      exact reads
  | _ => exact .single filled opening reads

theorem flush_rowsOf {statements : List Statement}
    (spellable : ∀ statement ∈ statements, statement.IsSpellable) (start n : Nat) :
    ∀ next ∈ (nonBlank (numbered start (List.replicate n [] ++ style.rowsOf statements))).head?,
      next.indent = 0 := by
  rw [numbered_append, nonBlank_append, nonBlank_numbered_empty, List.nil_append]
  cases statements with
  | nil => exact fun next found => nomatch found
  | cons statement rest =>
      have phrase := style.isPhrase_header (List.forall_mem_cons.1 spellable).1
      intro next found
      rw [rowsOf, numbered_cons,
        nonBlank_cons_of_not_empty (phrase.isEmpty_line (List.Subset.refl _))] at found
      obtain rfl := Option.some.inj found
      exact phrase.indent_line _

/-- Where a poem goes on after a gene, it goes on after an empty row. -/
theorem empty_after_gene {statement : Statement} (gene : statement.kind = .gene)
    (rest : List Statement) (start : Nat) :
    ∀ next ∈ (numbered start (List.replicate (style.emptyRows statement rest) [] ++
        style.rowsOf rest)).head?, next.isEmpty = true := by
  intro next found
  cases gap : style.emptyRows statement rest with
  | zero =>
      cases rest with
      | nil =>
          rw [gap] at found
          cases found
      | cons other rest =>
          have rows : style.emptyRows statement (other :: rest) = max 1 style.gap := by
            simp [emptyRows, gene]
          omega
  | succ n =>
      rw [gap] at found
      obtain rfl := Option.some.inj found
      rfl

/-- The rest is read from below the block of a statement and the empty rows that end it. -/
theorem reads_rowsOf {statements : List Statement}
    (spellable : ∀ statement ∈ statements, statement.IsSpellable) (start : Nat) :
    Reads cap (numbered start (style.rowsOf statements)) (style.placed cap start statements) := by
  induction statements generalizing start with
  | nil => exact .done
  | cons statement rest ih =>
      rw [List.forall_mem_cons] at spellable
      let n := style.emptyRows statement rest
      let below := start + 1 + (style.below statement).length
      have later : Reads cap (numbered below (List.replicate n [] ++ style.rowsOf rest))
          (style.placed cap (below + n) rest) := (ih spellable.2 (below + n)).after_empty below n
      rw [rowsOf, numbered_cons, numbered_append]
      exact style.reads_statement spellable.1 start later (style.flush_rowsOf spellable.2 below n)
        fun gene => style.empty_after_gene gene rest below

/-- Statements lose no name where they are placed. -/
theorem nameOf_placed (statements : List Statement) (start : Nat) :
    nameOf (style.placed cap start statements) = nameOf statements := by
  induction statements generalizing start with
  | nil => rfl
  | cons statement rest ih =>
      have later := ih (start + 1 + (style.below statement).length + style.emptyRows statement rest)
      rw [placed, nameOf, nameOf, List.findSome?_cons, List.findSome?_cons]
      cases statement with
      | name => rfl
      | _ => exact later

end Style

theorem statements_parse_spelled (style : Style) {statements : List Statement}
    (spellable : ∀ statement ∈ statements, statement.IsSpellable) (cap : UInt8) :
    (parse (style.spelled statements) cap).statements = style.placed cap 1 statements := by
  have reads : Reads cap (Line.ofSource (style.spelled statements))
      (style.placed cap 1 statements) := by
    rw [Line.ofSource_eq]
    cases statements with
    | nil => exact .blank rfl .done
    | cons statement rest =>
        rw [style.rows_spelled spellable (List.cons_ne_nil _ _)]
        exact style.reads_rowsOf spellable 1
  exact reads.eq_statementsOf.symm

/-- Numbers and scores are forgotten. -/
def Relabeling.unplaced : Relabeling := ⟨fun _ => 0, fun _ => 0⟩

theorem relabel_onLine (cap : UInt8) (line : Line) {statement : Statement}
    (plain : ∀ tool ∈ statement.tool?, tool.IsPlain) :
    (statement.onLine cap line).relabel .unplaced = statement.relabel .unplaced := by
  cases statement with
  | invoke number tool args =>
      rw [Statement.onLine, (plain tool rfl).ofDotted_dotted]
      rfl
  | trigger number condition children =>
      rw [Statement.onLine, Statement.relabel_trigger, Statement.relabel_trigger]
      rfl
  | _ => rfl

theorem relabel_zipWith (cap : UInt8) (start : Nat) {statements : List Statement}
    (row : Statement → List Char)
    (plain : ∀ statement ∈ statements, ∀ tool ∈ statement.tool?, tool.IsPlain) :
    (List.zipWith (Statement.onLine cap) (numbered start (statements.map row)) statements).map
        (Statement.relabel .unplaced) =
      statements.map (Statement.relabel .unplaced) := by
  induction statements generalizing start with
  | nil => rfl
  | cons statement rest ih =>
      rw [List.forall_mem_cons] at plain
      rw [List.map_cons, numbered_cons, List.zipWith_cons_cons, List.map_cons, List.map_cons,
        ih _ plain.2, relabel_onLine cap _ plain.1]

theorem mem_nodes_self (statement : Statement) : statement ∈ statement.nodes := by
  cases statement <;> simp [Statement.nodes]

theorem relabel_placed (style : Style) (cap : UInt8) {statements : List Statement} (start : Nat)
    (plain : ∀ node ∈ Statement.nodesOf statements, ∀ tool ∈ node.tool?, tool.IsPlain) :
    (style.placed cap start statements).map (Statement.relabel .unplaced) =
      statements.map (Statement.relabel .unplaced) := by
  induction statements generalizing start with
  | nil => rfl
  | cons statement rest ih =>
      rw [Statement.nodesOf, List.forall_mem_append] at plain
      rw [Style.placed, List.map_cons, List.map_cons, ih _ plain.2]
      congr 1
      have own := plain.1 statement (mem_nodes_self statement)
      cases statement with
      | trigger line condition children =>
          have inside : ∀ child ∈ children, ∀ tool ∈ child.tool?, tool.IsPlain := by
            have below := (List.forall_mem_cons.1 plain.1).2
            exact fun child mem =>
              Statement.forall_nodesOf.1 below child mem child (mem_nodes_self child)
          rw [Style.placedAt, Statement.relabel_trigger, Statement.relabel_trigger,
            relabel_zipWith cap _ _ inside]
          rfl
      | _ => exact relabel_onLine cap _ own

/-- Reading a written poem gives its statements again, at the lines where they are written, and the
name that the first name among them gives. If no segment of a tool path has a dot in it, the
statements differ from those that were written at most in their lines and scores. -/
theorem parse_spelled (style : Style) (statements : List Statement) (cap : UInt8)
    (spellable : ∀ statement ∈ statements, statement.IsSpellable) :
    let program := parse (style.spelled statements) cap
    program.statements = style.placed cap 1 statements ∧ program.name = nameOf statements ∧
      ((∀ node ∈ Statement.nodesOf statements, ∀ tool ∈ node.tool?, tool.IsPlain) →
        program.statements.map (Statement.relabel .unplaced) =
          statements.map (Statement.relabel .unplaced)) := by
  intro program
  have placed : program.statements = style.placed cap 1 statements :=
    statements_parse_spelled style spellable cap
  refine ⟨placed, ?_, fun plain => ?_⟩
  · have name : program.name = nameOf program.statements := rfl
    rw [name, placed, style.nameOf_placed]
  · rw [placed, relabel_placed style cap 1 plain]

/-- A poem in which parts look like other things: text with a keyword, items with brackets, a value
with a colon and a quote. -/
theorem parse_spelled_garden :
    let style : Style :=
      { indent := 2, indented := by decide, directiveIndent := 2, gap := 0, ending := 0,
        quotedArguments := false, quotedDirectives := true, brackets := true,
        emptyArguments := false, emptyLists := false }
    let statements : List Statement :=
      [.name 0 "Garden", .trigger 0 "rain" [.emit 0 "water" (some "now"), .text 0 "gene x:" 0],
        .gene 0 ⟨"seed", some "", none, ["a]", "[b"], []⟩,
        .invoke 0 ⟨["tool", "path"]⟩ (.ofList [("k", "it's: v"), ("", "")]),
        .text 0 "whenever" 0]
    let source := "\n".intercalate
      ["name Garden", "when rain:", "  emit \"water\" now", "  gene x:", "gene seed:",
        "  desc: \"\"", "  inputs: [a], [b]", "", "use tool.path(k: it's: v, : )", "whenever"]
    (∀ statement ∈ statements, statement.IsSpellable) ∧ style.spelled statements = source ∧
      (parse source 7).statements.map (Statement.relabel .unplaced) =
        statements.map (Statement.relabel .unplaced) := by
  intro style statements source
  have spellable : ∀ statement ∈ statements, statement.IsSpellable := by decide +kernel
  have spelled : style.spelled statements = source := by decide +kernel
  have plain : ∀ node ∈ Statement.nodesOf statements, ∀ tool ∈ node.tool?, tool.IsPlain := by
    decide +kernel
  refine ⟨spellable, spelled, ?_⟩
  rw [← spelled]
  exact (parse_spelled style statements 7 spellable).2.2 plain

end PlainVerse.Poem
