import PlainVerse.Proofs.Poem.Reading

/-!
# Every line is accounted for

The statements of a parsed poem, with those inside triggers, stand at exactly the lines that are
not empty and that do not belong to the block of a gene. The block of a gene reaches from its
header to the next empty line. No line is lost at the end of a block and none is read twice.
-/
namespace PlainVerse.Poem

/-- Whether a line belongs to the block of a gene: no empty line lies between its header and it. -/
def InGeneBlock (statements : List Statement) (lines : List Line) (line : Line) : Prop :=
  ∃ statement ∈ statements, statement.kind = .gene ∧ statement.line < line.number ∧
    ∀ other ∈ lines, statement.line < other.number → other.number ≤ line.number →
      other.isEmpty = false

instance (statements : List Statement) (lines : List Line) (line : Line) :
    Decidable (InGeneBlock statements lines line) :=
  inferInstanceAs (Decidable (∃ statement ∈ statements, _ ∧ _ ∧ ∀ other ∈ lines, _ → _ → _))

/-- The lines that have to be statements. -/
def accounted (statements : List Statement) (lines : List Line) : List Line :=
  (nonBlank lines).filter fun line => !decide (InGeneBlock statements lines line)

def Increasing (lines : List Line) : Prop :=
  lines.Pairwise fun first second => first.number < second.number

section
variable {statements : List Statement} {front after : List Line}

/-- A gene that stands among later lines does not care about lines before them. -/
theorem inGeneBlock_append (increasing : Increasing (front ++ after))
    (stand : StandIn statements after) (line : Line) :
    InGeneBlock statements (front ++ after) line ↔ InGeneBlock statements after line := by
  have before := (List.pairwise_append.1 increasing).2.2
  constructor
  · rintro ⟨statement, mem, kind, below, text⟩
    exact ⟨statement, mem, kind, below, fun other h => text other (List.mem_append_right _ h)⟩
  · rintro ⟨statement, mem, kind, below, text⟩
    refine ⟨statement, mem, kind, below, fun other hother above upto => ?_⟩
    rcases List.mem_append.1 hother with early | late
    · obtain ⟨place, hplace, number⟩ := stand statement mem
      have := before other early place (mem_nonBlank.1 hplace).1
      omega
    · exact text other late above upto

theorem not_inGeneBlock_front (increasing : Increasing (front ++ after))
    (stand : StandIn statements after) {line : Line} (early : line ∈ front) (lines : List Line) :
    ¬ InGeneBlock statements lines line := by
  rintro ⟨statement, mem, -, below, -⟩
  obtain ⟨place, hplace, number⟩ := stand statement mem
  have := (List.pairwise_append.1 increasing).2.2 line early place (mem_nonBlank.1 hplace).1
  omega

theorem inGeneBlock_cons {statement : Statement} {lines : List Line} {line : Line}
    (other : ¬ InGeneBlock [statement] lines line) :
    InGeneBlock (statement :: statements) lines line ↔ InGeneBlock statements lines line := by
  constructor
  · rintro ⟨found, mem, facts⟩
    rcases List.mem_cons.1 mem with rfl | mem
    · exact absurd ⟨found, List.mem_singleton_self found, facts⟩ other
    · exact ⟨found, mem, facts⟩
  · rintro ⟨found, mem, facts⟩
    exact ⟨found, List.mem_cons_of_mem _ mem, facts⟩

theorem not_inGeneBlock_of_kind {statement : Statement} (kind : statement.kind ≠ .gene)
    (lines : List Line) (line : Line) : ¬ InGeneBlock [statement] lines line := by
  rintro ⟨found, mem, gene, -⟩
  rw [List.mem_singleton.1 mem] at gene
  exact kind gene

/-- What follows a statement is accounted for by the statements that follow it, if the statement
itself is no gene whose block reaches so far. -/
theorem accounted_after {statement : Statement} (increasing : Increasing (front ++ after))
    (stand : StandIn statements after)
    (ended : ∀ line ∈ after, ¬ InGeneBlock [statement] (front ++ after) line) :
    (nonBlank after).filter
        (fun line => !decide (InGeneBlock (statement :: statements) (front ++ after) line)) =
      accounted statements after := by
  apply List.filter_congr
  intro line hline
  have same : InGeneBlock (statement :: statements) (front ++ after) line ↔
      InGeneBlock statements after line :=
    (inGeneBlock_cons (ended line (mem_nonBlank.1 hline).1)).trans
      (inGeneBlock_append increasing stand line)
  simp only [same]

/-- A statement that is no gene accounts for all lines it takes. -/
theorem accounted_append {statement : Statement} (increasing : Increasing (front ++ after))
    (stand : StandIn statements after) (kind : statement.kind ≠ .gene) :
    accounted (statement :: statements) (front ++ after) =
      nonBlank front ++ accounted statements after := by
  rw [accounted, nonBlank_append, List.filter_append, accounted_after increasing stand
    fun line _ => not_inGeneBlock_of_kind kind _ line]
  congr 1
  rw [List.filter_eq_self]
  intro line hline
  have outside := not_inGeneBlock_front increasing stand (mem_nonBlank.1 hline).1 (front ++ after)
  simpa [inGeneBlock_cons (not_inGeneBlock_of_kind kind _ line)] using outside

/-- A line of a gene's block belongs to it. -/
theorem inGeneBlock_of_mem_block {header : Line} {gene : Statement} {block : List Line}
    (increasing : Increasing (header :: (block ++ after)))
    (kind : gene.kind = .gene) (number : gene.line = header.number)
    (inside : ∀ other ∈ block, other.isEmpty = false) {line : Line} (mem : line ∈ block) :
    InGeneBlock (gene :: statements) (header :: (block ++ after)) line := by
  obtain ⟨first, rest⟩ := List.pairwise_cons.1 increasing
  refine ⟨gene, List.mem_cons_self, kind, ?_, fun other hother above upto => ?_⟩
  · rw [number]
    exact first line (List.mem_append_left _ mem)
  · rcases List.mem_cons.1 hother with rfl | hother
    · omega
    · rcases List.mem_append.1 hother with within | late
      · exact inside other within
      · have := (List.pairwise_append.1 rest).2.2 line mem other late
        omega

/-- No line after the first empty one belongs to a gene's block. -/
theorem not_inGeneBlock_after {header : Line} {gene : Statement} {block : List Line}
    (increasing : Increasing (header :: (block ++ after))) (number : gene.line = header.number)
    (stop : ∀ next ∈ after.head?, next.isEmpty = true) {line : Line} (mem : line ∈ after) :
    ¬ InGeneBlock [gene] (header :: (block ++ after)) line := by
  rintro ⟨found, only, -, -, text⟩
  rw [List.mem_singleton.1 only, number] at text
  obtain ⟨first, rest⟩ := List.pairwise_cons.1 increasing
  cases after with
  | nil => cases mem
  | cons blank later =>
      have place : blank ∈ block ++ blank :: later :=
        List.mem_append_right _ List.mem_cons_self
      have upto : blank.number ≤ line.number := by
        rcases List.mem_cons.1 mem with rfl | mem
        · exact Nat.le_refl _
        · exact Nat.le_of_lt ((List.pairwise_cons.1 (List.pairwise_append.1 rest).2.1).1 line mem)
      have filled := text blank (List.mem_cons_of_mem _ place) (first blank place) upto
      rw [stop blank rfl] at filled
      cases filled

/-- A gene accounts for its header only: its block ends just before the first empty line. -/
theorem accounted_gene {header : Line} {gene : Statement} {block : List Line}
    (increasing : Increasing (header :: (block ++ after))) (stand : StandIn statements after)
    (kind : gene.kind = .gene) (number : gene.line = header.number)
    (text : header.isEmpty = false) (inside : ∀ other ∈ block, other.isEmpty = false)
    (stop : ∀ next ∈ after.head?, next.isEmpty = true) :
    accounted (gene :: statements) (header :: (block ++ after)) =
      header :: accounted statements after := by
  have joined : Increasing ((header :: block) ++ after) := increasing
  have headerOut : ¬ InGeneBlock (gene :: statements) (header :: (block ++ after)) header := by
    have own : ¬ InGeneBlock [gene] (header :: (block ++ after)) header := by
      rintro ⟨found, only, -, below, -⟩
      rw [List.mem_singleton.1 only, number] at below
      exact Nat.lt_irrefl _ below
    rw [inGeneBlock_cons own]
    exact not_inGeneBlock_front joined stand List.mem_cons_self _
  have blockIn : (nonBlank block).filter (fun line => !decide (InGeneBlock (gene :: statements)
      (header :: (block ++ after)) line)) = [] := by
    rw [List.filter_eq_nil_iff]
    intro line hline
    have belongs : InGeneBlock (gene :: statements) (header :: (block ++ after)) line :=
      inGeneBlock_of_mem_block increasing kind number inside (mem_nonBlank.1 hline).1
    simpa using belongs
  have ended : ∀ line ∈ after, ¬ InGeneBlock [gene] ((header :: block) ++ after) line :=
    fun line mem => not_inGeneBlock_after increasing number stop mem
  rw [accounted, nonBlank_cons_of_not_empty text, nonBlank_append, List.filter_cons_of_pos
    (by simpa using headerOut), List.filter_append, blockIn, List.nil_append]
  exact congrArg (header :: ·) (accounted_after joined stand ended)

end

/-- Reading accounts for every line: by induction on the rules, where a block hands over to the
lines after it. -/
theorem Reads.node_lines {cap : UInt8} {lines : List Line} {statements : List Statement}
    (h : Reads cap lines statements) (increasing : Increasing lines) :
    (Statement.nodesOf statements).map Statement.line =
      (accounted statements lines).map Line.number := by
  induction h with
  | done => rfl
  | @blank line rest statements empty reads ih =>
      have joined : Increasing ([line] ++ rest) := increasing
      have same : ∀ other, InGeneBlock statements (line :: rest) other ↔
          InGeneBlock statements rest other :=
        inGeneBlock_append joined reads.standIn
      rw [ih (List.pairwise_cons.1 increasing).2, accounted, accounted,
        nonBlank_cons_of_empty empty]
      simp only [same]
  | @single line statement rest statements text opening reads ih =>
      obtain ⟨number, flat, kind⟩ := openingOf_single opening
      have joined : Increasing ([line] ++ rest) := increasing
      have split : accounted (statement :: statements) (line :: rest) =
          nonBlank [line] ++ accounted statements rest :=
        accounted_append joined reads.standIn kind
      rw [split, Statement.nodesOf, nodes_of_kind flat, List.map_append, List.map_append,
        ih (List.pairwise_cons.1 increasing).2, nonBlank_cons_of_not_empty text,
        List.map_singleton, number]
      rfl
  | @trigger line condition taken after statements text opening isBody reads ih =>
      have later : Increasing after :=
        (List.pairwise_append.1 (List.pairwise_cons.1 increasing).2).2.1
      have joined : Increasing ((line :: taken) ++ after) := increasing
      have split : accounted (.trigger line.number condition ((nonBlank taken).map (childOf cap))
            :: statements) (line :: (taken ++ after)) =
          nonBlank (line :: taken) ++ accounted statements after :=
        accounted_append joined reads.standIn (by simp [Statement.kind])
      have children : ((nonBlank taken).map (childOf cap)).map Statement.line =
          (nonBlank taken).map Line.number := by
        rw [List.map_map]
        exact List.map_congr_left fun other _ => childOf_line cap other
      rw [split, Statement.nodesOf, Statement.nodes, nodesOf_children, List.map_append,
        List.map_append, ih later, nonBlank_cons_of_not_empty text, List.map_cons, children]
      rfl
  | @gene line name block after statements text opening inside stop reads ih =>
      have later : Increasing after :=
        (List.pairwise_append.1 (List.pairwise_cons.1 increasing).2).2.1
      rw [accounted_gene increasing reads.standIn rfl rfl text inside stop, Statement.nodesOf,
        List.map_append, ih later]
      rfl

/-- Whether a line of a source, counted from one, holds more than blanks. -/
def NonBlankAt (source : String) (n : Nat) : Prop :=
  1 ≤ n ∧ ∃ raw ∈ (source.toList.splitOn '\n')[n - 1]?, Text.trim raw ≠ []

instance (source : String) (n : Nat) : Decidable (NonBlankAt source n) :=
  inferInstanceAs (Decidable (_ ∧ ∃ raw ∈ _, _))

/-- Whether a line is swallowed by a gene that stands above it, with no blank line in between. -/
def SwallowedAt (source : String) (cap : UInt8) (n : Nat) : Prop :=
  ∃ statement ∈ (parse source cap).statements, statement.kind = .gene ∧ statement.line < n ∧
    ∀ m, statement.line + 1 ≤ m → m ≤ n → NonBlankAt source m

instance (source : String) (cap : UInt8) (n : Nat) : Decidable (SwallowedAt source cap n) :=
  inferInstanceAs (Decidable (∃ statement ∈ _, _ ∧ _ ∧ ∀ _, _ → _ → _))

theorem nonBlankAt_number {source : String} {line : Line} (mem : line ∈ Line.ofSource source) :
    NonBlankAt source line.number ↔ line.isEmpty = false := by
  obtain ⟨positive, found⟩ := Line.mem_ofSource.1 mem
  simp [NonBlankAt, positive, found, Line.isEmpty, Line.text]

/-- There are no gaps in the numbers of the lines. -/
theorem exists_line_of_le {source : String} {line : Line} (mem : line ∈ Line.ofSource source)
    {n : Nat} (positive : 1 ≤ n) (upto : n ≤ line.number) :
    ∃ other ∈ Line.ofSource source, other.number = n := by
  have last := (List.getElem?_eq_some_iff.1 (Line.mem_ofSource.1 mem).2).choose
  have inside : n - 1 < (source.toList.splitOn '\n').length := by omega
  exact ⟨⟨n, _⟩, Line.mem_ofSource.2 ⟨positive, List.getElem?_eq_getElem inside⟩, rfl⟩

theorem exists_line_of_nonBlankAt {source : String} {n : Nat} (h : NonBlankAt source n) :
    ∃ line ∈ Line.ofSource source, line.number = n := by
  obtain ⟨positive, raw, found, -⟩ := h
  exact ⟨⟨n, raw⟩, Line.mem_ofSource.2 ⟨positive, found⟩, rfl⟩

theorem swallowedAt_number {source : String} {cap : UInt8} {line : Line}
    (mem : line ∈ Line.ofSource source) :
    SwallowedAt source cap line.number ↔
      InGeneBlock (parse source cap).statements (Line.ofSource source) line := by
  constructor
  · rintro ⟨statement, hstatement, kind, below, text⟩
    refine ⟨statement, hstatement, kind, below, fun other hother above upto => ?_⟩
    exact (nonBlankAt_number hother).1 (text other.number above upto)
  · rintro ⟨statement, hstatement, kind, below, text⟩
    refine ⟨statement, hstatement, kind, below, fun m above upto => ?_⟩
    obtain ⟨other, hother, rfl⟩ := exists_line_of_le mem (by omega) upto
    exact (nonBlankAt_number hother).2 (text other hother above upto)

theorem nonBlankAt_of_swallowedAt {source : String} {cap : UInt8} {n : Nat}
    (h : SwallowedAt source cap n) : NonBlankAt source n := by
  obtain ⟨statement, -, -, below, text⟩ := h
  exact text n below (Nat.le_refl n)

theorem increasing_ofSource (source : String) : Increasing (Line.ofSource source) := by
  have numbers : ((Line.ofSource source).map Line.number).Pairwise (· < ·) := by
    rw [Line.numbers_ofSource]
    exact List.pairwise_lt_range'
  exact List.pairwise_map.1 numbers

theorem parse_node_lines (source : String) (cap : UInt8) :
    (parse source cap).nodes.map Statement.line =
      (List.range' 1 (source.toList.splitOn '\n').length).filter
        (fun n => decide (NonBlankAt source n) && !decide (SwallowedAt source cap n)) := by
  have accounts := (statementsOf_reads cap (Line.ofSource source)).node_lines
    (increasing_ofSource source)
  rw [← Line.numbers_ofSource, List.filter_map]
  refine accounts.trans ?_
  rw [accounted, nonBlank, List.filter_filter]
  congr 1
  apply List.filter_congr
  intro line mem
  have swallowed : InGeneBlock (statementsOf cap (Line.ofSource source)) (Line.ofSource source)
      line ↔ SwallowedAt source cap line.number := (swallowedAt_number mem).symm
  simp [nonBlankAt_number mem, swallowed, Bool.and_comm]

/-- Every line with text is the line of a statement or is swallowed. -/
theorem nodeCount_add_swallowed (source : String) (cap : UInt8) :
    (parse source cap).nodeCount +
        (List.range' 1 (source.toList.splitOn '\n').length).countP
          (fun n => decide (SwallowedAt source cap n)) =
      (List.range' 1 (source.toList.splitOn '\n').length).countP
        (fun n => decide (NonBlankAt source n)) := by
  have nodes : (parse source cap).nodeCount =
      ((parse source cap).nodes.map Statement.line).length := by
    rw [List.length_map, Program.nodeCount]
  have swallowed : ∀ n, (decide (NonBlankAt source n) && decide (SwallowedAt source cap n)) =
      decide (SwallowedAt source cap n) := by
    intro n
    by_cases h : SwallowedAt source cap n
    · simp [h, nonBlankAt_of_swallowedAt h]
    · simp [h]
  rw [nodes, parse_node_lines, ← List.countP_eq_length_filter, List.countP_eq_countP_filter_add
    _ (fun n => decide (NonBlankAt source n)) (fun n => decide (SwallowedAt source cap n)),
    List.countP_filter, List.countP_filter, Nat.add_comm]
  simp only [swallowed]

/-- The statements of a parsed poem, in reading order, stand at increasing lines. These are exactly
the lines with text that no gene above them swallows, so their number is what remains of the lines
with text when the swallowed ones are taken away. -/
theorem parse_accounts_for_lines (source : String) (cap : UInt8) :
    ((parse source cap).nodes.map Statement.line).Pairwise (· < ·) ∧
    (∀ n, n ∈ (parse source cap).nodes.map Statement.line ↔
      NonBlankAt source n ∧ ¬ SwallowedAt source cap n) ∧
    (parse source cap).nodeCount +
        (List.range' 1 (source.toList.splitOn '\n').length).countP
          (fun n => decide (SwallowedAt source cap n)) =
      (List.range' 1 (source.toList.splitOn '\n').length).countP
        (fun n => decide (NonBlankAt source n)) := by
  refine ⟨?_, fun n => ?_, ?_⟩
  · rw [parse_node_lines]
    exact List.Pairwise.filter _ List.pairwise_lt_range'
  · rw [parse_node_lines, List.mem_filter, ← Line.numbers_ofSource]
    constructor
    · rintro ⟨-, kept⟩
      simpa using kept
    · intro kept
      obtain ⟨line, mem, rfl⟩ := exists_line_of_nonBlankAt kept.1
      exact ⟨List.mem_map_of_mem mem, by simpa using kept⟩
  · exact nodeCount_add_swallowed source cap

end PlainVerse.Poem
