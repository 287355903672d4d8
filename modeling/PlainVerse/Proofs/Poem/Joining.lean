import PlainVerse.Proofs.Poem.Relabeling
import PlainVerse.Proofs.Poem.Rows

/-!
# Poems that are joined at an empty line

A poem can be read in two parts, with an empty line between them, if the second part is not indented
where it begins. Whatever block the first part ends in, it ends there as it ends with the text: the
body of a trigger goes on beyond empty lines, but not with a line that is not indented, and the
directives of a gene do not go on beyond an empty line.
-/
namespace PlainVerse.Poem

/-- The body of a header ends before lines that are not indented just as it ends with the text. -/
theorem IsBody.append {header : Line} {body after more : List Line} (h : IsBody header body after)
    (flush : ∀ next ∈ more.head?, next.indent = 0) : IsBody header body (after ++ more) := by
  have next : ∀ line ∈ (after ++ more).head?, line ∈ after.head? ∨ line.indent = 0 := by
    intro line found
    rw [List.head?_append] at found
    exact (Option.or_eq_some_iff.1 found).imp id fun other => flush line other.2
  constructor
  · intro first head
    obtain ⟨deeper, deep, stop⟩ := h.deeper first head
    refine ⟨deeper, deep, fun line found => ?_⟩
    rcases next line found with inside | flush
    · exact stop line inside
    · omega
  · intro none line found
    rcases next line found with inside | flush
    · exact h.absent none line inside
    · omega

/-- The two parts are read one after the other: by induction on the rules for the first part. -/
theorem Reads.append {cap : UInt8} {lines : List Line} {statements : List Statement}
    (h : Reads cap lines statements) {gap : Line} (empty : gap.isEmpty = true) {more : List Line}
    (flush : ∀ next ∈ (nonBlank more).head?, next.indent = 0) {others : List Statement}
    (reads : Reads cap more others) : Reads cap (lines ++ gap :: more) (statements ++ others) := by
  induction h with
  | done => exact .blank empty reads
  | blank blank _ ih => exact .blank blank ih
  | single text opening _ ih => exact .single text opening ih
  | @trigger line condition taken after statements text opening isBody _ ih =>
      have body : IsBody line (nonBlank taken) (nonBlank (after ++ gap :: more)) := by
        rw [nonBlank_append, nonBlank_cons_of_empty empty]
        exact isBody.append flush
      rw [List.cons_append, List.append_assoc]
      exact .trigger text opening body ih
  | @gene line name block after statements text opening inside stop _ ih =>
      have ended : ∀ next ∈ (after ++ gap :: more).head?, next.isEmpty = true := by
        cases after with
        | nil =>
            intro next found
            obtain rfl : gap = next := Option.some.inj found
            exact empty
        | cons other later => exact stop
      rw [List.cons_append, List.append_assoc]
      exact .gene text opening inside ended ih

/-- All lines are moved down. -/
def Relabeling.down (n : Nat) : Relabeling := ⟨(· + n), id⟩

def Line.down (n : Nat) (line : Line) : Line := { line with number := line.number + n }

theorem numbered_down (n start : Nat) (rows : List (List Char)) :
    numbered (start + n) rows = (numbered start rows).map (Line.down n) := by
  induction rows generalizing start with
  | nil => rfl
  | cons row rest ih =>
      rw [numbered_cons, numbered_cons, List.map_cons, ← ih, Nat.add_right_comm]
      rfl

theorem alikeLines_down (n : Nat) (cap : UInt8) (lines : List Line) :
    AlikeLines (.down n) cap cap (lines.map fun line => (line, line.down n)) where
  each := by
    rw [List.forall_mem_map]
    exact fun line _ => ⟨rfl, rfl, rfl⟩
  order := by
    simp only [List.forall_mem_map]
    exact fun first _ second _ _ _ => Iff.rfl

theorem statementsOf_down (n : Nat) (cap : UInt8) (lines : List Line) :
    statementsOf cap (lines.map (Line.down n)) =
      (statementsOf cap lines).map (Statement.relabel (.down n)) := by
  have moved := (alikeLines_down n cap lines).statementsOf
  rwa [List.map_map, List.map_map, Function.comp_def, Function.comp_def, List.map_id'] at moved

theorem score_down (n : Nat) (statement : Statement) :
    (statement.relabel (.down n)).score = statement.score := by
  cases statement <;> rfl

theorem nodesOf_append (first second : List Statement) :
    Statement.nodesOf (first ++ second) = Statement.nodesOf first ++ Statement.nodesOf second := by
  induction first with
  | nil => rfl
  | cons statement rest ih =>
      rw [List.cons_append, Statement.nodesOf, Statement.nodesOf, ih, List.append_assoc]

theorem ofSource_join (first second : String) :
    Line.ofSource (first ++ "\n\n" ++ second) =
      Line.ofSource first ++ ⟨first.toList.count '\n' + 2, []⟩ ::
        (Line.ofSource second).map (Line.down (first.toList.count '\n' + 2)) := by
  have split : rows (first ++ "\n\n" ++ second) = rows first ++ [] :: rows second := by
    have twice : first ++ "\n\n" ++ second = first ++ "\n" ++ ("" ++ "\n" ++ second) := by
      simp [← String.toList_inj]
    rw [twice, rows_append, rows_append]
    rfl
  have after : 1 + (rows first).length + 1 = 1 + (first.toList.count '\n' + 2) := by
    rw [length_rows]
    omega
  rw [Line.ofSource_eq, split, numbered_append, numbered_cons, after, numbered_down, length_rows,
    Nat.add_comm 1]
  rfl

/-- Two poems that are joined at an empty line are read one after the other, with the lines of the
second one moved down, if the second one is not indented where it begins. The name is that of the
first poem that has one. Scores add up as words, and nodes add up. -/
theorem parse_join (first second : String) (cap : UInt8)
    (flush : ∀ line ∈ (nonBlank (Line.ofSource second)).head?, line.indent = 0) :
    let joined := parse (first ++ "\n\n" ++ second) cap
    let upper := parse first cap
    let lower := parse second cap
    joined.statements = upper.statements ++
        lower.statements.map (Statement.relabel (.down (first.toList.count '\n' + 2))) ∧
      joined.name = upper.name.or lower.name ∧
      joined.totalScore = upper.totalScore + lower.totalScore ∧
      joined.nodeCount = upper.nodeCount + lower.nodeCount := by
  intro joined upper lower
  let n := first.toList.count '\n' + 2
  have below : ∀ next ∈ (nonBlank ((Line.ofSource second).map (Line.down n))).head?,
      next.indent = 0 := by
    intro next found
    rw [nonBlank, List.filter_map] at found
    obtain ⟨line, head, rfl⟩ := mem_head?_map.1 found
    exact flush line head
  have statements : joined.statements =
      upper.statements ++ lower.statements.map (Statement.relabel (.down n)) := by
    have gap : (⟨n, []⟩ : Line).isEmpty = true := rfl
    have reads := (statementsOf_reads cap (Line.ofSource first)).append gap below
      (statementsOf_reads cap _)
    rw [statementsOf_down] at reads
    have whole := reads.eq_statementsOf
    rw [← ofSource_join] at whole
    exact whole.symm
  have nodes : joined.nodes = upper.nodes ++ lower.nodes.map (Statement.relabel (.down n)) := by
    rw [Program.nodes, statements, nodesOf_append, ← Statement.relabelAll_eq_map,
      Statement.nodesOf_relabelAll]
    rfl
  refine ⟨statements, ?_, ?_, ?_⟩
  · have name : joined.name = nameOf joined.statements := rfl
    rw [name, statements, nameOf, List.findSome?_append]
    exact congrArg _ (nameOf_relabel (.down n) lower.statements)
  · have scores : (lower.statements.map (Statement.relabel (.down n))).map Statement.score =
        lower.statements.map Statement.score := by
      rw [List.map_map]
      exact List.map_congr_left fun statement _ => score_down n statement
    rw [Program.totalScore, statements, List.map_append, List.sum_append, scores]
    rfl
  · rw [Program.nodeCount, nodes, List.length_append, List.length_map]
    rfl

/-- The first poem ends inside the body of a trigger, and the second one begins with empty lines and
ends inside the block of a gene. -/
theorem parse_join_open_blocks :
    let second := "\n\ngene g:\n  cmd: c"
    (∀ line ∈ (nonBlank (Line.ofSource second)).head?, line.indent = 0) ∧
      (parse ("when a:\n  b" ++ "\n\n" ++ second) 7).statements =
        (parse "when a:\n  b" 7).statements ++
          (parse second 7).statements.map (Statement.relabel (.down 3)) := by
  intro second
  have flush : ∀ line ∈ (nonBlank (Line.ofSource second)).head?, line.indent = 0 := by
    decide +kernel
  exact ⟨flush, (parse_join "when a:\n  b" second 7 flush).1⟩

end PlainVerse.Poem
