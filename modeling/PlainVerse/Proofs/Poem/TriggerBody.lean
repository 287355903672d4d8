import PlainVerse.Proofs.Poem.LineAccounting

/-!
# The extent of a trigger's body

The body of a trigger is an initial part of the lines with text below its header. Where it ends is
decided by indents alone: the header's indent for the first line, and the first line's indent for
the others. The line that ends it is read next, at the top level.
-/
namespace PlainVerse.Poem

/-- The lines with text below a line of the given number. -/
def below (source : String) (number : Nat) : List Line :=
  (Line.ofSource source).filter fun line => number < line.number && !line.isEmpty

/-- Reading goes on with the first line that has text. -/
theorem Reads.head?_line {cap : UInt8} {lines : List Line} {statements : List Statement}
    (h : Reads cap lines statements) :
    statements.head?.map Statement.line = (nonBlank lines).head?.map Line.number := by
  induction h with
  | done => rfl
  | blank empty _ ih => rwa [nonBlank_cons_of_empty empty]
  | single text opening _ _ =>
      rw [nonBlank_cons_of_not_empty text, List.head?_cons, List.head?_cons, Option.map_some,
        Option.map_some, (openingOf_single opening).1]
  | trigger text _ _ _ _ => rw [nonBlank_cons_of_not_empty text]; rfl
  | gene text _ _ _ _ _ => rw [nonBlank_cons_of_not_empty text]; rfl

/-- Where a trigger stands: the lines are split at its header and around its body, and what comes
after the body is read as if it stood alone. -/
theorem Reads.split_trigger {cap : UInt8} {lines : List Line} {statements : List Statement}
    (h : Reads cap lines statements) {number : Nat} {condition : String}
    {children : List Statement}
    (mem : .trigger number condition children ∈ Statement.nodesOf statements) :
    ∃ front header taken after before later,
      lines = front ++ header :: (taken ++ after) ∧
      statements = before ++ .trigger number condition children :: later ∧
      header.number = number ∧ children = (nonBlank taken).map (childOf cap) ∧
      IsBody header (nonBlank taken) (nonBlank after) ∧ Reads cap after later := by
  induction h with
  | done => cases mem
  | @blank line _ _ _ _ ih =>
      obtain ⟨front, header, taken, after, before, later, rfl, facts⟩ := ih mem
      exact ⟨line :: front, header, taken, after, before, later, rfl, facts⟩
  | @single line statement _ _ _ opening _ ih =>
      obtain ⟨-, flat, -⟩ := openingOf_single opening
      rw [Statement.nodesOf, nodes_of_kind flat, List.singleton_append, List.mem_cons] at mem
      rcases mem with rfl | mem
      · exact absurd rfl flat
      · obtain ⟨front, header, taken, after, before, later, rfl, rfl, facts⟩ := ih mem
        exact ⟨line :: front, header, taken, after, statement :: before, later, rfl, rfl, facts⟩
  | @trigger line opened body rest statements text opening isBody reads ih =>
      rw [Statement.nodesOf, Statement.nodes, nodesOf_children, List.cons_append, List.mem_cons,
        List.mem_append] at mem
      rcases mem with here | inside | mem
      · cases here
        exact ⟨[], line, body, rest, [], statements, rfl, rfl, rfl, rfl, isBody, reads⟩
      · obtain ⟨child, -, child_eq⟩ := List.mem_map.1 inside
        have kind := childOf_kind cap child
        rw [child_eq] at kind
        rcases kind with kind | kind | kind <;> cases kind
      · obtain ⟨front, header, taken, after, before, later, rfl, rfl, facts⟩ := ih mem
        exact ⟨line :: (body ++ front), header, taken, after, _ :: before, later,
          by rw [List.cons_append, List.append_assoc], rfl, facts⟩
  | @gene line name block rest statements _ _ _ _ _ ih =>
      rw [Statement.nodesOf, nodes_of_kind (by simp [Statement.kind]), List.singleton_append,
        List.mem_cons] at mem
      rcases mem with here | mem
      · cases here
      · obtain ⟨front, header, taken, after, before, later, rfl, rfl, facts⟩ := ih mem
        exact ⟨line :: (block ++ front), header, taken, after, _ :: before, later,
          by rw [List.cons_append, List.append_assoc], rfl, facts⟩

/-- A child stands at a line that is indented. -/
theorem Reads.exists_line_of_child {cap : UInt8} {lines : List Line} {statements : List Statement}
    (h : Reads cap lines statements) {number : Nat} {condition : String}
    {children : List Statement}
    (mem : .trigger number condition children ∈ Statement.nodesOf statements) {child : Statement}
    (inside : child ∈ children) :
    ∃ line ∈ lines, child = childOf cap line ∧ 0 < line.indent := by
  obtain ⟨front, header, taken, after, -, -, rfl, -, -, rfl, isBody, -⟩ := h.split_trigger mem
  obtain ⟨line, hline, rfl⟩ := List.mem_map.1 inside
  obtain ⟨first, hfirst⟩ := Option.isSome_iff_exists.1
    (List.isSome_head?.2 (List.ne_nil_of_mem hline))
  obtain ⟨deeper, deep, -⟩ := isBody.deeper first hfirst
  refine ⟨line, ?_, rfl, ?_⟩
  · have taken := (mem_nonBlank.1 hline).1
    simp [taken]
  · have := deep line hline
    omega

/-- Below a line are the lines that come after it. -/
theorem below_eq {source : String} {front rest : List Line} {header : Line}
    (split : Line.ofSource source = front ++ header :: rest) :
    below source header.number = nonBlank rest := by
  have increasing := increasing_ofSource source
  rw [split] at increasing
  obtain ⟨-, tail, early⟩ := List.pairwise_append.1 increasing
  have none_early : front.filter (fun line => header.number < line.number && !line.isEmpty) =
      [] := by
    rw [List.filter_eq_nil_iff]
    intro line hline
    have := early line hline header List.mem_cons_self
    simp [Nat.lt_asymm this]
  have all_late : rest.filter (fun line => header.number < line.number && !line.isEmpty) =
      nonBlank rest := by
    apply List.filter_congr
    intro line hline
    simp [(List.pairwise_cons.1 tail).1 line hline]
  rw [below, split, List.filter_append, none_early, List.nil_append, List.filter_cons_of_neg
    (by simp), all_late]

/-- A trigger stands at the top level, and its children are the first lines with text below its
header, up to the line that ends its body. They are signals, tools and text. The line that ends the
body is the next statement. -/
theorem trigger_extent {source : String} {cap : UInt8} {number : Nat} {condition : String}
    {children : List Statement}
    (mem : .trigger number condition children ∈ (parse source cap).nodes) :
    ∃ header ∈ Line.ofSource source, header.number = number ∧
      ∃ body after, below source number = body ++ after ∧
        children.map Statement.line = body.map Line.number ∧ IsBody header body after ∧
        (∀ child ∈ children, child.kind = .emit ∨ child.kind = .invoke ∨ child.kind = .text) ∧
        ∃ before later,
          (parse source cap).statements =
            before ++ .trigger number condition children :: later ∧
          later.head?.map Statement.line = after.head?.map Line.number := by
  obtain ⟨front, header, taken, after, before, later, lines, statements, rfl, rfl, isBody, reads⟩ :=
    (statementsOf_reads cap (Line.ofSource source)).split_trigger mem
  refine ⟨header, ?_, rfl, nonBlank taken, nonBlank after, ?_, ?_, isBody, ?_, before, later,
    statements, reads.head?_line⟩
  · rw [lines]
    exact List.mem_append_right _ List.mem_cons_self
  · rw [below_eq lines, nonBlank_append]
  · rw [List.map_map]
    exact List.map_congr_left fun line _ => childOf_line cap line
  · intro child hchild
    obtain ⟨line, -, rfl⟩ := List.mem_map.1 hchild
    exact childOf_kind cap line

/-- A body with an empty line above it and a deeper line in it. The last line is indented deeper
than the header, but not as deep as the first line of the body. -/
theorem trigger_extent_dedent :
    ∃ condition children,
      .trigger 1 condition children ∈ (parse "when a:\n\n    b\n\t\t\t\t\tc\n  d" 7).nodes ∧
      ∃ header ∈ Line.ofSource "when a:\n\n    b\n\t\t\t\t\tc\n  d", header.number = 1 ∧
        ∃ body after, body.map Line.number = [3, 4] ∧ after.map Line.number = [5] ∧
          children.map Statement.line = body.map Line.number ∧ IsBody header body after := by
  have shape : ((parse "when a:\n\n    b\n\t\t\t\t\tc\n  d" 7).nodes.map fun node =>
      (node.kind, node.line, node.children.map Statement.line)) =
        [(.trigger, 1, [3, 4]), (.text, 3, []), (.text, 4, []), (.text, 5, [])] := by
    decide +kernel
  have numbers : (below "when a:\n\n    b\n\t\t\t\t\tc\n  d" 1).map Line.number = [3, 4, 5] := by
    decide +kernel
  obtain ⟨node, mem, facts⟩ := List.mem_map.1 (shape ▸ List.mem_cons_self :
    (Kind.trigger, 1, [3, 4]) ∈ _)
  cases node with
  | trigger number condition children =>
      simp only [Statement.line, Statement.children, Prod.mk.injEq] at facts
      obtain ⟨-, rfl, lines⟩ := facts
      obtain ⟨header, hheader, number, body, after, split, same, isBody, -⟩ := trigger_extent mem
      rw [split, List.map_append, ← same, lines] at numbers
      exact ⟨condition, children, mem, header, hheader, number, body, after, same ▸ lines,
        by simpa using numbers, same, isBody⟩
  | _ => simp [Statement.kind] at facts

end PlainVerse.Poem
