import PlainVerse.Poem.Parse
import Mathlib.Data.List.DropRight
import Mathlib.Data.List.TakeWhile

/-!
# How lines are read as statements

Reading is described by a relation between lines and statements, with one rule for each thing that
a line can be: empty, a statement of its own, the header of a trigger or the header of a gene. The
rules say which lines a block takes and what the line after it looks like, so proofs about parsed
poems go by induction on the relation and do not open the recognisers.
-/
namespace PlainVerse.Poem

theorem Line.mem_ofSource {source : String} {line : Line} :
    line ∈ Line.ofSource source ↔
      1 ≤ line.number ∧ (source.toList.splitOn '\n')[line.number - 1]? = some line.raw := by
  simp only [Line.ofSource, List.mem_map, Prod.exists]
  constructor
  · rintro ⟨raw, number, mem, rfl⟩
    exact List.mem_zipIdx_iff_le_and_getElem?_sub.1 mem
  · intro h
    exact ⟨line.raw, line.number, List.mem_zipIdx_iff_le_and_getElem?_sub.2 h, rfl⟩

theorem Line.numbers_ofSource (source : String) :
    (Line.ofSource source).map Line.number =
      List.range' 1 (source.toList.splitOn '\n').length := by
  rw [Line.ofSource, List.map_map]
  exact List.zipIdx_map_snd 1 _

/-- The lines that are not empty. -/
def nonBlank (lines : List Line) : List Line := lines.filter (!·.isEmpty)

@[simp] theorem nonBlank_append (first second : List Line) :
    nonBlank (first ++ second) = nonBlank first ++ nonBlank second :=
  List.filter_append _ _

theorem nonBlank_cons_of_empty {line : Line} (h : line.isEmpty = true) (rest : List Line) :
    nonBlank (line :: rest) = nonBlank rest := by
  simp [nonBlank, h]

theorem nonBlank_cons_of_not_empty {line : Line} (h : line.isEmpty = false) (rest : List Line) :
    nonBlank (line :: rest) = line :: nonBlank rest := by
  simp [nonBlank, h]

theorem mem_nonBlank {lines : List Line} {line : Line} :
    line ∈ nonBlank lines ↔ line ∈ lines ∧ line.isEmpty = false := by
  simp [nonBlank]

theorem find?_nonBlank (lines : List Line) :
    lines.find? (!·.isEmpty) = (nonBlank lines).head? :=
  (List.head?_filter ..).symm

/-- Whether lines, none of them empty, are the body of a header when `after` follows them. The first
line is indented deeper than the header and no other line is indented less than the first. The line
after the body is. -/
structure IsBody (header : Line) (body after : List Line) : Prop where
  deeper : ∀ first ∈ body.head?, header.indent < first.indent ∧
    (∀ line ∈ body, first.indent ≤ line.indent) ∧ ∀ next ∈ after.head?, next.indent < first.indent
  absent : body = [] → ∀ next ∈ after.head?, next.indent ≤ header.indent

/-- A block takes lines that are deep enough and skips empty ones. -/
theorem takeBlock_split (indent : Nat) (lines : List Line) :
    ∃ taken, lines = taken ++ (takeBlock indent lines).2 ∧
      (takeBlock indent lines).1 = nonBlank taken ∧
      (∀ line ∈ nonBlank taken, indent ≤ line.indent) ∧
      ∀ next ∈ (nonBlank (takeBlock indent lines).2).head?, next.indent < indent := by
  induction lines with
  | nil => exact ⟨[], rfl, rfl, by simp [nonBlank], by simp [takeBlock, nonBlank]⟩
  | cons line rest ih =>
      obtain ⟨taken, split, block, deep, stop⟩ := ih
      cases empty : line.isEmpty with
      | true =>
          refine ⟨line :: taken, ?_, ?_, ?_, ?_⟩
          · simpa [takeBlock, empty] using split
          · simpa [takeBlock, empty, nonBlank_cons_of_empty empty] using block
          · rwa [nonBlank_cons_of_empty empty]
          · simpa [takeBlock, empty] using stop
      | false =>
          by_cases deeper : indent ≤ line.indent
          · refine ⟨line :: taken, ?_, ?_, ?_, ?_⟩
            · simpa [takeBlock, empty, deeper] using split
            · simpa [takeBlock, empty, deeper, nonBlank_cons_of_not_empty empty] using block
            · rw [nonBlank_cons_of_not_empty empty]
              exact List.forall_mem_cons.2 ⟨deeper, deep⟩
            · simpa [takeBlock, empty, deeper] using stop
          · refine ⟨[], ?_, ?_, ?_, ?_⟩
            · simp [takeBlock, empty, deeper]
            · simp [takeBlock, empty, deeper, nonBlank]
            · simp [nonBlank]
            · intro next hnext
              simp only [takeBlock, empty, deeper, if_false, Bool.false_eq_true,
                nonBlank_cons_of_not_empty empty, List.head?_cons] at hnext
              obtain rfl : line = next := Option.some.inj hnext
              exact Nat.lt_of_not_le deeper

/-- The line that sets the indent is taken, since the line after the block is less deep. -/
theorem bodyBelow_split (header : Line) (lines : List Line) :
    ∃ taken, lines = taken ++ (bodyBelow header lines).2 ∧
      (bodyBelow header lines).1 = nonBlank taken ∧
      IsBody header (nonBlank taken) (nonBlank (bodyBelow header lines).2) := by
  unfold bodyBelow
  rw [find?_nonBlank]
  cases found : (nonBlank lines).head? with
  | none => exact ⟨[], rfl, rfl, by simp [nonBlank], by simp [found]⟩
  | some first =>
      by_cases deeper : header.indent < first.indent
      · simp only [deeper, if_true]
        obtain ⟨taken, split, block, deep, stop⟩ := takeBlock_split first.indent lines
        refine ⟨taken, split, block, ?_⟩
        have head : (nonBlank taken).head? = some first := by
          rw [split, nonBlank_append, List.head?_append] at found
          cases inside : (nonBlank taken).head? with
          | some other => simpa [inside] using found
          | none =>
              rw [inside, Option.none_or] at found
              exact absurd (stop first found) (Nat.lt_irrefl _)
        refine ⟨?_, fun none => ?_⟩
        · intro other hother
          obtain rfl : first = other := Option.some.inj (head.symm.trans hother)
          exact ⟨deeper, deep, stop⟩
        · rw [none] at head
          cases head
      · simp only [deeper, if_false]
        refine ⟨[], rfl, rfl, by simp [nonBlank], fun _ next hnext => ?_⟩
        obtain rfl : first = next := Option.some.inj (found.symm.trans hnext)
        exact Nat.le_of_not_lt deeper

theorem openingOf_single {cap : UInt8} {line : Line} {statement : Statement}
    (h : openingOf cap line = .single statement) :
    statement.line = line.number ∧ statement.kind ≠ .trigger ∧ statement.kind ≠ .gene := by
  unfold openingOf at h
  repeat' split at h
  all_goals cases h
  all_goals exact ⟨rfl, nofun, nofun⟩

/-- A line inside a trigger becomes a signal, a tool or text. -/
theorem childOf_kind (cap : UInt8) (line : Line) :
    (childOf cap line).kind = .emit ∨ (childOf cap line).kind = .invoke ∨
      (childOf cap line).kind = .text := by
  unfold childOf
  split
  · exact Or.inl rfl
  · split
    · exact Or.inr (Or.inl rfl)
    · exact Or.inr (Or.inr rfl)

theorem childOf_kind_ne_trigger (cap : UInt8) (line : Line) :
    (childOf cap line).kind ≠ .trigger := by
  rcases childOf_kind cap line with kind | kind | kind <;> simp [kind]

theorem childOf_line (cap : UInt8) (line : Line) : (childOf cap line).line = line.number := by
  unfold childOf
  split
  · rfl
  · split <;> rfl

theorem nodes_of_kind {statement : Statement} (h : statement.kind ≠ .trigger) :
    statement.nodes = [statement] := by
  cases statement with
  | trigger => exact absurd rfl h
  | _ => rfl

theorem children_of_kind {statement : Statement} (h : statement.kind ≠ .trigger) :
    statement.children = [] := by
  cases statement with
  | trigger => exact absurd rfl h
  | _ => rfl

/-- Bodies are flat: no line of a trigger opens another one. -/
theorem nodesOf_children (cap : UInt8) (lines : List Line) :
    Statement.nodesOf (lines.map (childOf cap)) = lines.map (childOf cap) := by
  induction lines with
  | nil => rfl
  | cons line rest ih =>
      rw [List.map_cons, Statement.nodesOf, ih, nodes_of_kind (childOf_kind_ne_trigger cap line)]
      rfl

/-- The rules of reading. -/
inductive Reads (cap : UInt8) : List Line → List Statement → Prop
  | done : Reads cap [] []
  | blank {line : Line} {rest : List Line} {statements : List Statement} :
      line.isEmpty = true → Reads cap rest statements → Reads cap (line :: rest) statements
  | single {line : Line} {statement : Statement} {rest : List Line}
      {statements : List Statement} :
      line.isEmpty = false → openingOf cap line = .single statement →
      Reads cap rest statements → Reads cap (line :: rest) (statement :: statements)
  | trigger {line : Line} {condition : String} {taken after : List Line}
      {statements : List Statement} :
      line.isEmpty = false → openingOf cap line = .trigger condition →
      IsBody line (nonBlank taken) (nonBlank after) → Reads cap after statements →
      Reads cap (line :: (taken ++ after))
        (.trigger line.number condition ((nonBlank taken).map (childOf cap)) :: statements)
  | gene {line : Line} {name : String} {block after : List Line}
      {statements : List Statement} :
      line.isEmpty = false → openingOf cap line = .gene name →
      (∀ other ∈ block, other.isEmpty = false) → (∀ next ∈ after.head?, next.isEmpty = true) →
      Reads cap after statements →
      Reads cap (line :: (block ++ after))
        (.gene line.number (.ofLines name block) :: statements)

theorem statementsOf_reads (cap : UInt8) (lines : List Line) :
    Reads cap lines (statementsOf cap lines) := by
  fun_induction statementsOf cap lines with
  | case1 => exact .done
  | case2 line rest empty ih => exact .blank empty ih
  | case3 line rest empty statement opening ih =>
      exact .single (eq_false_of_ne_true empty) opening ih
  | case4 line rest empty condition opening body ih =>
      obtain ⟨taken, split, block, isBody⟩ := bodyBelow_split line rest
      have reads := Reads.trigger (eq_false_of_ne_true empty) opening isBody ih
      rwa [← split, ← block] at reads
  | case5 line rest empty name opening ih =>
      have inside : ∀ other ∈ rest.takeWhile (!·.isEmpty), other.isEmpty = false := by
        intro other hother
        simpa using List.mem_takeWhile_imp hother
      have stop : ∀ next ∈ (rest.dropWhile (!·.isEmpty)).head?, next.isEmpty = true := by
        intro next hnext
        have first := List.head?_dropWhile_not (!·.isEmpty) rest
        rw [hnext] at first
        simpa using first
      have reads := Reads.gene (eq_false_of_ne_true empty) opening inside stop ih
      rwa [List.takeWhile_append_dropWhile] at reads

theorem statementsOf_cons_of_empty {line : Line} (h : line.isEmpty = true) (cap : UInt8)
    (rest : List Line) : statementsOf cap (line :: rest) = statementsOf cap rest := by
  rw [statementsOf, if_pos h]

theorem statementsOf_dropWhile (cap : UInt8) (lines : List Line) :
    statementsOf cap (lines.dropWhile Line.isEmpty) = statementsOf cap lines := by
  induction lines with
  | nil => rfl
  | cons line rest ih =>
      cases empty : line.isEmpty with
      | true => rw [List.dropWhile_cons_of_pos empty, ih, statementsOf_cons_of_empty empty]
      | false => rw [List.dropWhile_cons_of_neg (by simp [empty])]

/-- A block ends before a line that is less deep, and the empty lines in between are passed over. -/
theorem takeBlock_stop {indent : Nat} {after : List Line}
    (stop : ∀ next ∈ (nonBlank after).head?, next.indent < indent) :
    takeBlock indent after = ([], after.dropWhile Line.isEmpty) := by
  induction after with
  | nil => rfl
  | cons line rest ih =>
      cases empty : line.isEmpty with
      | true =>
          rw [nonBlank_cons_of_empty empty] at stop
          simp [takeBlock, empty, ih stop]
      | false =>
          rw [nonBlank_cons_of_not_empty empty] at stop
          have shallow : ¬ indent ≤ line.indent := Nat.not_le_of_lt (stop line rfl)
          simp [takeBlock, empty, shallow]

theorem takeBlock_append {indent : Nat} {taken after : List Line}
    (deep : ∀ line ∈ nonBlank taken, indent ≤ line.indent)
    (stop : ∀ next ∈ (nonBlank after).head?, next.indent < indent) :
    takeBlock indent (taken ++ after) = (nonBlank taken, after.dropWhile Line.isEmpty) := by
  induction taken with
  | nil => exact takeBlock_stop stop
  | cons line rest ih =>
      cases empty : line.isEmpty with
      | true =>
          rw [nonBlank_cons_of_empty empty] at deep
          simp [takeBlock, empty, ih deep, nonBlank_cons_of_empty empty]
      | false =>
          rw [nonBlank_cons_of_not_empty empty, List.forall_mem_cons] at deep
          simp [takeBlock, empty, deep.1, ih deep.2, nonBlank_cons_of_not_empty empty]

/-- Lines that can be the body of a header are its body. -/
theorem IsBody.bodyBelow_append {header : Line} {taken after : List Line}
    (isBody : IsBody header (nonBlank taken) (nonBlank after)) :
    (bodyBelow header (taken ++ after)).1 = nonBlank taken ∧
      (bodyBelow header (taken ++ after)).2.dropWhile Line.isEmpty =
        after.dropWhile Line.isEmpty := by
  unfold bodyBelow
  rw [find?_nonBlank, nonBlank_append]
  cases body : nonBlank taken with
  | nil =>
      have same : (taken ++ after).dropWhile Line.isEmpty = after.dropWhile Line.isEmpty := by
        apply List.dropWhile_append_of_pos
        simpa [nonBlank, List.filter_eq_nil_iff] using body
      cases found : (nonBlank after).head? with
      | none => simp [found, same]
      | some next =>
          have shallow : ¬ header.indent < next.indent :=
            Nat.not_lt_of_le (isBody.absent body next found)
          simp [found, shallow, same]
  | cons first others =>
      obtain ⟨deeper, deep, stop⟩ := isBody.deeper first (by rw [body]; rfl)
      simp only [List.cons_append, List.head?_cons, deeper, if_true, takeBlock_append deep stop,
        body, true_and]
      exact List.dropWhile_idempotent _ _

/-- What is read by the rules is what is read. -/
theorem Reads.eq_statementsOf {cap : UInt8} {lines : List Line} {statements : List Statement}
    (h : Reads cap lines statements) : statements = statementsOf cap lines := by
  induction h with
  | done => rw [statementsOf]
  | blank empty _ ih => rw [statementsOf_cons_of_empty empty, ih]
  | single text opening _ ih => rw [statementsOf, text, opening, ih]; rfl
  | trigger text opening isBody _ ih =>
      obtain ⟨body, rest⟩ := isBody.bodyBelow_append
      rw [statementsOf, text, opening]
      simp only [Bool.false_eq_true, if_false]
      rw [body, ih, ← statementsOf_dropWhile cap (bodyBelow _ _).2, rest, statementsOf_dropWhile]
  | @gene line name block after _ text opening inside stop _ ih =>
      have filled : ∀ other ∈ block, (!other.isEmpty) = true := by simpa using inside
      have taken : (block ++ after).takeWhile (!·.isEmpty) = block := by
        rw [List.takeWhile_append_of_pos filled]
        cases after with
        | nil => exact List.append_nil block
        | cons next later => simp [stop next rfl]
      have left : (block ++ after).dropWhile (!·.isEmpty) = after := by
        rw [List.dropWhile_append_of_pos filled]
        cases after with
        | nil => rfl
        | cons next later => simp [stop next rfl]
      rw [statementsOf, text, opening]
      simp only [Bool.false_eq_true, if_false]
      rw [taken, left, ih]

/-- Every statement stands at one of the lines, which is not empty. -/
def StandIn (statements : List Statement) (lines : List Line) : Prop :=
  ∀ statement ∈ statements, ∃ line ∈ nonBlank lines, line.number = statement.line

theorem StandIn.append {statements : List Statement} {after : List Line}
    (stand : StandIn statements after) (front : List Line) :
    StandIn statements (front ++ after) := by
  intro statement mem
  obtain ⟨line, hline, number⟩ := stand statement mem
  rw [nonBlank_append]
  exact ⟨line, List.mem_append_right _ hline, number⟩

theorem StandIn.cons {statements : List Statement} {statement : Statement} {header : Line}
    {rest : List Line} (stand : StandIn statements rest) (text : header.isEmpty = false)
    (number : header.number = statement.line) :
    StandIn (statement :: statements) (header :: rest) := by
  refine List.forall_mem_cons.2 ⟨?_, stand.append [header]⟩
  exact ⟨header, mem_nonBlank.2 ⟨List.mem_cons_self, text⟩, number⟩

theorem Reads.standIn {cap : UInt8} {lines : List Line} {statements : List Statement}
    (h : Reads cap lines statements) : StandIn statements lines := by
  induction h with
  | done => exact fun _ mem => nomatch mem
  | @blank line _ _ _ _ ih => exact ih.append [line]
  | single text opening _ ih => exact ih.cons text (openingOf_single opening).1.symm
  | @trigger _ _ taken _ _ text _ _ _ ih => exact (ih.append taken).cons text rfl
  | @gene _ _ block _ _ text _ _ _ _ ih => exact (ih.append block).cons text rfl

/-- A statement at the top level stands at a line. If that line makes a statement by itself, it is
this one. -/
theorem Reads.eq_of_opening {cap : UInt8} {lines : List Line} {statements : List Statement}
    (h : Reads cap lines statements) :
    ∀ statement ∈ statements, ∃ line ∈ lines, line.number = statement.line ∧
      ∀ made, openingOf cap line = .single made → statement = made := by
  induction h with
  | done => exact fun _ mem => nomatch mem
  | blank _ _ ih =>
      exact fun statement mem => (ih statement mem).imp fun _ found => found.imp_left (.tail _)
  | @single line here _ _ _ opening _ ih =>
      refine List.forall_mem_cons.2 ⟨⟨line, List.mem_cons_self, ?_, fun made other => ?_⟩, ?_⟩
      · exact (openingOf_single opening).1.symm
      · exact Opening.single.inj (opening.symm.trans other)
      · exact fun statement mem => (ih statement mem).imp fun _ found => found.imp_left (.tail _)
  | @trigger header _ taken _ _ _ opening _ _ ih =>
      refine List.forall_mem_cons.2 ⟨⟨header, List.mem_cons_self, rfl, fun made other => ?_⟩, ?_⟩
      · cases opening.symm.trans other
      · exact fun statement mem => (ih statement mem).imp fun _ found =>
          found.imp_left fun after => .tail _ (List.mem_append_right _ after)
  | @gene header _ block _ _ _ opening _ _ _ ih =>
      refine List.forall_mem_cons.2 ⟨⟨header, List.mem_cons_self, rfl, fun made other => ?_⟩, ?_⟩
      · cases opening.symm.trans other
      · exact fun statement mem => (ih statement mem).imp fun _ found =>
          found.imp_left fun after => .tail _ (List.mem_append_right _ after)

end PlainVerse.Poem
