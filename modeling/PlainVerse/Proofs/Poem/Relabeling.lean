import PlainVerse.Proofs.Poem.Reading

/-!
# Two texts that are read alike

Two lists of lines are read side by side. If corresponding lines have one text and the indents of
the lines with text are ordered alike, both are read by the same rules at every line, so the
statements differ at most in what is taken over from a line as it stands: its number and its score.
-/
namespace PlainVerse.Poem

/-- A change of line numbers and scores. -/
structure Relabeling where
  number : Nat → Nat
  points : UInt8 → UInt8

variable (labels : Relabeling)

namespace Statement

mutual

/-- A statement with other line numbers and scores, also inside triggers. -/
def relabel : Statement → Statement
  | .name line given => .name (labels.number line) given
  | .emit line topic payload => .emit (labels.number line) topic payload
  | .trigger line condition children =>
      .trigger (labels.number line) condition (relabelAll children)
  | .invoke line tool args => .invoke (labels.number line) tool args
  | .remember line key value => .remember (labels.number line) key value
  | .gene line decl => .gene (labels.number line) decl
  | .text line words score => .text (labels.number line) words (labels.points score)

def relabelAll : List Statement → List Statement
  | [] => []
  | statement :: rest => relabel statement :: relabelAll rest

end

theorem relabelAll_eq_map (statements : List Statement) :
    relabelAll labels statements = statements.map (relabel labels) := by
  induction statements with
  | nil => rfl
  | cons statement rest ih => rw [relabelAll, ih, List.map_cons]

theorem relabel_trigger (line : Nat) (condition : String) (children : List Statement) :
    (trigger line condition children).relabel labels =
      .trigger (labels.number line) condition (children.map (relabel labels)) := by
  rw [relabel, relabelAll_eq_map]

mutual

theorem nodes_relabel :
    (statement : Statement) →
      (statement.relabel labels).nodes = statement.nodes.map (relabel labels)
  | .trigger line condition children => by
      rw [relabel, nodes, nodes, nodesOf_relabelAll children, List.map_cons, relabel]
  | .name .. | .emit .. | .invoke .. | .remember .. | .gene .. | .text .. => rfl

theorem nodesOf_relabelAll :
    (statements : List Statement) →
      nodesOf (relabelAll labels statements) = (nodesOf statements).map (relabel labels)
  | [] => rfl
  | statement :: rest => by
      rw [relabelAll, nodesOf, nodesOf, nodes_relabel statement, nodesOf_relabelAll rest,
        List.map_append]

end

end Statement

theorem nameOf_relabel (statements : List Statement) :
    nameOf (statements.map (Statement.relabel labels)) = nameOf statements := by
  rw [nameOf, nameOf, List.findSome?_map]
  congr 1
  funext statement
  cases statement <;> rfl

def Opening.relabel : Opening → Opening
  | .single statement => .single (statement.relabel labels)
  | .trigger condition => .trigger condition
  | .gene name => .gene name

/-- Two lines with one text, where the labels of the first become those of the second. -/
structure Alike (cap cap' : UInt8) (line other : Line) : Prop where
  number : other.number = labels.number line.number
  text : other.text = line.text
  score : lineScore other.raw cap' = labels.points (lineScore line.raw cap)

namespace Alike
variable {labels} {cap cap' : UInt8} {line other : Line}

theorem isEmpty (alike : Alike labels cap cap' line other) : other.isEmpty = line.isEmpty := by
  rw [Line.isEmpty, Line.isEmpty, alike.text]

theorem textOf (alike : Alike labels cap cap' line other) :
    Poem.textOf cap' other = (Poem.textOf cap line).relabel labels := by
  rw [Poem.textOf, Poem.textOf, alike.number, alike.text, alike.score, Statement.relabel]

/-- The recognisers are given the same text, so the same one accepts. -/
theorem openingOf (alike : Alike labels cap cap' line other) :
    Poem.openingOf cap' other = (Poem.openingOf cap line).relabel labels := by
  unfold Poem.openingOf
  rw [alike.textOf, alike.text, alike.number]
  cases name? line.text with
  | some => rfl
  | none =>
      cases emit? line.text with
      | some => rfl
      | none =>
          cases condition? line.text with
          | some => rfl
          | none =>
              cases invoke? line.text with
              | some => rfl
              | none =>
                  cases remember? line.text with
                  | some => rfl
                  | none => cases geneName? line.text <;> rfl

theorem childOf (alike : Alike labels cap cap' line other) :
    Poem.childOf cap' other = (Poem.childOf cap line).relabel labels := by
  unfold Poem.childOf
  rw [alike.textOf, alike.text, alike.number]
  cases emit? line.text with
  | some => rfl
  | none => cases invoke? line.text <;> rfl

end Alike

/-- Corresponding lines are alike, and the indents of the lines with text are ordered alike. -/
structure AlikeLines (cap cap' : UInt8) (pairs : List (Line × Line)) : Prop where
  each : ∀ pair ∈ pairs, Alike labels cap cap' pair.1 pair.2
  order : ∀ first ∈ pairs, ∀ second ∈ pairs, first.1.isEmpty = false → second.1.isEmpty = false →
    (first.2.indent < second.2.indent ↔ first.1.indent < second.1.indent)

/-- The lines with text, side by side. -/
def filledPairs (pairs : List (Line × Line)) : List (Line × Line) :=
  pairs.filter (!·.1.isEmpty)

theorem nonBlank_map_fst (pairs : List (Line × Line)) :
    nonBlank (pairs.map Prod.fst) = (filledPairs pairs).map Prod.fst :=
  List.filter_map

theorem mem_filledPairs {pairs : List (Line × Line)} {pair : Line × Line} :
    pair ∈ filledPairs pairs ↔ pair ∈ pairs ∧ pair.1.isEmpty = false := by
  simp [filledPairs]

theorem mem_head?_map {α β : Type} {f : α → β} {list : List α} {b : β} :
    b ∈ (list.map f).head? ↔ ∃ a ∈ list.head?, f a = b := by
  rw [List.head?_map]
  exact Option.map_eq_some_iff

namespace AlikeLines
variable {labels} {cap cap' : UInt8} {pairs : List (Line × Line)}

theorem of_subset (alike : AlikeLines labels cap cap' pairs) {some : List (Line × Line)}
    (subset : some ⊆ pairs) : AlikeLines labels cap cap' some where
  each pair mem := alike.each pair (subset mem)
  order first mem second mem' := alike.order first (subset mem) second (subset mem')

theorem nonBlank_map_snd (alike : AlikeLines labels cap cap' pairs) :
    nonBlank (pairs.map Prod.snd) = (filledPairs pairs).map Prod.snd := by
  rw [nonBlank, List.filter_map, filledPairs]
  congr 1
  apply List.filter_congr
  intro pair mem
  rw [Function.comp_apply, (alike.each pair mem).isEmpty]

theorem ofLines (alike : AlikeLines labels cap cap' pairs) (name : String) :
    GeneDecl.ofLines name (pairs.map Prod.snd) = GeneDecl.ofLines name (pairs.map Prod.fst) := by
  rw [GeneDecl.ofLines, GeneDecl.ofLines, List.foldl_map, List.foldl_map]
  refine List.foldl_ext _ _ _ fun gene pair mem => ?_
  rw [GeneDecl.withDirective, GeneDecl.withDirective, (alike.each pair mem).text]

theorem children (alike : AlikeLines labels cap cap' pairs) :
    (nonBlank (pairs.map Prod.snd)).map (childOf cap') =
      ((nonBlank (pairs.map Prod.fst)).map (childOf cap)).map (Statement.relabel labels) := by
  rw [alike.nonBlank_map_snd, nonBlank_map_fst, List.map_map, List.map_map, List.map_map]
  refine List.map_congr_left fun pair mem => ?_
  exact (alike.each pair (mem_filledPairs.1 mem).1).childOf

/-- Whether lines are the body of a header only depends on the order of the indents. -/
theorem isBody {header : Line × Line} {taken after : List (Line × Line)}
    (alike : AlikeLines labels cap cap' (header :: (taken ++ after)))
    (text : header.1.isEmpty = false)
    (h : IsBody header.1 (nonBlank (taken.map Prod.fst)) (nonBlank (after.map Prod.fst))) :
    IsBody header.2 (nonBlank (taken.map Prod.snd)) (nonBlank (after.map Prod.snd)) := by
  have inside : AlikeLines labels cap cap' taken := alike.of_subset (by simp)
  have later : AlikeLines labels cap cap' after := alike.of_subset (by simp)
  have order : ∀ first ∈ filledPairs (header :: (taken ++ after)),
      ∀ second ∈ filledPairs (header :: (taken ++ after)),
        (first.2.indent < second.2.indent ↔ first.1.indent < second.1.indent) := by
    intro first mem second mem'
    obtain ⟨here, filled⟩ := mem_filledPairs.1 mem
    obtain ⟨here', filled'⟩ := mem_filledPairs.1 mem'
    exact alike.order first here second here' filled filled'
  have inBody : ∀ pair ∈ filledPairs taken, pair ∈ filledPairs (header :: (taken ++ after)) := by
    intro pair mem
    obtain ⟨here, filled⟩ := mem_filledPairs.1 mem
    exact mem_filledPairs.2 ⟨by simp [here], filled⟩
  have inAfter : ∀ pair ∈ (filledPairs after).head?,
      pair ∈ filledPairs (header :: (taken ++ after)) := by
    intro pair mem
    obtain ⟨here, filled⟩ := mem_filledPairs.1 (List.mem_of_mem_head? mem)
    exact mem_filledPairs.2 ⟨by simp [here], filled⟩
  have inHeader : header ∈ filledPairs (header :: (taken ++ after)) :=
    mem_filledPairs.2 ⟨List.mem_cons_self, text⟩
  rw [nonBlank_map_fst, nonBlank_map_fst] at h
  rw [inside.nonBlank_map_snd, later.nonBlank_map_snd]
  constructor
  · intro first found
    obtain ⟨pair, head, rfl⟩ := mem_head?_map.1 found
    have mem := inBody pair (List.mem_of_mem_head? head)
    obtain ⟨deeper, deep, stop⟩ := h.deeper pair.1 (mem_head?_map.2 ⟨pair, head, rfl⟩)
    refine ⟨(order _ inHeader _ mem).2 deeper, ?_, ?_⟩
    · rw [List.forall_mem_map] at deep ⊢
      intro line mem'
      rw [← Nat.not_lt, order _ (inBody line mem') _ mem, Nat.not_lt]
      exact deep line mem'
    · intro next found
      obtain ⟨line, head', rfl⟩ := mem_head?_map.1 found
      have shallow := stop line.1 (mem_head?_map.2 ⟨line, head', rfl⟩)
      exact (order _ (inAfter line head') _ mem).2 shallow
  · intro none next found
    obtain ⟨line, head, rfl⟩ := mem_head?_map.1 found
    rw [← Nat.not_lt, order _ inHeader _ (inAfter line head), Nat.not_lt]
    exact h.absent (by simpa using none) line.1 (mem_head?_map.2 ⟨line, head, rfl⟩)

end AlikeLines

/-- Both lists of lines are read by the same rules: by induction on the rules for the first. -/
theorem Reads.relabel {labels : Relabeling} {cap cap' : UInt8} {lines : List Line}
    {statements : List Statement} (h : Reads cap lines statements) {pairs : List (Line × Line)}
    (alike : AlikeLines labels cap cap' pairs) (first : pairs.map Prod.fst = lines) :
    Reads cap' (pairs.map Prod.snd) (statements.map (Statement.relabel labels)) := by
  induction h generalizing pairs with
  | done =>
      obtain rfl := List.map_eq_nil_iff.1 first
      exact .done
  | blank empty _ ih =>
      obtain ⟨pair, rest, rfl, rfl, split⟩ := List.map_eq_cons_iff.1 first
      refine .blank ?_ (ih (alike.of_subset (List.subset_cons_self _ _)) split)
      rwa [(alike.each pair List.mem_cons_self).isEmpty]
  | single text opening _ ih =>
      obtain ⟨pair, rest, rfl, rfl, split⟩ := List.map_eq_cons_iff.1 first
      have here := alike.each pair List.mem_cons_self
      have later := ih (alike.of_subset (List.subset_cons_self _ _)) split
      refine .single (by rwa [here.isEmpty]) ?_ later
      rw [here.openingOf, opening, Opening.relabel]
  | trigger text opening isBody _ ih =>
      obtain ⟨pair, rest, rfl, rfl, split⟩ := List.map_eq_cons_iff.1 first
      obtain ⟨taken, after, rfl, rfl, rfl⟩ := List.map_eq_append_iff.1 split
      have here := alike.each pair List.mem_cons_self
      have inside : AlikeLines labels cap cap' taken := alike.of_subset (by simp)
      have later : AlikeLines labels cap cap' after := alike.of_subset (by simp)
      have reads := Reads.trigger (by rwa [here.isEmpty])
        (by rw [here.openingOf, opening, Opening.relabel]) (alike.isBody text isBody)
        (ih later rfl)
      rw [List.map_cons, List.map_append, List.map_cons, Statement.relabel_trigger, ← here.number,
        ← inside.children]
      exact reads
  | gene text opening inside stop _ ih =>
      obtain ⟨pair, rest, rfl, rfl, split⟩ := List.map_eq_cons_iff.1 first
      obtain ⟨block, after, rfl, rfl, rfl⟩ := List.map_eq_append_iff.1 split
      have here := alike.each pair List.mem_cons_self
      have own : AlikeLines labels cap cap' block := alike.of_subset (by simp)
      have later : AlikeLines labels cap cap' after := alike.of_subset (by simp)
      have filled : ∀ line ∈ block.map Prod.snd, line.isEmpty = false := by
        rw [List.forall_mem_map] at inside ⊢
        intro other mem
        rw [(own.each other mem).isEmpty, inside other mem]
      have ended : ∀ next ∈ (after.map Prod.snd).head?, next.isEmpty = true := by
        intro next found
        obtain ⟨other, head, rfl⟩ := mem_head?_map.1 found
        rw [(later.each other (List.mem_of_mem_head? head)).isEmpty]
        exact stop other.1 (mem_head?_map.2 ⟨other, head, rfl⟩)
      have reads := Reads.gene (by rwa [here.isEmpty])
        (by rw [here.openingOf, opening, Opening.relabel]) filled ended (ih later rfl)
      rw [List.map_cons, List.map_append, List.map_cons, Statement.relabel, ← own.ofLines,
        ← here.number]
      exact reads

theorem AlikeLines.statementsOf {labels : Relabeling} {cap cap' : UInt8}
    {pairs : List (Line × Line)} (alike : AlikeLines labels cap cap' pairs) :
    statementsOf cap' (pairs.map Prod.snd) =
      (statementsOf cap (pairs.map Prod.fst)).map (Statement.relabel labels) :=
  ((statementsOf_reads cap _).relabel alike rfl).eq_statementsOf.symm

/-- The same lines under another cap, where the scores of one cap determine those of the other. -/
theorem statementsOf_rescored {labels : Relabeling} {cap cap' : UInt8}
    (kept : ∀ number, labels.number number = number)
    (score : ∀ raw, lineScore raw cap' = labels.points (lineScore raw cap)) (lines : List Line) :
    statementsOf cap' lines = (statementsOf cap lines).map (Statement.relabel labels) := by
  have alike : AlikeLines labels cap cap' (lines.map fun line => (line, line)) := by
    constructor
    · rw [List.forall_mem_map]
      exact fun line _ => ⟨(kept line.number).symm, rfl, score line.raw⟩
    · simp only [List.forall_mem_map]
      exact fun first _ second _ _ _ => trivial
  have same := alike.statementsOf
  rwa [List.map_map, List.map_map, Function.comp_def, Function.comp_def, List.map_id'] at same

end PlainVerse.Poem
