import PlainVerse.Gene.Document
import PlainVerse.Proofs.Poem.Relabeling
import PlainVerse.Proofs.Poem.Scoring

/-!
# The cap does not decide how a poem is read

A poem is read twice, under two caps. The line scores under the smaller cap are those under the
larger one, capped again, and nothing else of the programs depends on a score. Bundling statements
into genes looks neither at scores nor at line numbers, so it commutes with every change of these.
-/
namespace PlainVerse

namespace Poem

/-- Scores are capped. -/
def Relabeling.capped (cap : UInt8) : Relabeling := ⟨id, fun score => min score cap⟩

/-- A program with other line numbers and scores. -/
def Program.relabel (labels : Relabeling) (program : Program) : Program :=
  { program with statements := program.statements.map (Statement.relabel labels) }

theorem lineScore_min {lower upper : UInt8} (le : lower ≤ upper) (raw : List Char) :
    lineScore raw lower = min (lineScore raw upper) lower := by
  have order : lower.toNat ≤ upper.toNat := UInt8.le_iff_toNat_le.1 le
  rw [← UInt8.toNat_inj, toNat_min, toNat_lineScore, toNat_lineScore]
  omega

theorem parse_capped (source : String) {lower upper : UInt8} (le : lower ≤ upper) :
    parse source lower = (parse source upper).relabel (.capped lower) := by
  have statements : statementsOf lower (Line.ofSource source) =
      (statementsOf upper (Line.ofSource source)).map (Statement.relabel (.capped lower)) :=
    statementsOf_rescored (fun _ => rfl) (lineScore_min le) _
  have name := congrArg nameOf statements
  rw [nameOf_relabel] at name
  rw [parse, parse, Program.relabel, name, statements]

end Poem

namespace Gene

open Poem

variable (labels : Relabeling)

def Summary.Content.relabel : Summary.Content → Summary.Content
  | .text words score => .text words (labels.points score)
  | content => content

def Summary.relabel (summary : Summary) : Summary :=
  ⟨labels.number summary.line, summary.content.relabel labels⟩

def Detail.relabel : Detail → Detail
  | .trigger condition body => .trigger condition (body.map (Summary.relabel labels))
  | detail => detail

/-- A gene with other line numbers and scores in its summaries. -/
def relabel (gene : Gene) : Gene :=
  { gene with
    statements := gene.statements.map (Summary.relabel labels)
    detail := gene.detail.relabel labels }

theorem ofStatement_relabel (statement : Statement) :
    Summary.ofStatement (statement.relabel labels) =
      (Summary.ofStatement statement).relabel labels := by
  cases statement <;> rfl

theorem trigger_relabel (condition : String) (children : List Statement) :
    trigger condition (children.map (Statement.relabel labels)) =
      (trigger condition children).relabel labels := by
  have body : (children.map (Statement.relabel labels)).map Summary.ofStatement =
      (children.map Summary.ofStatement).map (Summary.relabel labels) := by
    rw [List.map_map, List.map_map]
    exact List.map_congr_left fun child _ => ofStatement_relabel labels child
  rw [trigger, body]
  rfl

namespace Bundle

def relabel (bundle : Bundle) : Bundle where
  closed := bundle.closed.map (Gene.relabel labels)
  current := bundle.current.map fun opened =>
    ⟨opened.gene.relabel labels, opened.followers.map (Gene.relabel labels)⟩
  waiting := bundle.waiting.map (Summary.relabel labels)

variable (bundle : Bundle)

theorem close_relabel : (bundle.relabel labels).close = (bundle.close).relabel labels := by
  obtain ⟨closed, current, waiting⟩ := bundle
  cases current with
  | none => rfl
  | some opened => simp [relabel, close, Gene.relabel]

theorem addGene_relabel (gene : Gene) :
    (bundle.relabel labels).addGene (gene.relabel labels) =
      (bundle.addGene gene).relabel labels := by
  obtain ⟨closed, current, waiting⟩ := bundle
  cases current with
  | none => simp [relabel, addGene]
  | some opened => simp [relabel, addGene]

theorem wait_relabel (statement : Statement) :
    (bundle.relabel labels).wait (statement.relabel labels) =
      (bundle.wait statement).relabel labels := by
  simp [relabel, wait, ofStatement_relabel]

theorem attach_relabel (statement : Statement) (op : String) (alone : Gene) :
    (bundle.relabel labels).attach (statement.relabel labels) op (alone.relabel labels) =
      (bundle.attach statement op alone).relabel labels := by
  obtain ⟨closed, current, waiting⟩ := bundle
  cases current with
  | none => exact addGene_relabel labels ⟨closed, none, waiting⟩ alone
  | some opened =>
      exact wait_relabel labels ⟨closed, some ⟨opened.gene.pushOp op, opened.followers⟩, waiting⟩
        statement

/-- One statement: what is done with it depends on its kind alone. -/
theorem add_relabel (statement : Statement) :
    (bundle.relabel labels).add (statement.relabel labels) =
      (bundle.add statement).relabel labels := by
  cases statement with
  | gene line decl =>
      rw [Statement.relabel, add, add, close_relabel]
      rfl
  | trigger line condition children =>
      rw [Statement.relabel_trigger, add, add, trigger_relabel, addGene_relabel]
  | emit line topic payload => exact attach_relabel labels bundle _ emitOp (emit topic payload)
  | invoke line path args => exact attach_relabel labels bundle _ (toolOp path) (tool path args)
  | name line given => exact wait_relabel labels bundle _
  | remember line key value => exact wait_relabel labels bundle _
  | text line words score => exact wait_relabel labels bundle _

theorem foldl_relabel (statements : List Statement) :
    (statements.map (Statement.relabel labels)).foldl add (bundle.relabel labels) =
      (statements.foldl add bundle).relabel labels := by
  induction statements generalizing bundle with
  | nil => rfl
  | cons statement rest ih =>
      rw [List.map_cons, List.foldl_cons, List.foldl_cons, add_relabel, ih]

theorem genes_relabel (options : Options) :
    (bundle.relabel labels).genes options =
      (bundle.genes options).map (Gene.relabel labels) := by
  have waiting : (bundle.close.relabel labels).waiting.isEmpty = bundle.close.waiting.isEmpty :=
    List.isEmpty_map
  have closed : (bundle.close.relabel labels).closed.isEmpty = bundle.close.closed.isEmpty :=
    List.isEmpty_map
  unfold genes
  rw [close_relabel]
  simp only [waiting, closed]
  split
  · rw [List.map_append]
    rfl
  · rfl

end Bundle

/-- Lowering commutes with every change of line numbers and scores. -/
theorem genes_ofProgram_relabel (program : Program) (options : Options) :
    (Document.ofProgram (program.relabel labels) options).genes =
      (Document.ofProgram program options).genes.map (Gene.relabel labels) := by
  have bundled := Bundle.foldl_relabel labels .empty program.statements
  calc (Document.ofProgram (program.relabel labels) options).genes
      = (((program.statements.map (Statement.relabel labels)).foldl Bundle.add
          .empty).genes options) := rfl
    _ = ((program.statements.foldl Bundle.add .empty).relabel labels).genes options :=
        congrArg (Bundle.genes · options) bundled
    _ = _ := Bundle.genes_relabel labels _ options

/-- Under a smaller cap a poem is read as the same program, with the scores of its lines of text
capped once more, also inside triggers. The documents of both programs have the same genes with the
same properties, except for the scores in the summaries of text, and the same program name. -/
theorem cap_changes_scores_only (source : String) {lower upper : UInt8} (le : lower ≤ upper)
    (options : Options) :
    let small := Document.ofProgram (parse source lower) options
    let large := Document.ofProgram (parse source upper) options
    parse source lower = (parse source upper).relabel (.capped lower) ∧
      small = { large with
        genes := large.genes.map (Gene.relabel (.capped lower))
        level := (parse source lower).totalScore } := by
  intro small large
  have same := parse_capped source le
  refine ⟨same, ?_⟩
  have genes : small.genes = large.genes.map (Gene.relabel (.capped lower)) := by
    rw [← genes_ofProgram_relabel, ← same]
  have name : small.programName = large.programName := by
    change (parse source lower).name.getD "unnamed" = (parse source upper).name.getD "unnamed"
    rw [same, Program.relabel]
  rw [← genes, ← name]
  rfl

/-- Text at the top level and inside a trigger, in a poem with a gene, where the smaller cap cuts
both scores. -/
theorem cap_changes_scores_only_inside :
    let source := "    a\nwhen b:\n      c\ngene g:"
    let small := Document.ofProgram (parse source 2) {}
    let large := Document.ofProgram (parse source 7) {}
    (2 : UInt8) ≤ 7 ∧ (parse source 7).nodes.map Statement.score = [3, 0, 4, 0] ∧
      (parse source 2).nodes.map Statement.score = [2, 0, 2, 0] ∧
      parse source 2 = (parse source 7).relabel (.capped 2) ∧
      small = { large with
        genes := large.genes.map (Gene.relabel (.capped 2))
        level := 2 } := by
  intro source small large
  have le : (2 : UInt8) ≤ 7 := by decide
  have level : (parse source 2).totalScore = 2 := by decide +kernel
  obtain ⟨program, document⟩ := cap_changes_scores_only source le {}
  rw [level] at document
  exact ⟨le, by decide +kernel, by decide +kernel, program, document⟩

end Gene
end PlainVerse
