import PlainVerse.Proofs.Gene.Conservation

/-!
# Triggers leave other genes alone

Two runs are compared: one over all statements of a program and one over those that are no triggers.
The second run reaches, statement by statement, the bundle of the first without the genes that
triggers made. The two can only differ at the end, where a program of triggers alone has no need of
the default gene.
-/
namespace PlainVerse.Gene

open Poem

/-- The condition that the gene of a trigger has and no other gene has. -/
def condition? (gene : Gene) : Option String :=
  match gene.detail with
  | .trigger condition _ => some condition
  | _ => none

theorem lookup_condition (gene : Gene) :
    gene.detail.members.lookup "x-condition" = gene.condition?.map Json.string := by
  rw [condition?]
  cases gene.detail <;> rfl

/-- The gene that a statement makes if it is a trigger. -/
def triggerGene? : Statement → Option Gene
  | .trigger _ condition children => some (trigger condition children)
  | _ => none

/-- The genes that no trigger made. -/
def untriggered (genes : List Gene) : List Gene := genes.filter (·.condition?.isNone)

theorem untriggered_append (first second : List Gene) :
    untriggered (first ++ second) = untriggered first ++ untriggered second :=
  List.filter_append _ _

theorem untriggered_cons {gene : Gene} (plain : gene.condition? = none) (rest : List Gene) :
    untriggered (gene :: rest) = gene :: untriggered rest := by
  simp [untriggered, plain]

namespace Bundle

/-- The bundle without the genes of triggers. -/
def quiet (bundle : Bundle) : Bundle where
  closed := untriggered bundle.closed
  current := bundle.current.map fun openGene =>
    { openGene with followers := untriggered openGene.followers }
  waiting := bundle.waiting

/-- The open gene is not a trigger's. -/
def OpensPlain (bundle : Bundle) : Prop :=
  ∀ openGene ∈ bundle.current, openGene.gene.condition? = none

variable {bundle : Bundle}

theorem OpensPlain.add (plain : bundle.OpensPlain) (statement : Statement) :
    (bundle.add statement).OpensPlain := by
  obtain ⟨closed, current, waiting⟩ := bundle
  cases statement with
  | gene line decl =>
      intro openGene opened
      obtain rfl : OpenGene.mk (declared decl) [] = openGene := Option.some.inj opened
      rfl
  | name | remember | text => exact plain
  | trigger | emit | invoke =>
      cases current with
      | none => exact fun _ opened => nomatch opened
      | some openGene =>
          have here : openGene.gene.condition? = none := plain openGene rfl
          intro other opened
          obtain rfl := Option.some.inj opened
          exact here

theorem OpensPlain.foldl (plain : bundle.OpensPlain) (statements : List Statement) :
    (statements.foldl Bundle.add bundle).OpensPlain := by
  induction statements generalizing bundle with
  | nil => exact plain
  | cons statement rest ih => exact ih (plain.add statement)

theorem quiet_close (plain : bundle.OpensPlain) : bundle.close.quiet = bundle.quiet.close := by
  obtain ⟨closed, current, waiting⟩ := bundle
  cases current with
  | none => rfl
  | some openGene =>
      have here : openGene.gene.condition? = none := plain openGene rfl
      have still : condition? { openGene.gene with
          statements := openGene.gene.statements ++ waiting } = none := here
      simp only [close, quiet, Option.map_some, Option.map_none, untriggered_append,
        untriggered_cons still]

theorem quiet_addGene {gene : Gene} (plain : gene.condition? = none) :
    (bundle.addGene gene).quiet = bundle.quiet.addGene gene := by
  obtain ⟨closed, current, waiting⟩ := bundle
  have alone : untriggered [gene] = [gene] := untriggered_cons plain []
  cases current <;> simp [addGene, quiet, untriggered_append, alone]

theorem quiet_addGene_trigger (condition : String) (children : List Statement) :
    (bundle.addGene (trigger condition children)).quiet = bundle.quiet := by
  obtain ⟨closed, current, waiting⟩ := bundle
  have gone : untriggered [trigger condition children] = [] := rfl
  cases current <;> simp [addGene, quiet, untriggered_append, gone]

theorem quiet_attach (statement : Statement) (op : String) {alone : Gene}
    (plain : alone.condition? = none) :
    (bundle.attach statement op alone).quiet = bundle.quiet.attach statement op alone := by
  obtain ⟨closed, current, waiting⟩ := bundle
  cases current with
  | none => exact quiet_addGene plain
  | some openGene => rfl

/-- One statement: a trigger is not seen, and all others move both runs alike. -/
theorem quiet_add (plain : bundle.OpensPlain) (statement : Statement) :
    (bundle.add statement).quiet =
      if statement.kind = .trigger then bundle.quiet else bundle.quiet.add statement := by
  cases statement with
  | trigger line condition children => exact quiet_addGene_trigger condition children
  | gene line decl =>
      calc (bundle.add (.gene line decl)).quiet
          = { bundle.close.quiet with current := some ⟨declared decl, []⟩ } := rfl
        _ = bundle.quiet.add (.gene line decl) := by rw [quiet_close plain]; rfl
  | emit line topic payload => exact quiet_attach _ _ rfl
  | invoke line path args => exact quiet_attach _ _ rfl
  | name | remember | text => rfl

theorem quiet_foldl (plain : bundle.OpensPlain) (statements : List Statement) :
    (statements.foldl add bundle).quiet =
      (statements.filter (·.kind ≠ .trigger)).foldl add bundle.quiet := by
  induction statements generalizing bundle with
  | nil => rfl
  | cons statement rest ih =>
      rw [List.foldl_cons, ih (plain.add statement), quiet_add plain]
      by_cases trigger : statement.kind = .trigger
      · simp [trigger]
      · simp [trigger]

/-- Whatever is added, the bundle does not stay empty. -/
theorem close_add_ne (bundle : Bundle) (statement : Statement) :
    (bundle.add statement).close.waiting ≠ [] ∨ (bundle.add statement).close.closed ≠ [] := by
  obtain ⟨closed, current, waiting⟩ := bundle
  cases statement with
  | gene => exact .inr (by simp [add, close])
  | trigger | emit | invoke => cases current <;> simp [add, attach, addGene, wait, close]
  | name | remember | text => cases current <;> simp [add, wait, close]

theorem close_foldl_ne {statements : List Statement} (nonempty : statements ≠ [])
    (bundle : Bundle) :
    (statements.foldl add bundle).close.waiting ≠ [] ∨
      (statements.foldl add bundle).close.closed ≠ [] := by
  obtain ⟨init, last, rfl⟩ := (List.eq_nil_or_concat statements).resolve_left nonempty
  rw [List.concat_eq_append, List.foldl_concat]
  exact close_add_ne _ last

/-- A default gene is added on both sides or on neither, if something is left without the genes of
triggers. -/
theorem untriggered_genes (plain : bundle.OpensPlain)
    (left : bundle.quiet.close.waiting ≠ [] ∨ bundle.quiet.close.closed ≠ []) (options : Options) :
    untriggered (bundle.genes options) = bundle.quiet.genes options := by
  have default : untriggered [fallback options.name options.cmd bundle.close.waiting] =
      [fallback options.name options.cmd bundle.close.waiting] := rfl
  rw [← quiet_close plain] at left
  rw [genes, genes, ← quiet_close plain]
  by_cases waits : bundle.close.waiting = []
  · have kept : untriggered bundle.close.closed ≠ [] := left.resolve_left (absurd waits ·)
    have some : bundle.close.closed ≠ [] := by
      intro none
      rw [none] at kept
      exact kept rfl
    simp [quiet, waits, kept, some]
  · simp [quiet, waits, untriggered_append, default]

end Bundle

theorem condition?_filled (decl : GeneDecl) (members : List Statement) :
    (filled decl members).condition? = none := by
  have plain : (filled decl members).detail = .plain := foldl_pushOp_detail _ (declared decl)
  rw [condition?, plain]

theorem filter_geneAt? (statements : List Statement) (n : Nat) (statement : Statement) :
    (geneAt? statements n statement).filter (·.condition?.isSome) = triggerGene? statement := by
  cases statement with
  | gene line decl => simp [geneAt?, condition?_filled, triggerGene?]
  | emit line topic payload =>
      have plain : (emit topic payload).condition? = none := rfl
      cases begun : (statements.take n).any isDeclaration <;>
        simp [geneAt?, begun, plain, triggerGene?]
  | invoke line path args =>
      have plain : (tool path args).condition? = none := rfl
      cases begun : (statements.take n).any isDeclaration <;>
        simp [geneAt?, begun, plain, triggerGene?]
  | trigger | name | remember | text => rfl

theorem filter_bundling (options : Options) (statements : List Statement) :
    (bundling options statements).filter (·.condition?.isSome) =
      statements.filterMap triggerGene? := by
  have default : (if needsFallback statements then
      [fallback options.name options.cmd ((members statements none).map .ofStatement)]
      else []).filter (·.condition?.isSome) = [] := by
    split <;> rfl
  rw [bundling, List.filter_append, default, List.append_nil, List.filter_filterMap]
  have places : (statements.zipIdx.map Prod.fst).filterMap triggerGene? =
      statements.zipIdx.filterMap fun place => triggerGene? place.1 :=
    List.filterMap_map
  simp only [filter_geneAt?]
  rw [← places, List.zipIdx_map_fst]

theorem totalScore_filter (statements : List Statement) (name : Option String) (source : String) :
    Program.totalScore ⟨statements.filter (·.kind ≠ .trigger), name, source⟩ =
      Program.totalScore ⟨statements, name, source⟩ := by
  simp only [Program.totalScore]
  induction statements with
  | nil => rfl
  | cons statement rest ih =>
      cases statement with
      | trigger line condition children => exact ih.trans (UInt32.zero_add _).symm
      | _ => exact congrArg (_ + ·) ih

/-- In a program that is not made of triggers alone, taking the triggers out takes out their genes
and changes nothing else of the document: every other gene keeps its place among the others, its
operations, its estimate and its statements. The genes of the triggers are those of the statements
themselves, in order. They are the genes that are written with a condition. -/
theorem triggers_isolated (program : Program) (options : Options)
    (other : ∃ statement ∈ program.statements, statement.kind ≠ .trigger) :
    let document := Document.ofProgram program options
    let reduced := Document.ofProgram
      { program with statements := program.statements.filter (·.kind ≠ .trigger) } options
    reduced.genes = document.genes.filter (·.condition?.isNone) ∧
      document.genes.filter (·.condition?.isSome) = program.statements.filterMap triggerGene? ∧
      reduced.programName = document.programName ∧ reduced.level = document.level ∧
      ∀ gene ∈ document.genes,
        gene.detail.members.lookup "x-condition" = gene.condition?.map Json.string := by
  have plain : Bundle.empty.OpensPlain := fun _ opened => nomatch opened
  have runs := Bundle.quiet_foldl plain program.statements
  have nonempty : program.statements.filter (·.kind ≠ .trigger) ≠ [] := by
    obtain ⟨statement, mem, kind⟩ := other
    exact List.ne_nil_of_mem (List.mem_filter.2 ⟨mem, by simpa using kind⟩)
  have left := Bundle.close_foldl_ne nonempty Bundle.empty.quiet
  rw [← runs] at left
  refine ⟨?_, ?_, rfl, totalScore_filter _ _ _, fun gene _ => lookup_condition gene⟩
  · have genes := Bundle.untriggered_genes (plain.foldl program.statements) left options
    rw [runs] at genes
    exact genes.symm
  · exact (congrArg _ (genes_foldl options program.statements)).trans (filter_bundling options _)

/-- Triggers before and after the declaration of a gene, and a signal for it behind both. -/
theorem triggers_isolated_around_gene :
    let statements : List Statement := [.trigger 1 "a" [], .name 2 "n", .gene 3 (.ofName "g"),
      .trigger 4 "b" [], .emit 5 "t" none]
    let program : Program := ⟨statements, none, ""⟩
    let reduced : Program := ⟨statements.filter (·.kind ≠ .trigger), none, ""⟩
    (∃ statement ∈ statements, statement.kind ≠ .trigger) ∧
      ((Document.ofProgram program {}).genes.filter (·.condition?.isNone)).map Gene.ops =
        [[emitOp, emitOp]] ∧
      (Document.ofProgram reduced {}).genes =
        (Document.ofProgram program {}).genes.filter (·.condition?.isNone) := by
  have other : ∃ statement ∈ [Statement.trigger 1 "a" [], .name 2 "n", .gene 3 (.ofName "g"),
      .trigger 4 "b" [], .emit 5 "t" none], statement.kind ≠ .trigger :=
    ⟨.name 2 "n", by simp, by simp [Statement.kind]⟩
  exact ⟨other, rfl, (triggers_isolated ⟨_, none, ""⟩ {} other).1⟩

end PlainVerse.Gene
