import PlainVerse.Proofs.Gene.Lowering
import PlainVerse.Proofs.Poem.LineAccounting
import Mathlib.Data.List.Nodup
import Mathlib.Data.List.Perm.Basic

/-!
# From the lines of a poem to its genes

Every statement of a parsed poem is represented once in its gene document: by a gene of its own, by
an entry in the body of a trigger's gene, or by an entry among the statements of a gene. Nothing is
lost between the two stages because the bodies of parsed triggers are flat: a summary leaves out
what is inside a statement, and no statement inside a trigger has anything inside it.
-/
namespace PlainVerse.Gene

open Poem

/-- Whether a statement at position `n` becomes a gene of its own. Signals and tools do so before
the first declaration only. -/
def makesGene (statements : List Statement) (n : Nat) : Statement → Bool
  | .gene .. | .trigger .. => true
  | .emit .. | .invoke .. => !(statements.take n).any isDeclaration
  | .name .. | .remember .. | .text .. => false

def geneMakers (statements : List Statement) : List Statement :=
  (statements.zipIdx.filter fun place => makesGene statements place.2 place.1).map Prod.fst

/-- Whether a gene is the one that a statement makes. A declared gene has taken in other statements
as well. -/
inductive IsGeneOf : Statement → Gene → Prop
  | declared (line : Nat) (decl : GeneDecl) (members : List Statement) :
      IsGeneOf (.gene line decl) (filled decl members)
  | trigger (line : Nat) (condition : String) (children : List Statement) :
      IsGeneOf (.trigger line condition children) (trigger condition children)
  | emit (line : Nat) (topic : String) (payload : Option String) :
      IsGeneOf (.emit line topic payload) (emit topic payload)
  | tool (line : Nat) (path : ToolPath) (args : OrderedMap String) :
      IsGeneOf (.invoke line path args) (tool path args)

/-- The entries in the body of a trigger's gene. -/
def body (gene : Gene) : List Summary :=
  match gene.detail with
  | .trigger _ entries => entries
  | _ => []

/-- All entries of a document, those of bodies included. -/
def Document.entries (document : Document) : List Summary :=
  document.genes.flatMap fun gene => gene.statements ++ gene.body

theorem isTakenIn_eq_not_makesGene (statements : List Statement) (n : Nat)
    (statement : Statement) :
    isTakenIn statements n statement = !makesGene statements n statement := by
  cases statement <;> simp [isTakenIn, makesGene, isLoose, opOf?]

theorem makesGene_eq_isSome (statements : List Statement) (n : Nat) (statement : Statement) :
    makesGene statements n statement = (geneAt? statements n statement).isSome := by
  cases statement with
  | emit => cases h : (statements.take n).any isDeclaration <;> simp [makesGene, geneAt?, h]
  | invoke => cases h : (statements.take n).any isDeclaration <;> simp [makesGene, geneAt?, h]
  | _ => rfl

theorem isGeneOf_geneAt? {statements : List Statement} {n : Nat} {statement : Statement}
    {gene : Gene} (h : geneAt? statements n statement = some gene) : IsGeneOf statement gene := by
  cases statement with
  | gene line decl =>
      obtain rfl := Option.some.inj h
      exact .declared line decl _
  | trigger line condition children =>
      obtain rfl := Option.some.inj h
      exact .trigger line condition children
  | emit line topic payload =>
      simp only [geneAt?, Option.ite_none_left_eq_some, Option.some.injEq] at h
      obtain ⟨-, rfl⟩ := h
      exact .emit line topic payload
  | invoke line path args =>
      simp only [geneAt?, Option.ite_none_left_eq_some, Option.some.injEq] at h
      obtain ⟨-, rfl⟩ := h
      exact .tool line path args
  | _ => cases h

/-- Every statement either makes a gene or is taken in. -/
theorem perm_geneMakers_takenIn (statements : List Statement) :
    (geneMakers statements ++ takenIn statements).Perm statements := by
  have split := List.filter_append_perm
    (fun place : Statement × Nat => makesGene statements place.2 place.1) statements.zipIdx
  have places := split.map Prod.fst
  rw [List.map_append, List.zipIdx_map_fst] at places
  have same : takenIn statements =
      (statements.zipIdx.filter fun place => !makesGene statements place.2 place.1).map
        Prod.fst := by
    simp only [takenIn, isTakenIn_eq_not_makesGene]
  rw [same]
  exact places

theorem forall₂_filter_filterMap (make : Statement × Nat → Option Gene)
    (isGene : ∀ place gene, make place = some gene → IsGeneOf place.1 gene)
    (places : List (Statement × Nat)) :
    List.Forall₂ IsGeneOf ((places.filter fun place => (make place).isSome).map Prod.fst)
      (places.filterMap make) := by
  induction places with
  | nil => exact .nil
  | cons place rest ih =>
      cases made : make place with
      | none => simpa [made] using ih
      | some gene => simpa [made] using And.intro (isGene place gene made) ih

/-- The genes of a bundling before the default one: one for each statement that makes one. -/
theorem forall₂_geneMakers (statements : List Statement) :
    List.Forall₂ IsGeneOf (geneMakers statements)
      (statements.zipIdx.filterMap fun place => geneAt? statements place.2 place.1) := by
  simp only [geneMakers, makesGene_eq_isSome]
  exact forall₂_filter_filterMap (fun place => geneAt? statements place.2 place.1)
    (fun _ _ made => isGeneOf_geneAt? made) statements.zipIdx

theorem foldl_pushOp_detail (ops : List String) (gene : Gene) :
    (ops.foldl pushOp gene).detail = gene.detail := by
  induction ops generalizing gene with
  | nil => rfl
  | cons op rest ih => exact ih (gene.pushOp op)

theorem IsGeneOf.body_eq {statement : Statement} {gene : Gene} (h : IsGeneOf statement gene) :
    gene.body = statement.children.map .ofStatement := by
  cases h with
  | declared line decl members =>
      have plain : (filled decl members).detail = .plain :=
        foldl_pushOp_detail _ (Gene.declared decl)
      simp [body, plain, Statement.children]
  | trigger line condition children => rfl
  | emit line topic payload => rfl
  | tool line path args => rfl

theorem flatMap_body {statements : List Statement} {genes : List Gene}
    (h : List.Forall₂ IsGeneOf statements genes) :
    genes.flatMap body = (statements.flatMap Statement.children).map .ofStatement := by
  induction h with
  | nil => rfl
  | cons made _ ih => rw [List.flatMap_cons, List.flatMap_cons, List.map_append, ih, made.body_eq]

/-- Without any declaration, only the default gene takes statements in. -/
theorem members_none_eq_takenIn {statements : List Statement}
    (undeclared : statements.any isDeclaration = false) :
    members statements none = takenIn statements := by
  have same : ∀ place ∈ statements.zipIdx,
      isTakenIn statements place.2 place.1 = isLoose place.1 := by
    intro place _
    simp [isTakenIn, any_take_eq_false undeclared place.2]
  rw [members_none undeclared, takenIn, List.filter_congr same]
  exact (filter_zipIdx_fst isLoose statements 0).symm

/-- Nothing inside a statement has anything inside it. -/
def IsFlat (statement : Statement) : Prop := statement.nodes = statement :: statement.children

theorem isFlat_of_kind {statement : Statement} (h : statement.kind ≠ .trigger) :
    IsFlat statement := by
  cases statement with
  | trigger => exact absurd rfl h
  | _ => rfl

theorem isFlat_of_reads {cap : UInt8} {lines : List Line} {statements : List Statement}
    (h : Reads cap lines statements) : ∀ statement ∈ statements, IsFlat statement := by
  induction h with
  | done => exact fun _ mem => nomatch mem
  | blank _ _ ih => exact ih
  | single _ opening _ ih =>
      exact List.forall_mem_cons.2 ⟨isFlat_of_kind (openingOf_single opening).2.1, ih⟩
  | @trigger line condition taken _ _ _ _ _ _ ih =>
      refine List.forall_mem_cons.2 ⟨?_, ih⟩
      rw [IsFlat, Statement.nodes, nodesOf_children]
      rfl
  | gene _ _ _ _ _ ih =>
      exact List.forall_mem_cons.2 ⟨isFlat_of_kind (by simp [Statement.kind]), ih⟩

theorem perm_nodesOf {statements : List Statement}
    (flat : ∀ statement ∈ statements, IsFlat statement) :
    (Statement.nodesOf statements).Perm (statements ++ statements.flatMap Statement.children) := by
  induction statements with
  | nil => exact .nil
  | cons statement rest ih =>
      have own : statement.nodes = statement :: statement.children := flat statement (by simp)
      have later := ih fun other mem => flat other (List.mem_cons_of_mem _ mem)
      rw [Statement.nodesOf, own, List.flatMap_cons]
      apply List.Perm.cons
      exact (later.append_left _).trans (List.perm_append_comm_assoc _ _ _)

theorem children_of_mem_takenIn {statements : List Statement} {statement : Statement}
    (mem : statement ∈ takenIn statements) : statement.children = [] := by
  obtain ⟨place, hplace, rfl⟩ := List.mem_map.1 mem
  have taken := (List.mem_filter.1 hplace).2
  rw [isTakenIn_eq_not_makesGene] at taken
  cases h : place.1 with
  | trigger => simp [h, makesGene] at taken
  | _ => rfl

/-- The three ways in which the nodes of flat statements are represented. -/
theorem perm_nodesOf_represented {statements : List Statement}
    (flat : ∀ statement ∈ statements, IsFlat statement) :
    (Statement.nodesOf statements).Perm
      (geneMakers statements ++ (takenIn statements ++
        (geneMakers statements).flatMap Statement.children)) := by
  have split := perm_geneMakers_takenIn statements
  have none : (takenIn statements).flatMap Statement.children = [] := by
    rw [List.flatMap_eq_nil_iff]
    exact fun statement mem => children_of_mem_takenIn mem
  have inside := split.flatMap_right Statement.children
  rw [List.flatMap_append, none, List.append_nil] at inside
  rw [← List.append_assoc]
  exact (perm_nodesOf flat).trans (split.symm.append inside.symm)

theorem map_line_ofStatement (statements : List Statement) :
    (statements.map Summary.ofStatement).map Summary.line = statements.map Statement.line := by
  rw [List.map_map]
  rfl

/-- If no two nodes stand at one line, neither do two entries, and each entry summarizes the node
of its line. -/
theorem entries_of_perm {nodes unlisted listed : List Statement} {entries : List Summary}
    (lines : (nodes.map Statement.line).Nodup) (split : nodes.Perm (unlisted ++ listed))
    (summaries : entries.Perm (listed.map .ofStatement)) :
    (entries.map Summary.line).Nodup ∧
      ∀ entry ∈ entries, ∃ node ∈ nodes, entry = .ofStatement node ∧
        ∀ other ∈ nodes, other.line = entry.line → other = node := by
  have distinct := (split.map Statement.line).nodup_iff.1 lines
  rw [List.map_append] at distinct
  constructor
  · rw [(summaries.map Summary.line).nodup_iff, map_line_ofStatement]
    exact distinct.of_append_right
  · intro entry mem
    obtain ⟨node, hnode, rfl⟩ := List.mem_map.1 (summaries.subset mem)
    have here : node ∈ nodes := split.symm.subset (List.mem_append_right _ hnode)
    refine ⟨node, here, rfl, fun other hother same => ?_⟩
    exact List.inj_on_of_nodup_map lines hother here same

theorem parse_lines_nodup (source : String) (cap : UInt8) :
    ((parse source cap).nodes.map Statement.line).Nodup := by
  rw [parse_node_lines]
  exact List.Nodup.filter _ List.nodup_range'

/-- The gene document of a poem represents every node of the poem once. The statements that make
genes have one gene each, in the order of the source, and the body of that gene lists what is inside
the statement; besides there is at most the default gene. All other statements at the top level have
one entry each among the statements of the genes. An entry summarizes the one node that stands at
its line, and no two entries have one line. -/
theorem document_represents_nodes (source : String) (cap : UInt8) (options : Options) :
    let program := parse source cap
    let makers := geneMakers program.statements
    let inside := makers.flatMap Statement.children
    let others := takenIn program.statements
    let document := Document.ofProgram program options
    program.nodes.Perm (makers ++ (others ++ inside)) ∧
    (∃ own default, document.genes = own ++ default ∧
      default = (if needsFallback program.statements then
        [fallback options.name options.cmd (others.map .ofStatement)] else []) ∧
      List.Forall₂ (fun statement gene => IsGeneOf statement gene ∧
        gene.body = statement.children.map .ofStatement) makers own ∧
      program.nodeCount = own.length + (document.genes.flatMap Gene.statements).length +
        (document.genes.flatMap body).length) ∧
    document.genes.flatMap Gene.statements = others.map .ofStatement ∧
    (document.entries.map Summary.line).Nodup ∧
    ∀ entry ∈ document.entries, ∃ node ∈ program.nodes, entry = .ofStatement node ∧
      ∀ other ∈ program.nodes, other.line = entry.line → other = node := by
  intro program makers inside others document
  have reads := statementsOf_reads cap (Line.ofSource source)
  have represented : program.nodes.Perm (makers ++ (others ++ inside)) :=
    perm_nodesOf_represented (isFlat_of_reads reads)
  have made : List.Forall₂ IsGeneOf makers _ := forall₂_geneMakers program.statements
  have genes : document.genes = bundling options program.statements := genes_foldl options _
  have statements : document.genes.flatMap Gene.statements = others.map .ofStatement :=
    (Bundle.flatMap_genes _ options).trans (Bundle.keeps_empty.foldl program.statements).held
  have bodies : document.genes.flatMap body = inside.map .ofStatement := by
    have none : (if needsFallback program.statements then
        [fallback options.name options.cmd ((members program.statements .none).map .ofStatement)]
        else []).flatMap body = [] := by
      split <;> rfl
    rw [genes, bundling, List.flatMap_append, none, List.append_nil, flatMap_body made]
  have entries : document.entries.Perm ((others ++ inside).map .ofStatement) := by
    rw [List.map_append, ← statements, ← bodies]
    exact (List.flatMap_append_perm _ _ _).symm
  refine ⟨represented, ⟨_, _, genes, ?_, ?_, ?_⟩, statements,
    entries_of_perm (parse_lines_nodup source cap) represented entries⟩
  · cases declared : program.statements.any isDeclaration with
    | true => simp [needsFallback, declared]
    | false => rw [members_none_eq_takenIn declared]
  · exact made.imp fun _ _ own => ⟨own, own.body_eq⟩
  · rw [Program.nodeCount, represented.length_eq, statements, bodies, ← made.length_eq]
    simp only [List.length_append, List.length_map]
    omega

end PlainVerse.Gene
